/-
Decimal numbers as they are written, and the reader of them.

`Denotes cs v` is the grammar: a sign or none, digits with at most one point among them and at least one digit in all, a
power of ten or none, and the rational number that all of it stands for. It says nothing about how to find the parts.
`Numeral.parse?` finds them from left to right, and what it finds is the only way to take the text apart.

The reader keeps digits and exponent apart and never computes the number. Whether the number is below a limit is decided
by counting digits where that is enough, and the count of digits is right because it leaves out zeros in front.

Results:
- `denotes_iff_parse?`: a text is a decimal number exactly if the reader takes it, with the value of what is read;
- `Denotes.unique`: a text denotes one number at most;
- `chars_of_denotes`: which characters a number can be written with, and that one of them is a digit;
- `isFinite_iff`: the check by counting digits is the comparison of the number with the limit.
-/
import BlockSketch.Decimal.Numeral
import Mathlib.Algebra.Order.Field.Basic
import Mathlib.Data.Nat.Digits.Defs
import Mathlib.Data.Rat.Cast.Order
import Mathlib.Tactic.FieldSimp
import Mathlib.Tactic.Linarith
import Mathlib.Tactic.NormNum
import Mathlib.Tactic.Positivity
import Mathlib.Tactic.Ring

namespace BlockSketch.Decimal

/-! ## Digits -/

def Digits (ds : List Char) : Prop := ∀ c ∈ ds, c.isDigit = true

def digit (c : Char) : Nat := c.toNat - '0'.toNat

/-- the number that digits stand for in a base, the first of them counting most -/
def natural (base : Nat) (ds : List Char) : Nat := Nat.ofDigits base (ds.reverse.map digit)

theorem Digits.of_cons {c : Char} {ds : List Char} (h : Digits (c :: ds)) : c.isDigit = true ∧ Digits ds :=
  ⟨h c List.mem_cons_self, fun d hd => h d (List.mem_cons_of_mem c hd)⟩

theorem Digits.append {ds fs : List Char} (hds : Digits ds) (hfs : Digits fs) : Digits (ds ++ fs) := fun c hc =>
  (List.mem_append.1 hc).elim (hds c) (hfs c)

theorem digits_iff_all {ds : List Char} : ds.all Char.isDigit = true ↔ Digits ds := List.all_eq_true

theorem digit_lt {c : Char} (h : c.isDigit = true) : digit c < 10 := by
  have hc : '0'.toNat ≤ c.toNat ∧ c.toNat ≤ '9'.toNat := by
    simpa [Char.isDigit, Char.le_def, UInt32.le_iff_toNat_le] using h
  have h0 : '0'.toNat = 48 := rfl
  have h9 : '9'.toNat = 57 := rfl
  unfold digit
  omega

variable {base : Nat} {ds fs : List Char}

theorem natural_nil : natural base [] = 0 := rfl

theorem natural_append : natural base (ds ++ fs) = natural base ds * base ^ fs.length + natural base fs := by
  simp only [natural, List.reverse_append, List.map_append, Nat.ofDigits_append, List.length_map, List.length_reverse]
  ring

theorem natural_cons (c : Char) : natural base (c :: ds) = digit c * base ^ ds.length + natural base ds := by
  have h : natural base ([c] ++ ds) = natural base [c] * base ^ ds.length + natural base ds := natural_append
  simpa [natural] using h

theorem natural_lt (h : ∀ c ∈ ds, digit c < base) (hbase : 1 < base) : natural base ds < base ^ ds.length := by
  have hlt := Nat.ofDigits_lt_base_pow_length hbase (l := ds.reverse.map digit) (by simpa using h)
  simpa [natural] using hlt

theorem digitsValue_eq (ds : List Char) : digitsValue ds = natural 10 ds := by
  induction ds using List.reverseRec with
  | nil => rfl
  | append_singleton ds c ih =>
    rw [natural_append, ← ih]
    simp [digitsValue, natural, digit, Nat.mul_comm]

/-- zeros in front do not count -/
theorem natural_dropWhile (ds : List Char) : natural 10 (ds.dropWhile (· == '0')) = natural 10 ds := by
  induction ds with
  | nil => rfl
  | cons c rest ih =>
    by_cases hc : c = '0'
    · subst hc
      rw [List.dropWhile_cons_of_pos (by rfl), ih, natural_cons]
      simp [digit]
    · rw [List.dropWhile_cons_of_neg (by simpa using hc)]

/-- a number has as many digits as there are from the first one that is not zero -/
theorem natural_bounds {c : Char} (h : Digits (c :: ds)) (hc : c ≠ '0') :
    10 ^ ds.length ≤ natural 10 (c :: ds) ∧ natural 10 (c :: ds) < 10 ^ (ds.length + 1) := by
  refine ⟨?_, natural_lt (fun d hd => digit_lt (h d hd)) (by decide)⟩
  have hpos : 0 < digit c := by
    have hdigit : '0'.toNat ≤ c.toNat := by
      have := (h c List.mem_cons_self)
      simp only [Char.isDigit, Bool.and_eq_true, decide_eq_true_eq] at this
      simpa [Char.le_def, UInt32.le_iff_toNat_le] using this.1
    have hne : c.toNat ≠ '0'.toNat := fun heq => hc (Char.toNat_inj.1 heq)
    unfold digit
    omega
  rw [natural_cons]
  calc 10 ^ ds.length ≤ digit c * 10 ^ ds.length := Nat.le_mul_of_pos_left _ hpos
    _ ≤ digit c * 10 ^ ds.length + natural 10 ds := Nat.le_add_right _ _

/-! ## The grammar -/

/-- a sign in front of a number, or none -/
inductive Sign where
  | none
  | plus
  | minus
  deriving DecidableEq, Repr

namespace Sign

def chars : Sign → List Char
  | .none => []
  | .plus => ['+']
  | .minus => ['-']

/-- what it makes of one -/
def unit : Sign → ℤ
  | .minus => -1
  | _ => 1

theorem abs_unit (s : Sign) : |(s.unit : ℚ)| = 1 := by
  cases s <;> simp [unit]

end Sign

/-- digits with a point behind, among or before them, or without one; at least one digit in all -/
inductive Magnitude : List Char → ℚ → Prop where
  | whole {ds : List Char} (h : Digits ds) (hne : ds ≠ []) : Magnitude ds (natural 10 ds)
  | point {ds fs : List Char} (hds : Digits ds) (hfs : Digits fs) (hne : ds ≠ [] ∨ fs ≠ []) :
    Magnitude (ds ++ '.' :: fs) (natural 10 ds + natural 10 fs / 10 ^ fs.length)

/-- nothing, or `e` or `E` and a signed whole number -/
inductive Power : List Char → ℤ → Prop where
  | none : Power [] 0
  | written {mark : Char} (hmark : mark = 'e' ∨ mark = 'E') (s : Sign) {ds : List Char} (h : Digits ds) (hne : ds ≠ []) :
    Power (mark :: (s.chars ++ ds)) (s.unit * natural 10 ds)

/-- the text is a decimal number and stands for the value -/
inductive Denotes : List Char → ℚ → Prop where
  | mk (s : Sign) {m p : List Char} {x : ℚ} {k : ℤ} (hm : Magnitude m x) (hp : Power p k) :
    Denotes (s.chars ++ (m ++ p)) (s.unit * (x * 10 ^ k))

/-! ## Reading -/

def NoDigitFirst (cs : List Char) : Prop := ∀ c, cs.head? = some c → c.isDigit = false

def NoSignFirst (cs : List Char) : Prop := cs.head? ≠ some '-' ∧ cs.head? ≠ some '+'

theorem span_digits {rest : List Char} (h : Digits ds) (hr : NoDigitFirst rest) :
    (ds ++ rest).span Char.isDigit = (ds, rest) := by
  rw [List.span_eq_takeWhile_dropWhile, List.takeWhile_append_of_pos h, List.dropWhile_append_of_pos h]
  cases rest with
  | nil => simp
  | cons c rest =>
    have hc := hr c rfl
    simp [hc]

theorem noSignFirst_of_digit {c : Char} {cs : List Char} (h : c.isDigit = true) : NoSignFirst (c :: cs) := by
  constructor
  · rintro ⟨⟩
    cases h
  · rintro ⟨⟩
    cases h

theorem noSignFirst_of_magnitude {m : List Char} {x : ℚ} (h : Magnitude m x) (rest : List Char) :
    NoSignFirst (m ++ rest) := by
  cases h with
  | whole hds hne =>
    cases m with
    | nil => exact absurd rfl hne
    | cons c m => exact noSignFirst_of_digit hds.of_cons.1
  | @point ds fs hds hfs hne =>
    cases ds with
    | nil => exact ⟨fun hc => (by cases hc), fun hc => by cases hc⟩
    | cons c ds => exact noSignFirst_of_digit hds.of_cons.1

theorem takeSign_sign (s : Sign) {cs : List Char} (h : NoSignFirst cs) :
    takeSign (s.chars ++ cs) = (s == .minus, cs) := by
  cases s with
  | plus => rfl
  | minus => rfl
  | none =>
    simp only [Sign.chars, List.nil_append]
    unfold takeSign
    split
    · exact absurd rfl h.1
    · exact absurd rfl h.2
    · rfl

theorem exists_sign (cs : List Char) : ∃ s : Sign, cs = s.chars ++ (takeSign cs).2 ∧ (takeSign cs).1 = (s == .minus) := by
  unfold takeSign
  split
  · exact ⟨.minus, rfl, rfl⟩
  · exact ⟨.plus, rfl, rfl⟩
  · exact ⟨.none, rfl, rfl⟩

/-- digits are split off the front of any text -/
theorem span_cases (cs : List Char) : ∃ ds rest, cs = ds ++ rest ∧ Digits ds ∧ cs.span Char.isDigit = (ds, rest) := by
  rw [List.span_eq_takeWhile_dropWhile]
  exact ⟨_, _, List.takeWhile_append_dropWhile.symm, digits_iff_all.1 List.all_takeWhile, rfl⟩

namespace Numeral

def value (n : Numeral) : ℚ := (if n.negative then -1 else 1) * (n.mantissa * 10 ^ n.scale)

theorem value_eq (s : Sign) (ds fs : List Char) (k : ℤ) :
    value ⟨s == .minus, ds, fs, k⟩ = s.unit * ((natural 10 ds + natural 10 fs / 10 ^ fs.length) * 10 ^ k) := by
  have hsign : (if (s == .minus) = true then -1 else 1 : ℚ) = s.unit := by cases s <;> simp [Sign.unit]
  simp only [value, mantissa, scale, hsign, digitsValue_eq, natural_append]
  rw [zpow_sub₀ (by norm_num : (10 : ℚ) ≠ 0), zpow_natCast]
  push_cast
  field_simp

theorem readExponent?_eq_some_iff {cs : List Char} {k : ℤ} :
    readExponent? cs = some k ↔
      ∃ (s : Sign) (ds : List Char), Digits ds ∧ ds ≠ [] ∧ cs = s.chars ++ ds ∧ k = s.unit * natural 10 ds := by
  have hvalue (s : Sign) (n : Nat) : (if (s == .minus) = true then -(n : ℤ) else n) = s.unit * n := by
    cases s <;> simp [Sign.unit]
  constructor
  · intro h
    obtain ⟨s, hcs, hneg⟩ := exists_sign cs
    unfold readExponent? at h
    simp only [hneg, hvalue, digitsValue_eq] at h
    split at h
    · cases h
    · rename_i hds
      simp only [Bool.or_eq_true, not_or, Bool.not_eq_true, Bool.not_eq_false', List.isEmpty_eq_false_iff] at hds
      exact ⟨s, _, digits_iff_all.1 hds.2, hds.1, hcs, (Option.some.inj h).symm⟩
  · rintro ⟨s, ds, hdigits, hne, rfl, rfl⟩
    have hsign : NoSignFirst ds := by simpa using noSignFirst_of_magnitude (.whole hdigits hne) []
    unfold readExponent?
    simp only [takeSign_sign s hsign, digits_iff_all.2 hdigits, List.isEmpty_eq_false_iff.2 hne, digitsValue_eq, hvalue]
    rfl

theorem readPower?_eq_some_iff {cs : List Char} {k : ℤ} : readPower? cs = some k ↔ Power cs k := by
  constructor
  · intro h
    cases cs with
    | nil => cases h; exact .none
    | cons mark rest =>
      simp only [readPower?] at h
      split at h
      · rename_i hmark
        obtain ⟨s, ds, hdigits, hne, rfl, rfl⟩ := readExponent?_eq_some_iff.1 h
        exact .written (by simpa using hmark) s hdigits hne
      · cases h
  · intro h
    cases h with
    | none => rfl
    | @written mark hmark s ds hdigits hne =>
      have hm : (mark == 'e' || mark == 'E') = true := by simpa using hmark
      simp only [readPower?, hm, if_true]
      exact readExponent?_eq_some_iff.2 ⟨s, ds, hdigits, hne, rfl, rfl⟩

/-- neither a digit nor a point can stand at the start of a power of ten -/
theorem power_first {p : List Char} {k : ℤ} (h : Power p k) : NoDigitFirst p ∧ p.head? ≠ some '.' := by
  cases h with
  | none => exact ⟨fun c hc => (by cases hc), fun hc => by cases hc⟩
  | written hmark s hdigits hne =>
    rcases hmark with rfl | rfl
    · exact ⟨fun c hc => (by cases hc; rfl), fun hc => by cases hc⟩
    · exact ⟨fun c hc => (by cases hc; rfl), fun hc => by cases hc⟩

theorem takeFraction_cases (cs : List Char) :
    (∃ fs rest, cs = '.' :: (fs ++ rest) ∧ Digits fs ∧ takeFraction cs = (fs, rest)) ∨
      (cs.head? ≠ some '.' ∧ takeFraction cs = ([], cs)) := by
  unfold takeFraction
  split
  · rename_i tail
    obtain ⟨fs, rest, hsplit, hdigits, hspan⟩ := span_cases tail
    exact .inl ⟨fs, rest, by rw [← hsplit], hdigits, hspan⟩
  · rename_i hpoint
    refine .inr ⟨fun hhead => ?_, rfl⟩
    obtain ⟨tail, rfl⟩ := List.head?_eq_some_iff.1 hhead
    exact hpoint tail rfl

/-- the numeral that is read from a text that is put together by the grammar -/
theorem parse?_of_denotes {cs : List Char} {v : ℚ} (h : Denotes cs v) : ∃ n, parse? cs = some n ∧ n.value = v := by
  obtain @⟨s, m, p, x, k, hm, hp⟩ := h
  obtain ⟨hdigit, hpoint⟩ := power_first hp
  have hpower := readPower?_eq_some_iff.2 hp
  have hsign := noSignFirst_of_magnitude hm p
  cases hm with
  | whole hds hne =>
    have hfraction : takeFraction p = ([], p) := by
      rcases takeFraction_cases p with ⟨fs, rest, rfl, -⟩ | ⟨-, h⟩
      · exact absurd rfl hpoint
      · exact h
    refine ⟨⟨s == .minus, m, [], k⟩, ?_, ?_⟩
    · simp only [parse?, takeSign_sign s hsign, span_digits hds hdigit, hfraction, List.isEmpty_eq_false_iff.2 hne,
        Bool.false_and, hpower, Option.map_some]
      rfl
    · simp [value_eq, natural_nil]
  | @point ds fs hds hfs hne =>
    have hspan : ((ds ++ '.' :: fs) ++ p).span Char.isDigit = (ds, '.' :: (fs ++ p)) := by
      rw [List.append_assoc]
      exact span_digits hds fun c hc => by cases hc; rfl
    have hempty : (ds.isEmpty && fs.isEmpty) = false := by
      rcases hne with hne | hne
      · rw [List.isEmpty_eq_false_iff.2 hne, Bool.false_and]
      · rw [List.isEmpty_eq_false_iff.2 hne, Bool.and_false]
    refine ⟨⟨s == .minus, ds, fs, k⟩, ?_, value_eq s ds fs k⟩
    simp only [parse?, takeSign_sign s hsign, hspan, takeFraction, span_digits hfs hdigit, hempty, hpower,
      Option.map_some]
    rfl

/-- a numeral that is read was put together by the grammar -/
theorem denotes_of_parse? {cs : List Char} {n : Numeral} (h : parse? cs = some n) :
    Denotes cs n.value ∧ Digits n.whole ∧ Digits n.fraction := by
  obtain ⟨s, hcs, hneg⟩ := exists_sign cs
  obtain ⟨whole, after, hsplit, hwhole, hspan⟩ := span_cases (takeSign cs).2
  unfold parse? at h
  simp only [hneg, hspan] at h
  rw [hcs, hsplit]
  rcases takeFraction_cases after with ⟨fs, rest, rfl, hfs, hfraction⟩ | ⟨-, hfraction⟩
  · rw [hfraction] at h
    split at h
    · cases h
    rename_i hempty
    obtain ⟨k, hpower, rfl⟩ := Option.map_eq_some_iff.1 h
    have hne : whole ≠ [] ∨ fs ≠ [] := by
      simp only [Bool.and_eq_true, List.isEmpty_iff] at hempty
      exact Classical.not_and_iff_not_or_not.1 hempty
    have hd := Denotes.mk s (.point hwhole hfs hne) (readPower?_eq_some_iff.1 hpower)
    rw [List.append_assoc, List.cons_append] at hd
    exact ⟨(value_eq s whole fs k) ▸ hd, hwhole, hfs⟩
  · rw [hfraction] at h
    split at h
    · cases h
    rename_i hempty
    obtain ⟨k, hpower, rfl⟩ := Option.map_eq_some_iff.1 h
    have hne : whole ≠ [] := by simpa using hempty
    have hd := Denotes.mk s (.whole hwhole hne) (readPower?_eq_some_iff.1 hpower)
    have hvalue := value_eq s whole [] k
    simp only [natural_nil, Nat.cast_zero, zero_div, add_zero] at hvalue
    exact ⟨hvalue ▸ hd, hwhole, fun c hc => by cases hc⟩

end Numeral

/-- **The reader takes exactly the decimal numbers**, and what it reads stands for the number. -/
theorem denotes_iff_parse? {cs : List Char} {v : ℚ} : Denotes cs v ↔ ∃ n, Numeral.parse? cs = some n ∧ n.value = v := by
  constructor
  · exact Numeral.parse?_of_denotes
  · rintro ⟨n, hn, rfl⟩
    exact (Numeral.denotes_of_parse? hn).1

theorem Denotes.unique {cs : List Char} {v w : ℚ} (hv : Denotes cs v) (hw : Denotes cs w) : v = w := by
  obtain ⟨n, hn, rfl⟩ := denotes_iff_parse?.1 hv
  obtain ⟨m, hm, rfl⟩ := denotes_iff_parse?.1 hw
  rw [hn] at hm
  cases hm
  rfl

/-- the characters that numbers are written with, digits apart -/
def marks : List Char := ['+', '-', '.', 'e', 'E']

theorem sign_chars (s : Sign) : ∀ c ∈ s.chars, c ∈ marks := by
  cases s with
  | none => exact fun c hc => by cases hc
  | plus => exact List.forall_mem_singleton.2 List.mem_cons_self
  | minus => exact List.forall_mem_singleton.2 (List.mem_cons_of_mem _ List.mem_cons_self)

/-- a number is written with digits and marks, and at least one digit is among them -/
theorem chars_of_denotes {cs : List Char} {v : ℚ} (h : Denotes cs v) :
    (∀ c ∈ cs, c.isDigit = true ∨ c ∈ marks) ∧ ∃ c ∈ cs, c.isDigit = true := by
  have hsome {ds : List Char} (hds : Digits ds) (hne : ds ≠ []) : ∃ c ∈ ds, c.isDigit = true := by
    obtain ⟨c, hc⟩ := List.exists_mem_of_ne_nil ds hne
    exact ⟨c, hc, hds c hc⟩
  obtain @⟨s, m, p, x, k, hm, hp⟩ := h
  have hmagnitude : (∀ c ∈ m, c.isDigit = true ∨ c ∈ marks) ∧ ∃ c ∈ m, c.isDigit = true := by
    cases hm with
    | whole hds hne => exact ⟨fun c hc => .inl (hds c hc), hsome hds hne⟩
    | point hds hfs hne =>
      constructor
      · intro c hc
        rcases List.mem_append.1 hc with hc | hc
        · exact .inl (hds c hc)
        · rcases List.mem_cons.1 hc with rfl | hc
          · exact .inr (by decide)
          · exact .inl (hfs c hc)
      · rcases hne with hne | hne
        · obtain ⟨c, hc, hd⟩ := hsome hds hne
          exact ⟨c, List.mem_append_left _ hc, hd⟩
        · obtain ⟨c, hc, hd⟩ := hsome hfs hne
          exact ⟨c, List.mem_append_right _ (List.mem_cons_of_mem _ hc), hd⟩
  have hpower : ∀ c ∈ p, c.isDigit = true ∨ c ∈ marks := by
    cases hp with
    | none => exact fun c hc => by cases hc
    | written hmark s hds hne =>
      intro c hc
      rcases List.mem_cons.1 hc with rfl | hc
      · rcases hmark with rfl | rfl <;> exact .inr (by decide)
      · rcases List.mem_append.1 hc with hc | hc
        · exact .inr (sign_chars s c hc)
        · exact .inl (hds c hc)
  constructor
  · intro c hc
    rcases List.mem_append.1 hc with hc | hc
    · exact .inr (sign_chars s c hc)
    · rcases List.mem_append.1 hc with hc | hc
      · exact hmagnitude.1 c hc
      · exact hpower c hc
  · obtain ⟨c, hc, hd⟩ := hmagnitude.2
    exact ⟨c, List.mem_append_right _ (List.mem_append_left _ hc), hd⟩

/-! ## Below the limit -/

namespace Numeral

variable {n : Numeral}

theorem abs_value (n : Numeral) : |n.value| = n.mantissa * 10 ^ n.scale := by
  have hsign : |(if n.negative then -1 else 1 : ℚ)| = 1 := by split <;> simp
  have hpos : (0 : ℚ) ≤ n.mantissa * 10 ^ n.scale := mul_nonneg (Nat.cast_nonneg _) (zpow_pos (by norm_num) _).le
  rw [value, abs_mul, hsign, one_mul, abs_of_nonneg hpos]

theorem isBelow_iff (m : Nat) (k : ℤ) (limit : Nat) : isBelow m k limit = true ↔ (m : ℚ) * 10 ^ k < limit := by
  cases k with
  | ofNat e =>
    have h : ((m * 10 ^ e : Nat) : ℚ) = m * 10 ^ (Int.ofNat e) := by simp
    rw [← h, Nat.cast_lt]
    exact decide_eq_true_iff
  | negSucc e =>
    have hpow : (0 : ℚ) < 10 ^ (e + 1) := by positivity
    rw [zpow_negSucc, mul_inv_lt_iff₀ hpow]
    have h : ((limit * 10 ^ (e + 1) : Nat) : ℚ) = limit * 10 ^ (e + 1) := by push_cast; ring
    rw [← h, Nat.cast_lt]
    exact decide_eq_true_iff

/-- the number of digits from the first one that is not zero, moved by the power of ten, says how great the number is -/
theorem bounds_of_significant (hw : Digits n.whole) (hf : Digits n.fraction) (hne : n.significant ≠ []) :
    (10 : ℚ) ^ ((n.significant.length : ℤ) + n.scale - 1) ≤ |n.value| ∧
      |n.value| < 10 ^ ((n.significant.length : ℤ) + n.scale) := by
  have hall : Digits n.significant := fun c hc => (hw.append hf) c ((List.dropWhile_sublist _).subset hc)
  have hmantissa : n.mantissa = natural 10 n.significant := by
    rw [mantissa, digitsValue_eq, significant, natural_dropWhile]
  have hten : (10 : ℚ) ≠ 0 := by norm_num
  rw [abs_value, hmantissa]
  cases hs : n.significant with
  | nil => exact absurd hs hne
  | cons c rest =>
    have hc : c ≠ '0' := by
      have hhead := List.head?_dropWhile_not (· == '0') (n.whole ++ n.fraction)
      rw [← significant, hs] at hhead
      simpa using hhead
    rw [hs] at hall
    obtain ⟨hlow, hhigh⟩ := natural_bounds hall hc
    have hlow' : (10 : ℚ) ^ rest.length ≤ natural 10 (c :: rest) := by exact_mod_cast hlow
    have hhigh' : (natural 10 (c :: rest) : ℚ) < 10 ^ (rest.length + 1) := by exact_mod_cast hhigh
    have hscale : (0 : ℚ) < 10 ^ n.scale := zpow_pos (by norm_num) _
    constructor
    · calc (10 : ℚ) ^ (((c :: rest).length : ℤ) + n.scale - 1) = 10 ^ rest.length * 10 ^ n.scale := by
            rw [← zpow_natCast, ← zpow_add₀ hten]
            congr 1
            simp
            ring
        _ ≤ natural 10 (c :: rest) * 10 ^ n.scale := mul_le_mul_of_nonneg_right hlow' hscale.le
    · calc (natural 10 (c :: rest) : ℚ) * 10 ^ n.scale < 10 ^ (rest.length + 1) * 10 ^ n.scale :=
            mul_lt_mul_of_pos_right hhigh' hscale
        _ = 10 ^ (((c :: rest).length : ℤ) + n.scale) := by
            rw [← zpow_natCast, ← zpow_add₀ hten]
            simp

theorem overflowLimit_bounds : (10 : ℚ) ^ (308 : ℤ) ≤ overflowLimit ∧ (overflowLimit : ℚ) ≤ 10 ^ (309 : ℤ) := by
  have hlow : 10 ^ 308 ≤ overflowLimit := by decide +kernel
  have hhigh : overflowLimit ≤ 10 ^ 309 := by decide +kernel
  constructor
  · exact_mod_cast hlow
  · exact_mod_cast hhigh

/-- **Counting digits is comparing numbers.** -/
theorem isFinite_iff (hw : Digits n.whole) (hf : Digits n.fraction) : n.isFinite = true ↔ |n.value| < overflowLimit := by
  obtain ⟨hlimit, hlimit'⟩ := overflowLimit_bounds
  have hten : (1 : ℚ) ≤ 10 := by norm_num
  simp only [isFinite, Bool.or_eq_true, Bool.and_eq_true, decide_eq_true_eq, List.isEmpty_iff, isBelow_iff, ← abs_value]
  by_cases hzero : n.significant = []
  · have hmantissa : n.mantissa = 0 := by
      rw [mantissa, digitsValue_eq, ← natural_dropWhile]
      exact congrArg (natural 10) hzero
    have hpos : (0 : ℚ) < overflowLimit := lt_of_lt_of_le (zpow_pos (by norm_num) _) hlimit
    have hvalue : |n.value| = 0 := by rw [abs_value, hmantissa, Nat.cast_zero, zero_mul]
    rw [hvalue]
    exact iff_of_true (.inl (.inl hzero)) hpos
  · obtain ⟨hlow, hhigh⟩ := bounds_of_significant hw hf hzero
    constructor
    · rintro ((h | hsize) | ⟨-, hbelow⟩)
      · exact absurd h hzero
      · exact lt_of_lt_of_le hhigh ((zpow_le_zpow_right₀ hten hsize).trans hlimit)
      · exact hbelow
    · intro hbelow
      by_cases hsize : (n.significant.length : ℤ) + n.scale ≤ 309
      · exact .inr ⟨hsize, hbelow⟩
      · have hgreat : (10 : ℚ) ^ (309 : ℤ) ≤ |n.value| := (zpow_le_zpow_right₀ hten (by omega)).trans hlow
        exact absurd hbelow (not_lt.2 (hlimit'.trans hgreat))

end Numeral

end BlockSketch.Decimal
