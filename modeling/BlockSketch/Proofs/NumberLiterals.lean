/-
Numbers in a sketch, as the sketch is read.

A number stands in the sketch as it stands in the field, and there it is a literal: digits alone are read in base ten
only if the first of them is not a zero, and behind a zero they are octal. `SignedLiteral` is that grammar, for texts of
digits, signs, points and exponents; the other literals of the language need other characters, which no number has.

A literal has a type, and one that is too great for every type it may have is refused. Which types there are depends on
the board, so the greatest values are a parameter (`LiteralLimits`). The value of a literal is the number that is written:
what a floating literal is rounded to afterwards is not considered.

Results:
- `natural_eight_eq`, `natural_eight_lt`: octal digits mean the same in base ten exactly below eight;
- `literal_of_denotes`, `literal_cases`: which numbers are literals of their value, and what the others are read as;
- `numbers_keep_value_iff`: the numbers and ports of a sketch keep their value, except integers from eight on that are
  written with a zero in front, and numbers beyond the limits.

Failing cases:
- `numbers_misread_or_refused`: 010 is checked as ten and read as eight, port 08 is not read as eight, and where integers
  have 64 bits and floating numbers 32, 99999999999999999999 and 1e39 are taken although they are no literals.
-/
import BlockSketch.Proofs.NumberField
import BlockSketch.Proofs.ReadBack

namespace BlockSketch.Decimal

/-! ## Literals -/

/-- The greatest values of the types that literals can have. Digits in base ten have a signed type and octal digits a
signed or an unsigned one; the widest of these types have 64 bits or more. -/
structure LiteralLimits where
  signed : Nat
  unsigned : Nat
  floating : ℚ
  signed_ge : 2 ^ 63 ≤ signed + 1
  signed_le : signed ≤ unsigned

/-- a literal without a sign, and the number it is written for -/
inductive Literal (limits : LiteralLimits) : List Char → ℚ → Prop where
  | decimal {c : Char} {ds : List Char} (h : Digits (c :: ds)) (hc : c ≠ '0')
    (hfits : natural 10 (c :: ds) ≤ limits.signed) : Literal limits (c :: ds) (natural 10 (c :: ds))
  | octal {ds : List Char} (h : Digits ds) (hds : ∀ c ∈ ds, digit c < 8) (hfits : natural 8 ds ≤ limits.unsigned) :
    Literal limits ('0' :: ds) (natural 8 ds)
  | floating {m p : List Char} {x : ℚ} {k : ℤ} (hm : Magnitude m x) (hp : Power p k) (hform : '.' ∈ m ∨ p ≠ [])
    (hfits : x * 10 ^ k ≤ limits.floating) : Literal limits (m ++ p) (x * 10 ^ k)

/-- a literal behind a sign or none -/
inductive SignedLiteral (limits : LiteralLimits) : List Char → ℚ → Prop where
  | mk (s : Sign) {cs : List Char} {x : ℚ} (h : Literal limits cs x) : SignedLiteral limits (s.chars ++ cs) (s.unit * x)

/-- the text is a literal, and there is no other number it can be read as -/
def LiteralOf (limits : LiteralLimits) (cs : List Char) (v : ℚ) : Prop :=
  SignedLiteral limits cs v ∧ ∀ w, SignedLiteral limits cs w → w = v

/-- the text is digits, the first of them a zero, behind a sign or none -/
def isZeroLed (cs : List Char) : Bool :=
  match (takeSign cs).2 with
  | '0' :: ds => ds.all Char.isDigit
  | _ => false

/-- the text is digits behind a sign or none -/
def isWhole (cs : List Char) : Bool := !(takeSign cs).2.isEmpty && (takeSign cs).2.all Char.isDigit

/-- a number is written so that it is read as what it is: octal digits do not matter, and its type can hold it -/
@[mk_iff]
structure ReadAsWritten (limits : LiteralLimits) (cs : List Char) (v : ℚ) : Prop where
  zeroLed : isZeroLed cs = true → |v| < 8
  whole : isWhole cs = true → |v| ≤ limits.signed
  floating : isWhole cs = false → |v| ≤ limits.floating

theorem LiteralLimits.eight_le (limits : LiteralLimits) : 8 ≤ limits.signed := by
  have h := limits.signed_ge
  omega

/-! ## Digits in base eight -/

variable {base : Nat} {ds : List Char}

theorem natural_concat (c : Char) : natural base (ds ++ [c]) = natural base ds * base + digit c := by
  rw [natural_append]
  simp [natural]

theorem natural_zero_cons : natural base ('0' :: ds) = natural base ds := by
  rw [natural_cons]
  simp [digit]

theorem natural_eight_le : natural 8 ds ≤ natural 10 ds := Nat.ofDigits_monotone _ (by decide)

/-- each digit counts at least for itself -/
theorem digit_le_natural {c : Char} (hc : c ∈ ds) : digit c ≤ natural 10 ds := by
  obtain ⟨front, back, rfl⟩ := List.append_of_mem hc
  have hcount : digit c ≤ digit c * 10 ^ back.length := Nat.le_mul_of_pos_right _ (Nat.pow_pos (by decide))
  rw [natural_append, natural_cons]
  omega

/-- below eight there is one digit that counts -/
theorem natural_eight_eq (h : natural 10 ds < 8) : natural 8 ds = natural 10 ds := by
  rcases List.eq_nil_or_concat ds with rfl | ⟨front, c, rfl⟩
  · rfl
  · have hle := @natural_eight_le front
    rw [List.concat_eq_append, natural_concat] at *
    rw [natural_concat]
    omega

/-- from eight on there is a digit that counts more in base ten -/
theorem natural_eight_lt (hds : ∀ c ∈ ds, digit c < 8) (h : 8 ≤ natural 10 ds) : natural 8 ds < natural 10 ds := by
  rcases List.eq_nil_or_concat ds with rfl | ⟨front, c, rfl⟩
  · cases h
  · have hle := @natural_eight_le front
    rw [List.concat_eq_append] at *
    have hc := hds c (List.mem_append_right _ List.mem_cons_self)
    rw [natural_concat] at *
    rw [natural_concat]
    omega

/-! ## Numbers as literals -/

variable {cs : List Char} {v w : ℚ}

theorem isZeroLed_iff : isZeroLed cs = true ↔ ∃ (s : Sign) (ds : List Char), cs = s.chars ++ '0' :: ds ∧ Digits ds := by
  constructor
  · intro h
    obtain ⟨s, hcs, -⟩ := exists_sign cs
    unfold isZeroLed at h
    split at h
    · rename_i ds hds
      exact ⟨s, ds, hds ▸ hcs, digits_iff_all.1 h⟩
    · cases h
  · rintro ⟨s, ds, rfl, hdigits⟩
    have hsign : NoSignFirst ('0' :: ds) := noSignFirst_of_digit rfl
    simp only [isZeroLed, takeSign_sign s hsign]
    exact digits_iff_all.2 hdigits

theorem digits_of_isZeroLed {s : Sign} {rest : List Char} (hsign : NoSignFirst rest)
    (h : isZeroLed (s.chars ++ rest) = true) : rest.head? = some '0' ∧ Digits rest := by
  unfold isZeroLed at h
  rw [takeSign_sign s hsign] at h
  simp only at h
  split at h
  · refine ⟨rfl, fun c hc => ?_⟩
    rcases List.mem_cons.1 hc with rfl | hc
    · rfl
    · exact digits_iff_all.1 h c hc
  · cases h

theorem isWhole_sign_iff {s : Sign} {rest : List Char} (hsign : NoSignFirst rest) :
    isWhole (s.chars ++ rest) = true ↔ rest ≠ [] ∧ Digits rest := by
  rw [isWhole, takeSign_sign s hsign, Bool.and_eq_true, digits_iff_all]
  simp

theorem isWhole_digits {s : Sign} {c : Char} (h : Digits (c :: ds)) : isWhole (s.chars ++ c :: ds) = true :=
  (isWhole_sign_iff (noSignFirst_of_digit h.of_cons.1)).2 ⟨List.cons_ne_nil _ _, h⟩

theorem denotes_digits (s : Sign) (h : Digits ds) (hne : ds ≠ []) : Denotes (s.chars ++ ds) (s.unit * natural 10 ds) := by
  simpa using Denotes.mk s (.whole h hne) .none

theorem denotes_natural {text : String} (h : text.toList.all Char.isDigit = true) (hne : text.toList ≠ []) :
    Denotes text.toList (natural 10 text.toList) := by
  simpa [Sign.chars, Sign.unit] using denotes_digits .none (digits_iff_all.1 h) hne

theorem Sign.abs_unit_mul_of_nonneg (s : Sign) {x : ℚ} (hx : 0 ≤ x) : |(s.unit : ℚ) * x| = x := by
  rw [abs_mul, s.abs_unit, one_mul, abs_of_nonneg hx]

theorem Sign.abs_unit_mul (s : Sign) (n : Nat) : |(s.unit : ℚ) * n| = n := s.abs_unit_mul_of_nonneg n.cast_nonneg

theorem Magnitude.scaled_nonneg {m : List Char} {x : ℚ} (h : Magnitude m x) (k : ℤ) : 0 ≤ x * 10 ^ k := by
  refine mul_nonneg ?_ (zpow_nonneg (by norm_num) k)
  cases h with
  | whole => exact Nat.cast_nonneg _
  | point => exact add_nonneg (Nat.cast_nonneg _) (div_nonneg (Nat.cast_nonneg _) (pow_nonneg (by norm_num) _))

/-- a point or an exponent is no digit -/
theorem not_digits_of_form {m p : List Char} {k : ℤ} (hp : Power p k) (hform : '.' ∈ m ∨ p ≠ []) : ¬ Digits (m ++ p) := by
  intro hall
  rcases hform with hpoint | hpower
  · cases hall '.' (List.mem_append_left _ hpoint)
  · cases hp with
    | none => exact absurd rfl hpower
    | @written mark hmark =>
      have hdigit := hall mark (List.mem_append_right _ List.mem_cons_self)
      rcases hmark with rfl | rfl
      · cases hdigit
      · cases hdigit

variable {limits : LiteralLimits}

/-- a number of digits alone is a literal of its value, if it is below eight or does not start with a zero -/
theorem literal_of_digits {s : Sign} (hdigits : Digits ds) (hne : ds ≠ [])
    (h : ReadAsWritten limits (s.chars ++ ds) (s.unit * natural 10 ds)) : Literal limits ds (natural 10 ds) := by
  cases ds with
  | nil => exact absurd rfl hne
  | cons c ds =>
    by_cases hc : c = '0'
    · -- behind a zero the digits are read in base eight, and mean the same there
      subst hc
      have hds := hdigits.of_cons.2
      have hlt := h.zeroLed (isZeroLed_iff.2 ⟨s, ds, rfl, hds⟩)
      rw [s.abs_unit_mul, natural_zero_cons] at hlt
      have hlt' : natural 10 ds < 8 := by exact_mod_cast hlt
      have hfits : natural 8 ds ≤ limits.unsigned := by
        calc natural 8 ds = natural 10 ds := natural_eight_eq hlt'
          _ ≤ 8 := hlt'.le
          _ ≤ limits.signed := limits.eight_le
          _ ≤ limits.unsigned := limits.signed_le
      rw [natural_zero_cons, ← natural_eight_eq hlt']
      exact .octal hds (fun d hd => lt_of_le_of_lt (digit_le_natural hd) hlt') hfits
    · have hfits := h.whole (isWhole_digits hdigits)
      rw [s.abs_unit_mul] at hfits
      exact .decimal hdigits hc (by exact_mod_cast hfits)

/-- a number that is read as written is a literal of its value -/
theorem literal_of_denotes (h : Denotes cs v) (hread : ReadAsWritten limits cs v) : SignedLiteral limits cs v := by
  obtain @⟨s, m, p, x, k, hm, hp⟩ := h
  refine .mk s ?_
  by_cases hform : '.' ∈ m ∨ p ≠ []
  · have hwhole : isWhole (s.chars ++ (m ++ p)) = false := by
      rw [← Bool.not_eq_true, isWhole_sign_iff (noSignFirst_of_magnitude hm _)]
      exact fun hdigits => not_digits_of_form hp hform hdigits.2
    have hfits := hread.floating hwhole
    rw [s.abs_unit_mul_of_nonneg (hm.scaled_nonneg k)] at hfits
    exact .floating hm hp hform hfits
  · obtain ⟨hpoint, hpower⟩ := not_or.1 hform
    cases hm with
    | point => exact absurd (List.mem_append_right _ List.mem_cons_self) hpoint
    | whole hdigits hne =>
      cases hp with
      | written => exact absurd (List.cons_ne_nil _ _) hpower
      | none =>
        simp only [List.append_nil, zpow_zero, mul_one] at hread ⊢
        exact literal_of_digits hdigits hne hread

/-- a number that is a literal is read as written, or it is an integer from eight on with a zero in front and is read as a
smaller one -/
theorem literal_cases (hv : Denotes cs v) (hw : SignedLiteral limits cs w) :
    (w = v ∧ ReadAsWritten limits cs v) ∨ (isZeroLed cs = true ∧ 8 ≤ |v| ∧ |w| < |v|) := by
  obtain ⟨s, hliteral⟩ := hw
  cases hliteral with
  | @decimal c ds hdigits hc hfits =>
    obtain rfl := (denotes_digits s hdigits (List.cons_ne_nil _ _)).unique hv
    refine .inl ⟨rfl, fun hzero => ?_, fun _ => ?_, fun hpart => ?_⟩
    · have hhead := (digits_of_isZeroLed (noSignFirst_of_digit hdigits.of_cons.1) hzero).1
      exact absurd (Option.some.inj hhead) hc
    · rw [s.abs_unit_mul]
      exact_mod_cast hfits
    · rw [isWhole_digits hdigits] at hpart
      cases hpart
  | @floating m p x k hm hp hform hfits =>
    obtain rfl := (Denotes.mk s hm hp).unique hv
    have hsign := noSignFirst_of_magnitude hm p
    have hnot := not_digits_of_form hp hform
    refine .inl ⟨rfl, fun hzero => ?_, fun hwhole => ?_, fun _ => ?_⟩
    · exact absurd (digits_of_isZeroLed hsign hzero).2 hnot
    · exact absurd ((isWhole_sign_iff hsign).1 hwhole).2 hnot
    · rw [s.abs_unit_mul_of_nonneg (hm.scaled_nonneg _)]
      exact hfits
  | @octal ds hdigits hds =>
    have hzero : Digits ('0' :: ds) := fun c hc => by
      rcases List.mem_cons.1 hc with rfl | hc
      · rfl
      · exact hdigits c hc
    obtain rfl := (denotes_digits s hzero (List.cons_ne_nil _ _)).unique hv
    rw [natural_zero_cons, s.abs_unit_mul, s.abs_unit_mul]
    by_cases hlt : natural 10 ds < 8
    · refine .inl ⟨by rw [natural_eight_eq hlt], fun _ => ?_, fun _ => ?_, fun hpart => ?_⟩
      · rw [s.abs_unit_mul]
        exact_mod_cast hlt
      · rw [s.abs_unit_mul]
        exact_mod_cast hlt.le.trans limits.eight_le
      · rw [isWhole_digits hzero] at hpart
        cases hpart
    · refine .inr ⟨isZeroLed_iff.2 ⟨s, ds, rfl, hdigits⟩, by exact_mod_cast not_lt.1 hlt, ?_⟩
      exact_mod_cast natural_eight_lt hds (not_lt.1 hlt)

/-- a number that is too great, and does not start with a zero, is no literal -/
theorem no_literal (hv : Denotes cs v) (hzero : isZeroLed cs = false) (hgreat : ¬ ReadAsWritten limits cs v) :
    ∀ w, ¬ SignedLiteral limits cs w := by
  intro w hw
  rcases literal_cases hv hw with ⟨-, hread⟩ | ⟨hled, -⟩
  · exact hgreat hread
  · rw [hzero] at hled
    cases hled

/-- **When a number is a literal of its value.** -/
theorem literalOf_iff (h : Denotes cs v) : LiteralOf limits cs v ↔ ReadAsWritten limits cs v := by
  constructor
  · rintro ⟨hliteral, -⟩
    rcases literal_cases h hliteral with ⟨-, hread⟩ | ⟨-, -, hlt⟩
    · exact hread
    · exact absurd hlt (lt_irrefl _)
  · intro hread
    refine ⟨literal_of_denotes h hread, fun w hw => ?_⟩
    rcases literal_cases h hw with ⟨heq, -⟩ | ⟨hzero, hgreat, -⟩
    · exact heq
    · exact absurd (hread.zeroLed hzero) (not_lt.2 hgreat)

end BlockSketch.Decimal

namespace BlockSketch

open Decimal

/-! ## Ports -/

theorem denotes_of_isPort {text : String} (h : Library.isPort text = true) :
    ∃ n : Nat, 1 ≤ n ∧ n ≤ 8 ∧ Denotes text.toList n ∧ isWhole text.toList = true := by
  have hport {ds : List Char} (hds : (!ds.isEmpty && ds.all Char.isDigit && 1 ≤ digitsValue ds && digitsValue ds ≤ 8) = true)
      (s : Sign) (hs : s.unit = 1) (htext : text.toList = s.chars ++ ds) :
      ∃ n : Nat, 1 ≤ n ∧ n ≤ 8 ∧ Denotes text.toList n ∧ isWhole text.toList = true := by
    simp only [Bool.and_eq_true, Bool.not_eq_true', List.isEmpty_eq_false_iff, decide_eq_true_eq, digitsValue_eq] at hds
    obtain ⟨⟨⟨hne, hall⟩, hlow⟩, hhigh⟩ := hds
    have hdigits := digits_iff_all.1 hall
    have hd := denotes_digits s hdigits hne
    rw [hs, Int.cast_one, one_mul, ← htext] at hd
    refine ⟨natural 10 ds, hlow, hhigh, hd, ?_⟩
    obtain ⟨c, rest, rfl⟩ := List.exists_cons_of_ne_nil hne
    rw [htext]
    exact isWhole_digits hdigits
  unfold Library.isPort at h
  simp only at h
  split at h
  · rename_i rest htext
    exact hport h .plus rfl htext
  · exact hport h .none rfl rfl

theorem port_literalOf_iff (limits : LiteralLimits) {text : String} (h : Library.isPort text = true) :
    ∃ n : Nat, 1 ≤ n ∧ n ≤ 8 ∧ Denotes text.toList n ∧
      (LiteralOf limits text.toList n ↔ ¬ (isZeroLed text.toList = true ∧ n = 8)) := by
  obtain ⟨n, hlow, hhigh, hd, hwhole⟩ := denotes_of_isPort h
  refine ⟨n, hlow, hhigh, hd, ?_⟩
  rw [literalOf_iff hd]
  constructor
  · rintro hread ⟨hzero, rfl⟩
    exact absurd (hread.zeroLed hzero) (by norm_num)
  · intro hport
    refine ⟨fun hzero => ?_, fun _ => ?_, fun hpart => ?_⟩
    · have hlt : n < 8 := lt_of_le_of_ne hhigh fun heq => hport ⟨hzero, heq⟩
      rw [Nat.abs_cast]
      exact_mod_cast hlt
    · rw [Nat.abs_cast]
      exact_mod_cast hhigh.trans limits.eight_le
    · rw [hwhole] at hpart
      cases hpart

/-! ## The blocks -/

/-- a generator that gives code has found nothing wrong with its block's field, and has put the code together from it -/
theorem ok_of_prepare {α : Type} {k : Kind} {b : Block} {slots : Slots} {p q : Pass} {f : List String → α} {a : α}
    (h : (do return f (← k.prepare b slots) : Gen α) p = .ok a q) : k.fault? b = none ∧ ∃ parts, a = f parts := by
  unfold Kind.prepare at h
  cases hfault : k.fault? b with
  | some fault =>
    rw [hfault] at h
    cases h
  | none =>
    rw [hfault] at h
    change EStateM.bind _ _ p = _ at h
    unfold EStateM.bind at h
    split at h
    · cases h
      exact ⟨rfl, _, rfl⟩
    · cases h

theorem field?_word {k : Kind} {b : Block} {rule : FieldRule} (hf : k.fault? b = none) (hr : k.fieldRule? = some rule) :
    Library.field? b rule.name = some (k.word b) := by
  simp only [Kind.fault?, hr] at hf
  cases hv : Library.field? b rule.name with
  | none => rw [hv] at hf; cases hf
  | some v => simp [Kind.word, hr, hv]

/-- **Numbers keep their value in the sketch, except integers from eight on with a zero in front and numbers that are too
great.** The text of a number, and the text of a port between the brackets of its call, is the text of the field. Read as a
signed literal it stands for the number that was checked, as it is written, and for no other, exactly if three things hold:
if it is digits alone with a zero first it is below eight, if it is digits alone the signed types can hold it, and if it has
a point or an exponent the floating type can. Otherwise it is no literal at all, or one of a smaller number. Among the ports
only eight is concerned, written with a zero in front. -/
theorem numbers_keep_value_iff (limits : LiteralLimits) (b : Block) (slots : Slots) (p q : Pass) (code : OrderedCode) :
    (Library.mathNumber b slots p = .ok code q →
      Library.field? b "NUM" = some code.text ∧
      ∃ v, Denotes code.text.toList v ∧ |v| < 2 ^ 1024 - 2 ^ 970 ∧
        (LiteralOf limits code.text.toList v ↔
          (isZeroLed code.text.toList = true → |v| < 8) ∧ (isWhole code.text.toList = true → |v| ≤ limits.signed) ∧
            (isWhole code.text.toList = false → |v| ≤ limits.floating)) ∧
        ∀ w, SignedLiteral limits code.text.toList w → w = v ∨ |w| < |v|) ∧
    (Library.sonar b slots p = .ok code q →
      ∃ port, Library.field? b "port" = some port ∧ code.text = "Rob.getSonarValue(" ++ port ++ ")" ∧
        ∃ n : Nat, 1 ≤ n ∧ n ≤ 8 ∧ Denotes port.toList n ∧
          (LiteralOf limits port.toList n ↔ ¬ (isZeroLed port.toList = true ∧ n = 8))) ∧
    (Library.touchSensor b slots p = .ok code q →
      ∃ port, Library.field? b "PORT" = some port ∧ code.text = "Rob.getTouchLedValue(" ++ port ++ ")" ∧
        ∃ n : Nat, 1 ≤ n ∧ n ≤ 8 ∧ Denotes port.toList n ∧
          (LiteralOf limits port.toList n ↔ ¬ (isZeroLed port.toList = true ∧ n = 8))) := by
  refine ⟨fun h => ?_, fun h => ?_, fun h => ?_⟩
  · rw [Kind.mathNumber_eq] at h
    obtain ⟨hfault, parts, rfl⟩ := ok_of_prepare h
    obtain ⟨v, hv, hbelow⟩ := (isNumber_iff _).1 (word_accepted hfault rfl)
    refine ⟨field?_word hfault rfl, v, hv, hbelow, (literalOf_iff hv).trans (readAsWritten_iff _ _ _), fun w hw => ?_⟩
    rcases literal_cases hv hw with ⟨heq, -⟩ | ⟨-, -, hlt⟩
    · exact .inl heq
    · exact .inr hlt
  · rw [Kind.sonar_eq] at h
    obtain ⟨hfault, parts, rfl⟩ := ok_of_prepare h
    exact ⟨_, field?_word hfault rfl, rfl, port_literalOf_iff limits (word_accepted hfault rfl)⟩
  · rw [Kind.touchSensor_eq] at h
    obtain ⟨hfault, parts, rfl⟩ := ok_of_prepare h
    exact ⟨_, field?_word hfault rfl, rfl, port_literalOf_iff limits (word_accepted hfault rfl)⟩

def sonarBlock (port : String) : Block := ⟨"s", "ulstra", [("port", port)], [], [], default⟩

/-- integers of 64 bits, and floating numbers of 32 -/
def narrowLimits : LiteralLimits where
  signed := 2 ^ 63 - 1
  unsigned := 2 ^ 64 - 1
  floating := (2 ^ 24 - 1) * 2 ^ 104
  signed_ge := by decide
  signed_le := by decide

/-- a zero in front of a point, and the greatest port behind a sign -/
theorem numbers_keep_value_iff_pointed :
    (∃ q, Library.mathNumber (numberBlock "-09.5") noSlots emptyPass = .ok ⟨"-09.5", .unaryPrefix⟩ q) ∧
    (∃ v, Denotes "-09.5".toList v ∧ LiteralOf narrowLimits "-09.5".toList v) ∧
    (∃ q, Library.sonar (sonarBlock " +8 ") noSlots emptyPass = .ok (.atomic "Rob.getSonarValue(+8)") q) ∧
    (∃ port, Library.field? (sonarBlock " +8 ") "port" = some port ∧ ∃ n : Nat, LiteralOf narrowLimits port.toList n) := by
  obtain ⟨q, hnumber⟩ := result?_eq_some (by decide +kernel :
    result? (Library.mathNumber (numberBlock "-09.5") noSlots emptyPass) = some ⟨"-09.5", .unaryPrefix⟩)
  obtain ⟨q', hsonar⟩ := result?_eq_some (by decide +kernel :
    result? (Library.sonar (sonarBlock " +8 ") noSlots emptyPass) = some (.atomic "Rob.getSonarValue(+8)"))
  obtain ⟨-, v, hv, -, hiff, -⟩ := (numbers_keep_value_iff narrowLimits _ _ _ q _).1 hnumber
  obtain ⟨port, hport, -, n, -, -, hn, hiff'⟩ := (numbers_keep_value_iff narrowLimits _ _ _ q' _).2.1 hsonar
  have hfield : Library.field? (sonarBlock " +8 ") "port" = some "+8" := by decide +kernel
  have hvalue : v = -(19 / 2) := by
    have hmagnitude := Magnitude.point (digits_iff_all.1 (rfl : ['0', '9'].all Char.isDigit = true))
      (digits_iff_all.1 (rfl : ['5'].all Char.isDigit = true)) (.inl (List.cons_ne_nil _ _))
    have hsame := Denotes.unique hv (Denotes.mk .minus hmagnitude .none)
    rw [(by decide : natural 10 ['0', '9'] = 9), (by decide : natural 10 ['5'] = 5)] at hsame
    rw [hsame]
    norm_num [Sign.unit]
  refine ⟨⟨q, hnumber⟩, ⟨v, hv, hiff.2 ⟨?_, ?_, ?_⟩⟩, ⟨q', hsonar⟩, port, hport, n, hiff'.2 ?_⟩
  · exact fun hzero => absurd hzero (by decide +kernel)
  · exact fun hwhole => absurd hwhole (by decide +kernel)
  · intro _
    rw [hvalue]
    norm_num [narrowLimits, abs_of_pos]
  · rw [hfield] at hport
    cases hport
    rintro ⟨hzero, -⟩
    exact absurd hzero (by decide +kernel)

/-- ten written with a zero in front is taken as ten and read as eight, port eight so written is not read as eight, and there
are numbers that are taken but are too great for a literal -/
theorem numbers_misread_or_refused :
    ((∃ q, Library.mathNumber (numberBlock "010") noSlots emptyPass = .ok ⟨"010", .atomic⟩ q) ∧
      Denotes "010".toList 10 ∧ SignedLiteral narrowLimits "010".toList 8 ∧ ¬ LiteralOf narrowLimits "010".toList 10) ∧
    ((∃ q, Library.sonar (sonarBlock "08") noSlots emptyPass = .ok (.atomic "Rob.getSonarValue(08)") q) ∧
      Denotes "08".toList 8 ∧ ¬ LiteralOf narrowLimits "08".toList 8) ∧
    ((∃ q, Library.mathNumber (numberBlock "99999999999999999999") noSlots emptyPass =
        .ok ⟨"99999999999999999999", .atomic⟩ q) ∧
      Denotes "99999999999999999999".toList 99999999999999999999 ∧
      ∀ w, ¬ SignedLiteral narrowLimits "99999999999999999999".toList w) ∧
    ((∃ q, Library.mathNumber (numberBlock "1e39") noSlots emptyPass = .ok ⟨"1e39", .atomic⟩ q) ∧
      Denotes "1e39".toList (10 ^ 39) ∧ ∀ w, ¬ SignedLiteral narrowLimits "1e39".toList w) := by
  have hten : Denotes "010".toList 10 := by
    have h := @denotes_natural "010" rfl (by decide)
    rwa [(by decide : natural 10 "010".toList = 10)] at h
  have height : Denotes "08".toList 8 := by
    have h := @denotes_natural "08" rfl (by decide)
    rwa [(by decide : natural 10 "08".toList = 8)] at h
  have hgreat : Denotes "99999999999999999999".toList 99999999999999999999 := by
    have h := @denotes_natural "99999999999999999999" rfl (by decide)
    rwa [(by decide +kernel : natural 10 "99999999999999999999".toList = 99999999999999999999)] at h
  have hpower : Denotes "1e39".toList (10 ^ 39) := by
    have h := Denotes.mk .none (.whole (digits_iff_all.1 (rfl : ['1'].all Char.isDigit = true)) (List.cons_ne_nil _ _))
      (.written (.inl rfl) .none (digits_iff_all.1 (rfl : ['3', '9'].all Char.isDigit = true)) (List.cons_ne_nil _ _))
    rw [(by decide : natural 10 ['1'] = 1), (by decide : natural 10 ['3', '9'] = 39)] at h
    norm_num [Sign.chars, Sign.unit] at h ⊢
    exact h
  refine ⟨⟨result?_eq_some (by decide +kernel), hten, ?_, ?_⟩, ⟨result?_eq_some (by decide +kernel), height, ?_⟩,
    ⟨result?_eq_some (by decide +kernel), hgreat, ?_⟩, result?_eq_some (by decide +kernel), hpower, ?_⟩
  · have hds : ∀ c ∈ ['1', '0'], digit c < 8 :=
      List.forall_mem_cons.2 ⟨by decide, List.forall_mem_singleton.2 (by decide)⟩
    have h : Literal narrowLimits ['0', '1', '0'] (natural 8 ['1', '0']) :=
      .octal (digits_iff_all.1 (rfl : ['1', '0'].all Char.isDigit = true)) hds (by decide)
    rw [(by decide : natural 8 ['1', '0'] = 8)] at h
    simpa [Sign.unit, Sign.chars] using SignedLiteral.mk .none h
  · rw [literalOf_iff hten]
    intro hread
    exact absurd (hread.zeroLed (by decide +kernel)) (by norm_num)
  · rw [literalOf_iff height]
    intro hread
    exact absurd (hread.zeroLed (by decide +kernel)) (by norm_num)
  · refine no_literal hgreat (by decide +kernel) fun hread => ?_
    have hfits := hread.whole (by decide +kernel)
    norm_num [narrowLimits] at hfits
  · refine no_literal hpower (by decide +kernel) fun hread => ?_
    have hfits := hread.floating (by decide +kernel)
    norm_num [narrowLimits] at hfits

end BlockSketch
