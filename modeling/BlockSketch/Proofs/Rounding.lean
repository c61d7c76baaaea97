/-
Rounding to 53 binary digits, and where it leaves the finite numbers.

`Binary64.nearest` scales a fraction by a power of two until its whole part has 53 binary digits, rounds that, and moves
the exponent once more if rounding carried into a 54th digit. The result is finite as long as the exponent stays at most
971. The carry is what makes the boundary lie half a unit below 2^1024: at 2^53 - 1/2 units the tie goes to the even
neighbour, which is the carry.

Results:
- `le_roundHalfEven_iff`: from where on rounding gives an even number or more;
- `scaled_lt`, `le_scaled`: the fraction lies in the range of 53 binary digits for the exponent chosen;
- `nearest_exponent_le_iff`: the exponent stays within the range exactly below the limit;
- `ofNumeral_isFinite`: a numeral is rounded to a finite number exactly if counting its digits says so.
-/
import BlockSketch.Decimal.Binary64
import BlockSketch.Proofs.Numerals

namespace BlockSketch.Decimal

/-! ## Rounding a fraction -/

/-- rounding goes down to the whole part or one up -/
theorem roundHalfEven_bounds (num den : Nat) :
    num / den ≤ roundHalfEven num den ∧ roundHalfEven num den ≤ num / den + 1 := by
  unfold roundHalfEven
  simp only
  split
  · omega
  · split
    · omega
    · split <;> omega

/-- rounding goes up from an odd whole part if at least half a unit is left over -/
theorem roundHalfEven_of_odd {num den : Nat} (hodd : (num / den) % 2 = 1) :
    roundHalfEven num den = if den ≤ 2 * (num % den) then num / den + 1 else num / den := by
  unfold roundHalfEven
  simp only [hodd]
  grind

/-- **Rounding reaches an even number from half a unit below it.** -/
theorem le_roundHalfEven_iff {num den k : Nat} (hden : 0 < den) (hk : 0 < k) (heven : k % 2 = 0) :
    k ≤ roundHalfEven num den ↔ (2 * k - 1) * den ≤ 2 * num := by
  obtain ⟨hlow, hhigh⟩ := roundHalfEven_bounds num den
  have hodd := @roundHalfEven_of_odd num den
  have hsplit := Nat.div_add_mod num den
  have hrest := Nat.mod_lt num hden
  generalize roundHalfEven num den = m at *
  generalize num / den = q at *
  generalize num % den = r at *
  have hnum : 2 * num = 2 * q * den + 2 * r := by rw [← hsplit]; ring
  rw [hnum]
  rcases Nat.lt_trichotomy k (q + 1) with h | h | h
  · -- below the whole part both hold
    have hle : (2 * k - 1) * den ≤ 2 * q * den := Nat.mul_le_mul_right den (by omega)
    omega
  · -- one above it, what is left over decides
    have hunit : (2 * k - 1) * den = 2 * q * den + den := by
      rw [h, show 2 * (q + 1) - 1 = 2 * q + 1 by omega]
      ring
    rw [hunit, hodd (by omega)]
    split <;> omega
  · have hge : (2 * q + 2) * den ≤ (2 * k - 1) * den := Nat.mul_le_mul_right den (by omega)
    have hunit : (2 * q + 2) * den = 2 * q * den + 2 * den := by ring
    omega

/-! ## Scaling -/

theorem cast_twoPow (e : Nat) : (twoPow e : ℚ) = 2 ^ e := Nat.cast_pow 2 e

theorem two_zpow_pos (e : ℤ) : (0 : ℚ) < 2 ^ e := zpow_pos (by norm_num) e

/-- dividing by a power of two keeps the fraction a fraction -/
theorem divPowTwo_eq {num den : Nat} (hden : 0 < den) (e : ℤ) :
    0 < (divPowTwo num den e).2 ∧
      ((divPowTwo num den e).1 : ℚ) / (divPowTwo num den e).2 = (num : ℚ) / den / 2 ^ e := by
  cases e with
  | ofNat e =>
    refine ⟨Nat.mul_pos hden (Nat.two_pow_pos e), ?_⟩
    have h : ((den * 2 ^ e : Nat) : ℚ) = den * 2 ^ (Int.ofNat e) := by simp
    show (num : ℚ) / ((den * 2 ^ e : Nat) : ℚ) = _
    rw [h, div_div]
  | negSucc e =>
    refine ⟨hden, ?_⟩
    have h : ((num * 2 ^ (e + 1) : Nat) : ℚ) = num * 2 ^ (e + 1) := by push_cast; ring
    show ((num * 2 ^ (e + 1) : Nat) : ℚ) / den = _
    rw [h, zpow_negSucc, div_inv_eq_mul, div_mul_eq_mul_div]

/-- the logarithms of numerator and denominator say how great a fraction is, up to a factor of two on either side -/
theorem fraction_bounds {num den : Nat} (hnum : 0 < num) (hden : 0 < den) :
    (2 : ℚ) ^ ((num.log2 : ℤ) - den.log2 - 1) ≤ (num : ℚ) / den ∧
      (num : ℚ) / den < 2 ^ ((num.log2 : ℤ) - den.log2 + 1) := by
  have hn : (2 : ℚ) ^ num.log2 ≤ num := by exact_mod_cast Nat.log2_self_le (Nat.ne_of_gt hnum)
  have hn' : (num : ℚ) < 2 ^ (num.log2 + 1) := by exact_mod_cast Nat.lt_log2_self
  have hd : (2 : ℚ) ^ den.log2 ≤ den := by exact_mod_cast Nat.log2_self_le (Nat.ne_of_gt hden)
  have hd' : (den : ℚ) < 2 ^ (den.log2 + 1) := by exact_mod_cast Nat.lt_log2_self
  have hpos : (0 : ℚ) < den := by exact_mod_cast hden
  constructor
  · rw [le_div_iff₀ hpos]
    calc (2 : ℚ) ^ ((num.log2 : ℤ) - den.log2 - 1) * den
        ≤ 2 ^ ((num.log2 : ℤ) - den.log2 - 1) * 2 ^ (den.log2 + 1) :=
          mul_le_mul_of_nonneg_left hd'.le (two_zpow_pos _).le
      _ = 2 ^ num.log2 := by
          rw [← zpow_natCast, ← zpow_add₀ (two_ne_zero' ℚ), ← zpow_natCast]
          congr 1
          push_cast
          ring
      _ ≤ num := hn
  · rw [div_lt_iff₀ hpos]
    calc (num : ℚ) < 2 ^ (num.log2 + 1) := hn'
      _ = 2 ^ ((num.log2 : ℤ) - den.log2 + 1) * 2 ^ den.log2 := by
          rw [← zpow_natCast, ← zpow_natCast, ← zpow_add₀ (two_ne_zero' ℚ)]
          congr 1
          push_cast
          ring
      _ ≤ 2 ^ ((num.log2 : ℤ) - den.log2 + 1) * den := mul_le_mul_of_nonneg_left hd (two_zpow_pos _).le

namespace Binary64

def guess (num den : Nat) : ℤ := max ((num.log2 : ℤ) - den.log2 - 53) (-1074)

/-- the exponent for which the whole part has 53 binary digits, before rounding -/
def scaling (num den : Nat) : ℤ :=
  if (divPowTwo num den (guess num den)).1 / (divPowTwo num den (guess num den)).2 < 2 ^ 53 then guess num den
  else guess num den + 1

theorem nearest_eq (num den : Nat) :
    nearest num den =
      if roundHalfEven (divPowTwo num den (scaling num den)).1 (divPowTwo num den (scaling num den)).2 = 2 ^ 53 then
        (2 ^ 52, scaling num den + 1)
      else (roundHalfEven (divPowTwo num den (scaling num den)).1 (divPowTwo num den (scaling num den)).2,
        scaling num den) := rfl

variable {num den : Nat}

theorem whole_lt_iff (hden : 0 < den) (e : ℤ) (k : Nat) :
    (divPowTwo num den e).1 / (divPowTwo num den e).2 < k ↔ (num : ℚ) / den < k * 2 ^ e := by
  obtain ⟨hpos, heq⟩ := @divPowTwo_eq num den hden e
  rw [← div_lt_iff₀ (two_zpow_pos e), ← heq, div_lt_iff₀ (by exact_mod_cast hpos), Nat.div_lt_iff_lt_mul hpos]
  exact_mod_cast Iff.rfl

/-- the scaled fraction has at most 53 binary digits -/
theorem scaled_lt (hnum : 0 < num) (hden : 0 < den) : (num : ℚ) / den < 2 ^ (53 + scaling num den) := by
  unfold scaling
  split
  · rename_i h
    have hlt := (whole_lt_iff hden _ _).1 h
    rw [zpow_add₀ (two_ne_zero' ℚ)]
    exact_mod_cast hlt
  · refine lt_of_lt_of_le (fraction_bounds hnum hden).2 (zpow_le_zpow_right₀ (by norm_num) ?_)
    have := le_max_left ((num.log2 : ℤ) - den.log2 - 53) (-1074)
    unfold guess
    omega

/-- from the smallest exponents on it has at least 53 of them -/
theorem le_scaled (hnum : 0 < num) (hden : 0 < den) (h : -1074 < scaling num den) :
    (2 : ℚ) ^ (52 + scaling num den) ≤ (num : ℚ) / den := by
  unfold scaling at h ⊢
  split
  · rename_i hwhole
    rw [if_pos hwhole] at h
    have hguess : guess num den = (num.log2 : ℤ) - den.log2 - 53 := by
      unfold guess at h ⊢
      omega
    refine le_trans (zpow_le_zpow_right₀ (by norm_num) ?_) (fraction_bounds hnum hden).1
    omega
  · rename_i hwhole
    have hge := not_lt.1 ((whole_lt_iff hden _ _).not.1 hwhole)
    rw [show 52 + (guess num den + 1) = 53 + guess num den by ring, zpow_add₀ (two_ne_zero' ℚ)]
    exact_mod_cast hge

/-- rounding carries exactly from half a unit below 2^53 on -/
theorem carries_iff (hnum : 0 < num) (hden : 0 < den) :
    roundHalfEven (divPowTwo num den (scaling num den)).1 (divPowTwo num den (scaling num den)).2 = 2 ^ 53 ↔
      (2 ^ 53 - 1 / 2) * 2 ^ scaling num den ≤ (num : ℚ) / den := by
  obtain ⟨hpos, heq⟩ := @divPowTwo_eq num den hden (scaling num den)
  have hlt := scaled_lt hnum hden
  rw [zpow_add₀ (two_ne_zero' ℚ)] at hlt
  have hwhole : (divPowTwo num den (scaling num den)).1 / (divPowTwo num den (scaling num den)).2 < 2 ^ 53 :=
    (whole_lt_iff hden _ _).2 (by exact_mod_cast hlt)
  have hle := (roundHalfEven_bounds (divPowTwo num den (scaling num den)).1 (divPowTwo num den (scaling num den)).2).2
  have hiff := @le_roundHalfEven_iff (divPowTwo num den (scaling num den)).1 (divPowTwo num den (scaling num den)).2
    (2 ^ 53) hpos (by decide) (by decide)
  rw [← le_div_iff₀ (two_zpow_pos _), ← heq, le_div_iff₀ (by exact_mod_cast hpos)]
  generalize divPowTwo num den (scaling num den) = f at *
  obtain ⟨n, d⟩ := f
  simp only at *
  have hreach : roundHalfEven n d = 2 ^ 53 ↔ 2 ^ 53 ≤ roundHalfEven n d := by omega
  have hcast : ((2 ^ 53 - 1 / 2) * (d : ℚ) ≤ n) ↔ ((2 * 2 ^ 53 - 1) * d ≤ 2 * n) := by
    constructor
    · intro h
      have h' : (((2 * 2 ^ 53 - 1) * d : Nat) : ℚ) ≤ ((2 * n : Nat) : ℚ) := by
        push_cast
        linarith
      exact_mod_cast h'
    · intro h
      have h' : (((2 * 2 ^ 53 - 1) * d : Nat) : ℚ) ≤ ((2 * n : Nat) : ℚ) := by exact_mod_cast h
      push_cast at h'
      linarith
  rw [hreach, hiff, hcast]

/-- the limit, in units of the last exponent -/
theorem overflowLimit_eq_units : (Numeral.overflowLimit : ℚ) = (2 ^ 53 - 1 / 2) * 2 ^ (971 : ℤ) := by
  have h : 2 * Numeral.overflowLimit + twoPow 971 = 2 ^ 54 * twoPow 971 := by decide +kernel
  have hunit : (twoPow 971 : ℚ) = 2 ^ (971 : ℤ) := (cast_twoPow 971).trans (zpow_natCast 2 971).symm
  have hcast : 2 * (Numeral.overflowLimit : ℚ) + twoPow 971 = 2 ^ 54 * twoPow 971 := by exact_mod_cast h
  rw [← hunit]
  linarith

/-- **The boundary of the finite numbers.** After rounding, the exponent is at most 971 exactly below the limit. -/
theorem nearest_exponent_le_iff (hnum : 0 < num) (hden : 0 < den) :
    (nearest num den).2 ≤ 971 ↔ (num : ℚ) / den < Numeral.overflowLimit := by
  have hlt := scaled_lt hnum hden
  have hcarry := carries_iff hnum hden
  have hpos := two_zpow_pos 971
  rw [overflowLimit_eq_units, nearest_eq]
  rcases lt_trichotomy (scaling num den) 971 with h | h | h
  · -- far below the limit, with or without a carry
    have hsmall : (num : ℚ) / den < (2 ^ 53 - 1 / 2) * 2 ^ (971 : ℤ) := by
      calc (num : ℚ) / den < 2 ^ (53 + scaling num den) := hlt
        _ ≤ 2 ^ ((52 : ℤ) + 971) := zpow_le_zpow_right₀ (by norm_num) (by omega)
        _ = 2 ^ (52 : ℤ) * 2 ^ (971 : ℤ) := zpow_add₀ (two_ne_zero' ℚ) _ _
        _ ≤ (2 ^ 53 - 1 / 2) * 2 ^ (971 : ℤ) := mul_le_mul_of_nonneg_right (by norm_num) hpos.le
    refine iff_of_true ?_ hsmall
    split <;> omega
  · -- at the last exponent the carry decides
    rw [h] at hcarry
    rw [← not_le, ← hcarry]
    split <;> simp_all
  · have hlarge : (2 ^ 53 - 1 / 2) * 2 ^ (971 : ℤ) ≤ (num : ℚ) / den := by
      calc (2 ^ 53 - 1 / 2) * (2 : ℚ) ^ (971 : ℤ) ≤ 2 ^ (53 : ℤ) * 2 ^ (971 : ℤ) :=
            mul_le_mul_of_nonneg_right (by norm_num) hpos.le
        _ = 2 ^ ((53 : ℤ) + 971) := (zpow_add₀ (two_ne_zero' ℚ) _ _).symm
        _ ≤ 2 ^ (52 + scaling num den) := zpow_le_zpow_right₀ (by norm_num) (by omega)
        _ ≤ (num : ℚ) / den := le_scaled hnum hden (by omega)
    refine iff_of_false ?_ (not_lt.2 hlarge)
    split <;> omega

def isFinite : Binary64 → Bool
  | .finite .. => true
  | _ => false

theorem ofFraction_isFinite (negative : Bool) (num : Nat) (hden : 0 < den) :
    (ofFraction negative num den).isFinite = true ↔ (num : ℚ) / den < Numeral.overflowLimit := by
  unfold ofFraction
  by_cases hzero : num = 0
  · have hpos : (0 : ℚ) < Numeral.overflowLimit := by
      exact_mod_cast (by decide +kernel : 0 < Numeral.overflowLimit)
    rw [if_pos hzero, hzero, Nat.cast_zero, zero_div]
    exact iff_of_true rfl hpos
  · rw [if_neg hzero, ← nearest_exponent_le_iff (Nat.pos_of_ne_zero hzero) hden]
    simp only
    split
    · rename_i hover
      exact iff_of_false (fun h => by cases h) (not_le.2 hover)
    · rename_i hin
      exact iff_of_true rfl (not_lt.1 hin)

/-- **Rounding and counting digits agree.** A numeral is rounded to a finite number exactly if its magnitude is below the
limit. -/
theorem ofNumeral_isFinite {n : Numeral} (hw : Digits n.whole) (hf : Digits n.fraction) :
    (ofNumeral n).isFinite = n.isFinite := by
  have hten (e : Nat) : 0 < tenPow e := Nat.pow_pos (by decide)
  rw [Bool.eq_iff_iff, Numeral.isFinite_iff hw hf]
  unfold ofNumeral
  simp only
  split
  · rename_i hsmall
    have hfinite : n.isFinite = true := by
      unfold Numeral.isFinite
      simp only [Bool.or_eq_true, decide_eq_true_eq] at hsmall ⊢
      rcases hsmall with hempty | hsize
      · exact .inl (.inl hempty)
      · exact .inl (.inr (by omega))
    exact iff_of_true rfl ((Numeral.isFinite_iff hw hf).1 hfinite)
  · rename_i hsmall
    simp only [Bool.or_eq_true, not_or, decide_eq_true_eq] at hsmall
    split
    · rename_i hsize
      refine iff_of_false (fun h => by cases h) fun hbelow => ?_
      have hfinite := (Numeral.isFinite_iff hw hf).2 hbelow
      unfold Numeral.isFinite at hfinite
      simp only [Bool.or_eq_true, Bool.and_eq_true, decide_eq_true_eq] at hfinite
      rcases hfinite with (h | h) | h
      · exact hsmall.1 h
      · omega
      · omega
    · rw [Numeral.abs_value]
      split
      · rename_i e hscale
        have heq : ((n.mantissa * tenPow e : Nat) : ℚ) / (1 : Nat) = n.mantissa * 10 ^ Int.ofNat e := by simp [tenPow]
        rw [ofFraction_isFinite _ _ Nat.one_pos, hscale, heq]
      · rename_i e hscale
        have heq : (n.mantissa : ℚ) / tenPow (e + 1) = n.mantissa * 10 ^ Int.negSucc e := by
          rw [zpow_negSucc, div_eq_mul_inv]
          simp [tenPow]
        rw [ofFraction_isFinite _ _ (hten _), hscale, heq]

end Binary64

end BlockSketch.Decimal
