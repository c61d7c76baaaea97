/-
Which numbers a block may hold.

The field `NUM` is read without the blanks around it. `FiniteDecimal` says what it has to be: a decimal number by the
grammar whose magnitude is below 2^1024 - 2^970, which is the same as being rounded to a finite number of 53 binary
digits. Everything else is refused with the field and the text that was found in it.

Results:
- `isNumber_iff`, `isNumber_iff_rounds`: the check is the comparison of the number written, and agrees with rounding it;
- `mathNumber_run`: what the block gives, for every text;
- `numbers_are_finite_decimals`: the texts that are taken, what becomes of them, and which texts are never taken.
-/
import BlockSketch.Board.Builtin
import BlockSketch.Library.Math
import BlockSketch.Proofs.Rounding

namespace BlockSketch

open Decimal Library

/-- the text is a decimal number, and a finite one -/
def FiniteDecimal (text : String) : Prop := ∃ v, Denotes text.toList v ∧ |v| < 2 ^ 1024 - 2 ^ 970

/-! ## The check -/

theorem overflowLimit_eq : (Numeral.overflowLimit : ℚ) = 2 ^ 1024 - 2 ^ 970 := by
  have hle : twoPow 970 ≤ twoPow 1024 := by decide +kernel
  rw [Numeral.overflowLimit, Nat.cast_sub hle, cast_twoPow, cast_twoPow]

theorem isNumber_iff (text : String) : isNumber text = true ↔ FiniteDecimal text := by
  simp only [isNumber, Option.any_eq_true, FiniteDecimal, ← overflowLimit_eq]
  constructor
  · rintro ⟨n, hn, hfinite⟩
    obtain ⟨hd, hw, hf⟩ := Numeral.denotes_of_parse? hn
    exact ⟨n.value, hd, (Numeral.isFinite_iff hw hf).1 hfinite⟩
  · rintro ⟨v, hd, hbelow⟩
    obtain ⟨n, hn, rfl⟩ := denotes_iff_parse?.1 hd
    obtain ⟨-, hw, hf⟩ := Numeral.denotes_of_parse? hn
    exact ⟨n, hn, (Numeral.isFinite_iff hw hf).2 hbelow⟩

/-- the check agrees with rounding the number and looking at the result -/
theorem isNumber_iff_rounds (text : String) :
    isNumber text = true ↔ ∃ n, Numeral.parse? text.toList = some n ∧ (Binary64.ofNumeral n).isFinite = true := by
  rw [isNumber, Option.any_eq_true]
  refine exists_congr fun n => and_congr_right fun hn => ?_
  obtain ⟨-, hw, hf⟩ := Numeral.denotes_of_parse? hn
  rw [Binary64.ofNumeral_isFinite hw hf]

/-- no words and no lone marks -/
theorem not_finiteDecimal_of_no_digit {text : String} (h : ∀ c ∈ text.toList, c.isDigit = false) :
    ¬ FiniteDecimal text := by
  rintro ⟨v, hd, -⟩
  obtain ⟨c, hc, hdigit⟩ := (chars_of_denotes hd).2
  rw [h c hc] at hdigit
  cases hdigit

/-- no separators between digits -/
theorem not_finiteDecimal_of_other {text : String} {c : Char} (hc : c ∈ text.toList) (hdigit : c.isDigit = false)
    (hmark : c ∉ marks) : ¬ FiniteDecimal text := by
  rintro ⟨v, hd, -⟩
  rcases (chars_of_denotes hd).1 c hc with h | h
  · rw [hdigit] at h
    cases h
  · exact hmark h

/-! ## The block -/

variable {b : Block} {slots : Slots} {p : Pass}

theorem field?_trim {name raw : String} (hraw : b.field? name = some raw) (hne : Text.trim raw ≠ "") :
    Library.field? b name = some (Text.trim raw) := by
  simp [Library.field?, hraw, hne]

def numberCode (text : String) : OrderedCode :=
  ⟨text, if text.toList.head? == some '-' then .unaryPrefix else .atomic⟩

theorem mathNumber_run {text : String} (hfield : Library.field? b "NUM" = some text) :
    mathNumber b slots p =
      if isNumber text then .ok (numberCode text) p
      else .error { fault := .invalidField b.kind "NUM" text } p := by
  unfold mathNumber field
  rw [hfield]
  simp only [pure_bind]
  cases isNumber text
  · rfl
  · rfl

/-- **Exactly the finite decimal numbers are taken.** A block with a text in the field `NUM` gives code if and only if the
text, without the blanks around it, is a decimal number of a magnitude below 2^1024 - 2^970. The code is then that text,
and otherwise the field is reported with it; the pass stays as it was. The bound is where rounding to 53 binary digits
leaves the finite numbers. In particular no text without a digit is taken, such as a word for infinity, a point or a
sign alone, and none with a character that is neither a digit nor one of `+ - . e E`, such as a separator. -/
theorem numbers_are_finite_decimals (b : Block) (raw : String) (hraw : b.field? "NUM" = some raw)
    (hne : Text.trim raw ≠ "") (slots : Slots) (p : Pass) :
    ((∃ code q, mathNumber b slots p = .ok code q) ↔ FiniteDecimal (Text.trim raw)) ∧
    (FiniteDecimal (Text.trim raw) →
      ∃ code, mathNumber b slots p = .ok code p ∧ code.text = Text.trim raw) ∧
    (¬ FiniteDecimal (Text.trim raw) →
      mathNumber b slots p = .error { fault := .invalidField b.kind "NUM" (Text.trim raw) } p) ∧
    (FiniteDecimal (Text.trim raw) ↔
      ∃ n, Numeral.parse? (Text.trim raw).toList = some n ∧ (Binary64.ofNumeral n).isFinite = true) ∧
    ((∀ c ∈ (Text.trim raw).toList, c.isDigit = false) → ¬ FiniteDecimal (Text.trim raw)) ∧
    ((∃ c ∈ (Text.trim raw).toList, c.isDigit = false ∧ c ∉ marks) → ¬ FiniteDecimal (Text.trim raw)) := by
  have heq := @mathNumber_run b slots p _ (field?_trim hraw hne)
  have hok (h : FiniteDecimal (Text.trim raw)) : mathNumber b slots p = .ok (numberCode (Text.trim raw)) p := by
    rw [heq, if_pos ((isNumber_iff _).2 h)]
  have hrefused (h : ¬ FiniteDecimal (Text.trim raw)) :
      mathNumber b slots p = .error { fault := .invalidField b.kind "NUM" (Text.trim raw) } p := by
    rw [heq, if_neg (fun hnumber => h ((isNumber_iff _).1 hnumber))]
  refine ⟨⟨?_, fun h => ⟨_, p, hok h⟩⟩, fun h => ⟨_, hok h, rfl⟩, hrefused, ?_, not_finiteDecimal_of_no_digit, ?_⟩
  · rintro ⟨code, q, hrun⟩
    by_contra h
    rw [hrefused h] at hrun
    cases hrun
  · rw [← isNumber_iff, isNumber_iff_rounds]
  · rintro ⟨c, hc, hdigit, hmark⟩
    exact not_finiteDecimal_of_other hc hdigit hmark

def numberBlock (num : String) : Block := ⟨"n", "math_number", [("NUM", num)], [], [], default⟩

theorem numberBlock_field? (num : String) : (numberBlock num).field? "NUM" = some num := rfl

def noSlots : Slots := ⟨fun _ => none, fun _ => return ""⟩

def emptyPass : Pass := { board := Board.uno, indent := 2 }

/-- a number just below the limit, with blanks of two kinds around it -/
def greatNumber : String := "\u2003-1.7976931348623158e308 \n"

def tooGreatNumber : String := "+.17976931348623159E+309"

/-- two numbers with the limit between them -/
theorem numbers_are_finite_decimals_limit :
    (Text.trim greatNumber ≠ "" ∧
      ∃ code, mathNumber (numberBlock greatNumber) noSlots emptyPass = .ok code emptyPass ∧
        code.text = Text.trim greatNumber) ∧
    (Text.trim tooGreatNumber ≠ "" ∧
      mathNumber (numberBlock tooGreatNumber) noSlots emptyPass =
        .error { fault := .invalidField (numberBlock tooGreatNumber).kind "NUM" (Text.trim tooGreatNumber) } emptyPass) := by
  have hgreat : Text.trim greatNumber ≠ "" := by decide +kernel
  have hfinite : isNumber (Text.trim greatNumber) = true := by decide +kernel
  have htooGreat : Text.trim tooGreatNumber ≠ "" := by decide +kernel
  have hinfinite : isNumber (Text.trim tooGreatNumber) = false := by decide +kernel
  refine ⟨⟨hgreat, ?_⟩, htooGreat, ?_⟩
  · have h := numbers_are_finite_decimals (numberBlock greatNumber) greatNumber (numberBlock_field? _) hgreat
      noSlots emptyPass
    exact h.2.1 ((isNumber_iff _).1 hfinite)
  · have h := numbers_are_finite_decimals (numberBlock tooGreatNumber) tooGreatNumber (numberBlock_field? _) htooGreat
      noSlots emptyPass
    refine h.2.2.1 fun hdecimal => ?_
    rw [(isNumber_iff _).2 hdecimal] at hinfinite
    cases hinfinite

end BlockSketch
