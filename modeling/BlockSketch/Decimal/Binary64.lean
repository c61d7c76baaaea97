/-
Binary floating point with 53 binary digits.

A finite number is `mantissa * 2 ^ exponent` with `mantissa < 2 ^ 53` and `exponent ≥ -1074`. `ofNumeral` takes a decimal
numeral to the nearest such number, a tie to the even mantissa, in exact integer arithmetic.
-/
import BlockSketch.Decimal.Numeral

namespace BlockSketch.Decimal

/-- a binary floating-point number, an infinity, or no number at all -/
inductive Binary64 where
  | finite (negative : Bool) (mantissa : Nat) (exponent : Int)
  | infinite (negative : Bool)
  | nan
  deriving DecidableEq, Repr

/-- the integer nearest to `num / den`, a tie going to the even one -/
def roundHalfEven (num den : Nat) : Nat :=
  let quotient := num / den
  let rest := 2 * (num % den)
  if rest < den then quotient
  else if den < rest then quotient + 1
  else if quotient % 2 = 0 then quotient
  else quotient + 1

/-- `num / (den * 2 ^ e)` as a fraction of integers -/
def divPowTwo (num den : Nat) : Int → Nat × Nat
  | .ofNat e => (num, den * twoPow e)
  | .negSucc e => (num * twoPow (e + 1), den)

namespace Binary64

/-- mantissa and exponent nearest to the positive fraction `num / den`, the exponent unbounded above -/
def nearest (num den : Nat) : Nat × Int :=
  let guess : Int := max ((num.log2 : Int) - den.log2 - 53) (-1074)
  let (n₀, d₀) := divPowTwo num den guess
  let exponent := if n₀ / d₀ < twoPow 53 then guess else guess + 1
  let (n, d) := divPowTwo num den exponent
  let mantissa := roundHalfEven n d
  if mantissa = twoPow 53 then (twoPow 52, exponent + 1) else (mantissa, exponent)

/-- the number nearest to a signed fraction -/
def ofFraction (negative : Bool) (num den : Nat) : Binary64 :=
  if num = 0 then .finite negative 0 0
  else
    let (mantissa, exponent) := nearest num den
    if 971 < exponent then .infinite negative else .finite negative mantissa exponent

def ofNumeral (n : Numeral) : Binary64 :=
  let size : Int := n.significant.length + n.scale
  if n.significant.isEmpty || size < -330 then .finite n.negative 0 0
  else if 310 < size then .infinite n.negative
  else
    match n.scale with
    | .ofNat e => ofFraction n.negative (n.mantissa * tenPow e) 1
    | .negSucc e => ofFraction n.negative n.mantissa (tenPow (e + 1))

end Binary64

end BlockSketch.Decimal
