/-
Text of a binary floating-point number: the fewest decimal digits that read back as the same number, written
positionally, never with a power of ten.

The reals that round to `m * 2 ^ e` form an interval around it whose ends belong to it when `m` is even. For one digit,
two digits and so on, the two neighbours of the number on that decimal grid are tested; the first grid with a neighbour
inside wins, of two the nearer one, and of two equally near ones the upper.
-/
import BlockSketch.Decimal.Binary64

namespace BlockSketch.Decimal

/-- an interval around a positive number, all three over one denominator -/
structure Neighbourhood where
  low : Nat
  value : Nat
  high : Nat
  den : Nat
  closed : Bool

namespace Neighbourhood

/-- the reals that round to `mantissa * 2 ^ exponent`; below a power of two the grid is twice as fine -/
def of (mantissa : Nat) (exponent : Int) : Neighbourhood :=
  let below := if mantissa = twoPow 52 ∧ -1074 < exponent then 1 else 2
  let (unit, den) := match exponent - 2 with
    | .ofNat e => (twoPow e, 1)
    | .negSucc e => (1, twoPow (e + 1))
  ⟨(4 * mantissa - below) * unit, 4 * mantissa * unit, (4 * mantissa + 2) * unit, den, mantissa % 2 = 0⟩

/-- the decimal exponent `k` with `10 ^ (k - 1) ≤ value < 10 ^ k` -/
def magnitude (b : Neighbourhood) : Int :=
  if b.den ≤ b.value then ((Nat.toDigits 10 (b.value / b.den)).length : Int)
  else
    match (List.range 330).find? fun j => b.den ≤ b.value * tenPow (j + 1) with
    | some j => -(j : Int)
    | none => -330

/-- the interval measured in units of `10 ^ power` -/
def inUnits (b : Neighbourhood) : Int → Neighbourhood
  | .ofNat p => { b with den := b.den * tenPow p }
  | .negSucc p =>
    { b with low := b.low * tenPow (p + 1), value := b.value * tenPow (p + 1), high := b.high * tenPow (p + 1) }

/-- an integer number of units lies in the interval -/
def holds (b : Neighbourhood) (n : Nat) : Bool :=
  if b.closed then b.low ≤ n * b.den && n * b.den ≤ b.high else b.low < n * b.den && n * b.den < b.high

/-- the integer in the interval nearest to the value, if one of its two neighbours is inside -/
def integer? (b : Neighbourhood) : Option Nat :=
  let down := b.value / b.den
  match b.holds down && 0 < down, b.holds (down + 1) with
  | true, true => some (if 2 * b.value < (2 * down + 1) * b.den then down else down + 1)
  | true, false => some down
  | false, true => some (down + 1)
  | false, false => none

/-- digits and power of ten of the shortest decimal in the interval -/
def shortest (b : Neighbourhood) : Nat × Int :=
  let k := b.magnitude
  let grid (digits : Nat) : Option (Nat × Int) :=
    let power := k - digits
    (b.inUnits power).integer?.map fun n => (n, power)
  ((List.range 17).findSome? fun i => grid (i + 1)).getD (b.value / b.den, 0)

end Neighbourhood

/-- `digits * 10 ^ power` without zeros at the end of `digits`, as far as the power stays below zero -/
def dropTrailingZeros : Nat → Nat → Int → Nat × Int
  | 0, digits, power => (digits, power)
  | fuel + 1, digits, power =>
    if power < 0 ∧ digits % 10 = 0 then dropTrailingZeros fuel (digits / 10) (power + 1) else (digits, power)

/-- positional text of `digits * 10 ^ power` -/
def positional (digits : Nat) (power : Int) : String :=
  let (digits, power) := dropTrailingZeros 20 digits power
  let text := Nat.toDigits 10 digits
  match power with
  | .ofNat p => String.ofList (text ++ List.replicate p '0')
  | .negSucc p =>
    let places := p + 1
    if places < text.length then
      String.ofList (text.take (text.length - places) ++ '.' :: text.drop (text.length - places))
    else String.ofList ('0' :: '.' :: (List.replicate (places - text.length) '0' ++ text))

namespace Binary64

def magnitudeText (mantissa : Nat) (exponent : Int) : String :=
  if mantissa = 0 then "0"
  else
    let (digits, power) := (Neighbourhood.of mantissa exponent).shortest
    positional digits power

/-- the shortest positional text that reads back as the same number -/
def text : Binary64 → String
  | .finite negative mantissa exponent => (if negative then "-" else "") ++ magnitudeText mantissa exponent
  | .infinite negative => if negative then "-inf" else "inf"
  | .nan => "NaN"

/-- `text`, with `.0` after a finite number that shows no point -/
def textWithPoint (x : Binary64) : String :=
  match x with
  | .finite .. => if x.text.toList.contains '.' then x.text else x.text ++ ".0"
  | _ => x.text

end Binary64

end BlockSketch.Decimal
