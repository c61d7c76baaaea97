/-
Decimal numerals.

A `Numeral` is an optional sign, digits with at most one point among them and at least one digit in all, and an optional
power of ten. `parse?` reads exactly that and nothing around it; the value denoted is `mantissa * 10 ^ scale`.
`isFinite` decides in exact arithmetic whether that value, rounded to 53 binary digits, stays below 2^1024.
-/
namespace BlockSketch.Decimal

def digitsValue (digits : List Char) : Nat := digits.foldl (fun n c => 10 * n + (c.toNat - 48)) 0

def twoPow (e : Nat) : Nat := Nat.pow 2 e

def tenPow (e : Nat) : Nat := Nat.pow 10 e

/-- the sign in front, if there is one, and what follows it -/
def takeSign : List Char → Bool × List Char
  | '-' :: rest => (true, rest)
  | '+' :: rest => (false, rest)
  | rest => (false, rest)

/-- digits before and after the point, and the written power of ten -/
structure Numeral where
  negative : Bool
  whole : List Char
  fraction : List Char
  exponent : Int
  deriving DecidableEq, Repr

namespace Numeral

/-- all digits as one integer -/
def mantissa (n : Numeral) : Nat := digitsValue (n.whole ++ n.fraction)

/-- the power of ten that belongs to `mantissa` -/
def scale (n : Numeral) : Int := n.exponent - n.fraction.length

/-- digits from the first one that is not zero -/
def significant (n : Numeral) : List Char := (n.whole ++ n.fraction).dropWhile (· == '0')

/-- a signed run of at least one digit, to the end -/
def readExponent? (cs : List Char) : Option Int :=
  let (negative, digits) := takeSign cs
  if digits.isEmpty || !digits.all Char.isDigit then none
  else some (if negative then -(digitsValue digits : Int) else digitsValue digits)

/-- what may follow the digits: nothing, or `e` and a power of ten -/
def readPower? : List Char → Option Int
  | [] => some 0
  | c :: rest => if c == 'e' || c == 'E' then readExponent? rest else none

/-- digits after a point, if a point comes next, and what follows them -/
def takeFraction : List Char → List Char × List Char
  | '.' :: rest => rest.span Char.isDigit
  | rest => ([], rest)

def parse? (cs : List Char) : Option Numeral :=
  let (negative, unsigned) := takeSign cs
  let (whole, afterWhole) := unsigned.span Char.isDigit
  let (fraction, rest) := takeFraction afterWhole
  if whole.isEmpty && fraction.isEmpty then none
  else (readPower? rest).map fun exponent => ⟨negative, whole, fraction, exponent⟩

/-- `mantissa * 10 ^ scale < limit`, in integers -/
def isBelow (mantissa : Nat) (scale : Int) (limit : Nat) : Bool :=
  match scale with
  | .ofNat e => mantissa * tenPow e < limit
  | .negSucc e => mantissa < limit * tenPow (e + 1)

/-- the least magnitude that rounds to 2^1024 -/
def overflowLimit : Nat := twoPow 1024 - twoPow 970

/-- the magnitude is below `overflowLimit`; far from it the number of digits decides without computing the power -/
def isFinite (n : Numeral) : Bool :=
  let size : Int := n.significant.length + n.scale
  n.significant.isEmpty || size ≤ 308 || (size ≤ 309 && isBelow n.mantissa n.scale overflowLimit)

end Numeral

end BlockSketch.Decimal
