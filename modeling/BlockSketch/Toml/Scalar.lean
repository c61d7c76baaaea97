/-
Scalars without quotes: integers, floating-point numbers, truth values, dates and times.

A scalar is read from one whole run of the characters that can occur in one, so the functions here take a finished word
and say what it is. Digits may be set apart by single underscores. A decimal integer has no leading zeros and fits in 64
bits with sign; a floating-point number is rounded to the nearest, and one that rounds up to plus infinity is refused.
-/
import BlockSketch.Toml.Literal
import BlockSketch.Toml.Value

namespace BlockSketch.Toml

open BlockSketch.Decimal

/-- a scalar that needs no quotes -/
inductive Scalar where
  | integer (n : Int)
  | float (x : Binary64)
  | boolean (b : Bool)
  | dateTime (d : DateTime)
  deriving DecidableEq, Repr

/-! ## Digits -/

/-- the digits of a word in which single underscores may stand between digits -/
def separatedDigits? (isDigit : Char → Bool) : List Char → Option (List Char)
  | [] => none
  | [c] => if isDigit c then some [c] else none
  | c :: '_' :: rest => if isDigit c then (separatedDigits? isDigit rest).map (c :: ·) else none
  | c :: rest => if isDigit c then (separatedDigits? isDigit rest).map (c :: ·) else none

/-- decimal digits without a leading zero, unless they are the single digit zero -/
def plainDigits? (cs : List Char) : Option (List Char) :=
  match separatedDigits? Char.isDigit cs with
  | some ['0'] => some ['0']
  | some ('0' :: _) => none
  | other => other

def baseValue (base : Nat) (digits : List Char) : Nat :=
  digits.foldl (fun n c => base * n + (Scan.hexValue? c).getD 0) 0

/-- an integer that fits in 64 bits with sign -/
def sized? (n : Int) : Option Int := if -(twoPow 63 : Int) ≤ n ∧ n < twoPow 63 then some n else none

def isBaseDigit (base : Nat) (c : Char) : Bool := (Scan.hexValue? c).any (· < base)

/-- an integer in decimal with an optional sign, or without a sign in base sixteen, eight or two -/
def integer? (word : List Char) : Option Int :=
  match word with
  | '0' :: 'x' :: digits => based 16 digits
  | '0' :: 'o' :: digits => based 8 digits
  | '0' :: 'b' :: digits => based 2 digits
  | _ => do
    let (negative, unsigned) := takeSign word
    let n := digitsValue (← plainDigits? unsigned)
    sized? (if negative then -(n : Int) else n)
where
  based (base : Nat) (digits : List Char) : Option Int := do
    sized? (baseValue base (← separatedDigits? (isBaseDigit base) digits))

/-! ## Floating-point numbers -/

/-- a power of ten after `e`; nothing at the end of the word -/
def power? : List Char → Option Int
  | [] => some 0
  | c :: rest =>
    if c == 'e' || c == 'E' then
      let (negative, digits) := takeSign rest
      (separatedDigits? Char.isDigit digits).map fun ds =>
        if negative then -(digitsValue ds : Int) else digitsValue ds
    else none

/-- a character that ends the digits before it -/
def endsDigits (c : Char) : Bool := c == '.' || c == 'e' || c == 'E'

/-- a number with a point, a power of ten, or both -/
def numeral? (word : List Char) : Option Numeral := do
  let (negative, unsigned) := takeSign word
  let (head, rest) := unsigned.span fun c => !endsDigits c
  let whole ← plainDigits? head
  match rest with
  | '.' :: rest =>
    let (tail, rest) := rest.span fun c => !endsDigits c
    let fraction ← separatedDigits? Char.isDigit tail
    return ⟨negative, whole, fraction, ← power? rest⟩
  | [] => none
  | rest => return ⟨negative, whole, [], ← power? rest⟩

/-- a floating-point number, an infinity or the value that is no number, each with an optional sign -/
def float? (word : List Char) : Option Binary64 :=
  let (negative, unsigned) := takeSign word
  if unsigned = ['i', 'n', 'f'] then some (.infinite negative)
  else if unsigned = ['n', 'a', 'n'] then some .nan
  else
    match (numeral? word).map Binary64.ofNumeral with
    | some (.infinite false) => none
    | other => other

/-! ## Dates and times -/

/-- exactly `n` digits and what follows them -/
def takeDigits? (n : Nat) (cs : List Char) : Option (Nat × List Char) :=
  let digits := cs.take n
  if digits.length = n ∧ digits.all Char.isDigit then some (digitsValue digits, cs.drop n) else none

/-- what follows the character `c` -/
def after? (c : Char) : List Char → Option (List Char)
  | [] => none
  | d :: rest => if c = d then some rest else none

def daysIn (year month : Nat) : Nat :=
  if month = 2 then if year % 4 = 0 ∧ (year % 100 ≠ 0 ∨ year % 400 = 0) then 29 else 28
  else if month = 4 ∨ month = 6 ∨ month = 9 ∨ month = 11 then 30
  else 31

def takeDate? (cs : List Char) : Option (Date × List Char) := do
  let (year, cs) ← takeDigits? 4 cs
  let (month, cs) ← takeDigits? 2 (← after? '-' cs)
  let (day, cs) ← takeDigits? 2 (← after? '-' cs)
  guard (1 ≤ month ∧ month ≤ 12 ∧ 1 ≤ day ∧ day ≤ daysIn year month)
  return (⟨year, month, day⟩, cs)

/-- a fraction of a second in nanoseconds, finer digits dropped, and what follows it -/
def takeFraction? (cs : List Char) : Option (Nat × List Char) :=
  match cs with
  | '.' :: rest =>
    let (digits, rest) := rest.span Char.isDigit
    if digits.isEmpty then none
    else
      let kept := digits.take 9
      some (digitsValue kept * tenPow (9 - kept.length), rest)
  | rest => some (0, rest)

/-- a time of day and what follows it; a minute may have a leap second -/
def takeTime? (cs : List Char) : Option (Time × List Char) := do
  let (hour, cs) ← takeDigits? 2 cs
  let (minute, cs) ← takeDigits? 2 (← after? ':' cs)
  let (second, cs) ← takeDigits? 2 (← after? ':' cs)
  guard (hour ≤ 23 ∧ minute ≤ 59 ∧ second ≤ 60)
  let (nanosecond, cs) ← takeFraction? cs
  return (⟨hour, minute, second, nanosecond⟩, cs)

/-- an offset that is the whole rest of a word, or none at its end -/
def offset? : List Char → Option (Option Offset)
  | [] => some none
  | ['Z'] | ['z'] => some (some .utc)
  | c :: cs => do
    guard (c == '+' || c == '-')
    let (hour, cs) ← takeDigits? 2 cs
    let (minute, cs) ← takeDigits? 2 (← after? ':' cs)
    guard (hour ≤ 23 ∧ minute ≤ 59 ∧ cs.isEmpty)
    let total : Int := hour * 60 + minute
    return some (.minutes (if c == '-' then -total else total))

/-- a time and its offset that follow a date and fill the word -/
def timeAfter? (date : Date) (cs : List Char) : Option DateTime := do
  let (time, rest) ← takeTime? cs
  return ⟨some date, some time, ← offset? rest⟩

/-- a date, a time, or both with `T` between them, that fill the word -/
def dateTime? (word : List Char) : Option DateTime :=
  match takeDate? word with
  | some (date, []) => some ⟨some date, none, none⟩
  | some (date, c :: rest) => if c == 'T' || c == 't' then timeAfter? date rest else none
  | none =>
    match takeTime? word with
    | some (time, []) => some ⟨none, some time, none⟩
    | _ => none

/-! ## Dates and times in strings -/

/-- a time of day in a string and what follows it; the hour may be 24 -/
def takeLooseTime? (cs : List Char) : Option (Time × List Char) := do
  let (hour, cs) ← takeDigits? 2 cs
  let (minute, cs) ← takeDigits? 2 (← after? ':' cs)
  let (second, cs) ← takeDigits? 2 (← after? ':' cs)
  let (nanosecond, cs) ← takeFraction? cs
  guard (hour ≤ 24 ∧ minute ≤ 59 ∧ second ≤ 60)
  return (⟨hour, minute, second, nanosecond⟩, cs)

/-- an offset that is the whole rest of a string, or none at its end; it may be a day at most -/
def looseOffset? : List Char → Option (Option Offset)
  | [] => some none
  | ['Z'] | ['z'] => some (some .utc)
  | c :: cs => do
    guard (c == '+' || c == '-')
    let (hour, cs) ← takeDigits? 2 cs
    let (minute, cs) ← takeDigits? 2 (← after? ':' cs)
    let total : Int := hour * 60 + minute
    guard (total ≤ 24 * 60 ∧ cs.isEmpty)
    return some (.minutes (if c == '-' then -total else total))

/-- a date or time that fills a string. More is taken than in a document: a blank before the time, hour 24, and offsets
whose minutes make more than an hour. -/
def DateTime.ofText? (s : String) : Option DateTime :=
  match takeDate? s.toList with
  | some (date, []) => some ⟨some date, none, none⟩
  | some (date, c :: rest) => do
    guard (c == 'T' || c == 't' || c == ' ')
    let (time, rest) ← takeLooseTime? rest
    return ⟨some date, some time, ← looseOffset? rest⟩
  | none =>
    match takeLooseTime? s.toList with
    | some (time, []) => some ⟨none, some time, none⟩
    | _ => none

/-! ## Words -/

def Scalar.ofWord? (word : List Char) : Option Scalar :=
  if word = ['t', 'r', 'u', 'e'] then some (.boolean true)
  else if word = ['f', 'a', 'l', 's', 'e'] then some (.boolean false)
  else
    match dateTime? word with
    | some d => some (.dateTime d)
    | none =>
      match float? word with
      | some x => some (.float x)
      | none => (integer? word).map .integer

/-- a character that can occur in a scalar without quotes -/
def isWordChar (c : Char) : Bool := c.isAlphanum || c == '+' || c == '-' || c == '.' || c == '_' || c == ':'

/-- a scalar without quotes; a date may be followed by one space and a time -/
def Scan.scalar : Scan Scalar := do
  let word ← run isWordChar
  let scalar ← Scalar.ofWord? word
  match scalar, (← get).rest with
  | .dateTime ⟨some date, none, none⟩, ' ' :: c :: _ =>
    if c.isDigit then
      skip 1
      return .dateTime (← timeAfter? date (← run isWordChar))
    else return scalar
  | scalar, _ => return scalar

end BlockSketch.Toml
