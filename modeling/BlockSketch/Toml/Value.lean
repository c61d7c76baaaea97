/-
Documents of the configuration language TOML, as values.

Every value keeps the span of the text it was written as. A table that no header and no braces introduce (it exists only
through a dotted key or a longer header) has no span of its own; its key has one. Entries stand in document order.
-/
import BlockSketch.Decimal.Shortest
import BlockSketch.Text.Span

namespace BlockSketch.Toml

open BlockSketch.Decimal

/-- a key as it was written, quotes included in the span -/
structure Key where
  name : String
  span : Span
  deriving DecidableEq, Repr

structure Date where
  year : Nat
  month : Nat
  day : Nat
  deriving DecidableEq, Repr

structure Time where
  hour : Nat
  minute : Nat
  second : Nat
  nanosecond : Nat
  deriving DecidableEq, Repr

/-- distance from universal time -/
inductive Offset where
  | utc
  | minutes (n : Int)
  deriving DecidableEq, Repr

/-- a date, a time, or both, with an offset only beside both -/
structure DateTime where
  date : Option Date
  time : Option Time
  offset : Option Offset
  deriving DecidableEq, Repr

/-- a value with the place where it was written -/
inductive Value where
  | string (span : Span) (text : String)
  | integer (span : Span) (n : Int)
  | float (span : Span) (x : Binary64)
  | boolean (span : Span) (b : Bool)
  | dateTime (span : Span) (d : DateTime)
  | array (span : Span) (items : List Value)
  | table (span : Option Span) (entries : List (Key × Value))

/-- the text a value was written as, unless it is a table without a place of its own -/
def Value.span? : Value → Option Span
  | .string span _ | .integer span _ | .float span _ | .boolean span _ | .dateTime span _ | .array span _ => some span
  | .table span _ => span

/-! ## Text of dates and times -/

/-- a number in decimal, with zeros in front up to `width` digits -/
def padded (width n : Nat) : String :=
  let digits := Nat.toDigits 10 n
  String.ofList (List.replicate (width - digits.length) '0' ++ digits)

def Date.text (d : Date) : String := padded 4 d.year ++ "-" ++ padded 2 d.month ++ "-" ++ padded 2 d.day

/-- the fraction of a second without zeros at its end; nothing for a whole second -/
def Time.fractionText (t : Time) : String :=
  if t.nanosecond = 0 then ""
  else "." ++ String.ofList ((padded 9 t.nanosecond).toList.reverse.dropWhile (· == '0')).reverse

def Time.text (t : Time) : String :=
  padded 2 t.hour ++ ":" ++ padded 2 t.minute ++ ":" ++ padded 2 t.second ++ t.fractionText

/-- `Z`, or sign, hours and minutes -/
def Offset.text : Offset → String
  | .utc => "Z"
  | .minutes n =>
    (if n < 0 then "-" else "+") ++ padded 2 (n.natAbs / 60) ++ ":" ++ padded 2 (n.natAbs % 60)

/-- the parts that are there, `T` between a date and a time -/
def DateTime.text (d : DateTime) : String :=
  (d.date.elim "" Date.text) ++ (if d.date.isSome && d.time.isSome then "T" else "") ++ (d.time.elim "" Time.text) ++
    (d.offset.elim "" Offset.text)

end BlockSketch.Toml
