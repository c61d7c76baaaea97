/-
Reading a document into the types a program expects.

A shape is checked in document order, going into each value as it is met, and the first problem is the answer. A problem
carries the span of the value it is about; in a table without a place of its own, the span of that table's key.
-/
import BlockSketch.Text.Quoted
import BlockSketch.Toml.Document

namespace BlockSketch.Toml

open BlockSketch.Text

/-- how a value and what was expected of it do not fit -/
inductive Misfit where
  | unknownKey (name : String) (known : List String)
  | missingKey (name : String)
  | wrongType (found expected : String)
  | wrongValue (found expected : String)
  | tooShort (length : Nat) (expected : String)
  | noDateTime
  deriving DecidableEq, Repr

def backquoted (name : String) : String := "`" ++ name ++ "`"

def Misfit.message : Misfit → String
  | .unknownKey name known =>
    "unknown field " ++ backquoted name ++ ", expected one of " ++ ", ".intercalate (known.map backquoted)
  | .missingKey name => "missing field " ++ backquoted name
  | .wrongType found expected => "invalid type: " ++ found ++ ", expected " ++ expected
  | .wrongValue found expected => "invalid value: " ++ found ++ ", expected " ++ expected
  | .tooShort length expected => "invalid length " ++ toString length ++ ", expected " ++ expected
  | .noDateTime => "failed to parse datetime"

/-- a misfit and where it is -/
structure ShapeError where
  misfit : Misfit
  span : Option Span
  deriving DecidableEq, Repr

/-- the same error, placed at `span` if it had no place yet -/
def ShapeError.orAt (span : Option Span) (e : ShapeError) : ShapeError := { e with span := e.span <|> span }

/-- the outcome of reading a value -/
abbrev Shaped := Except ShapeError

/-- a value with the span it was read from -/
structure Located (α : Type) where
  span : Span
  val : α
  deriving DecidableEq, Repr

/-- a string as a shape error names it -/
def describeString (s : String) : String := "string " ++ quoted s

/-- what a value is, as a shape error names it; a date or time looks like a table from outside -/
def Value.describe : Value → String
  | .string _ s => describeString s
  | .integer _ n => "integer " ++ backquoted (toString n)
  | .float _ x => "floating point " ++ backquoted x.textWithPoint
  | .boolean _ b => "boolean " ++ backquoted (toString b)
  | .array _ _ => "sequence"
  | .table _ _ => "map"
  | .dateTime _ _ => "map"

/-- the key under which a date or time holds its text when it is looked at as a table -/
def dateTimeKey : String := "$__toml_private_datetime"

namespace Shaped

def mismatch {α : Type} (v : Value) (expected : String) : Shaped α :=
  .error ⟨.wrongType v.describe expected, v.span?⟩

/-- an error in the value of a key is placed at that value, or else at the key -/
def under {α : Type} (key : Key) (v : Value) (x : Shaped α) : Shaped α :=
  x.mapError fun e => e.orAt (v.span? <|> some key.span)

def text : Value → Shaped String
  | .string _ s => .ok s
  | v => mismatch v "a string"

def locatedText : Value → Shaped (Located String)
  | .string span s => .ok ⟨span, s⟩
  | .table none ((key, _) :: _) => .error ⟨.wrongType (describeString key.name) "a borrowed string", some key.span⟩
  | v => mismatch v "a string"

/-- a string that spells a date or time -/
def dateTimeText : Value → Shaped Unit
  | .string span s => if (DateTime.ofText? s).isSome then .ok () else .error ⟨.noDateTime, some span⟩
  | v => mismatch v "string containing a datetime"

mutual
/-- a value of any kind; a table whose first key is that of dates and times stands for one, and its other keys are not
looked at -/
def anything : Value → Shaped Unit
  | .array _ items => anythings items
  | .table _ entries => anyEntries true entries
  | _ => .ok ()

def anythings : List Value → Shaped Unit
  | [] => .ok ()
  | v :: rest => do
    anything v
    anythings rest

/-- the entries of a table of values of any kind; `mayStandFor` says that the next key can make it a date or time -/
def anyEntries (mayStandFor : Bool) : List (Key × Value) → Shaped Unit
  | [] => .ok ()
  | (key, v) :: rest =>
    if mayStandFor && key.name == dateTimeKey then under key v (dateTimeText v)
    else do
      under key v (anything v)
      anyEntries false rest
end

/-- a whole document of values of any kind -/
def anyDocument (entries : List (Key × Value)) : Shaped Unit := anyEntries false entries

/-- any value together with its span, which it must have -/
def located (v : Value) : Shaped (Located Value) :=
  match v.span?, v with
  | some span, v => (anything v).map fun _ => ⟨span, v⟩
  | none, .table _ ((key, _) :: _) =>
    .error ⟨.wrongType (describeString key.name) "a borrowed string", some key.span⟩
  | none, v => mismatch v "a spanned value"

def boolean : Value → Shaped Bool
  | .boolean _ b => .ok b
  | v => mismatch v "a boolean"

/-- an integer that is not negative -/
def natural : Value → Shaped Nat
  | .integer span n =>
    if n < 0 then .error ⟨.wrongValue (Value.integer span n).describe "usize", some span⟩ else .ok n.toNat
  | v => mismatch v "usize"

/-- a list, each item read by `item` -/
def list {α : Type} (item : Value → Shaped α) : Value → Shaped (List α)
  | .array _ items => items.mapM item
  | v => mismatch v "a sequence"

/-- a table read key by key in document order, `field` updating what has been read so far -/
def record {α : Type} (field : α → Key → Value → Shaped α) (start : α) (entries : List (Key × Value)) : Shaped α :=
  entries.foldlM (fun a entry => under entry.1 entry.2 (field a entry.1 entry.2)) start

/-- a key that has no meaning in its table -/
def unknown {α : Type} (key : Key) (known : List String) : Shaped α :=
  .error ⟨.unknownKey key.name known, some key.span⟩

end Shaped

end BlockSketch.Toml
