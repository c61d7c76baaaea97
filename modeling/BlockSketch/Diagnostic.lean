/-
Diagnostics: a message about a place in a source, possibly with a second place and notes.
-/
import BlockSketch.Text.Lines
import BlockSketch.Text.Span

namespace BlockSketch

/-- a message about a place in a source text -/
structure Diagnostic where
  message : String
  span : Span
  /-- another place that belongs to the matter, and what it has to do with it -/
  related : Option (Span × String) := none
  notes : List String := []
  deriving DecidableEq, Repr

namespace Diagnostic

def lastLine (d : Diagnostic) (source : String) : Nat :=
  let line (span : Span) : Nat := (Text.placeOf source span.stop).1
  max (line d.span) (d.related.elim 0 fun r => line r.1)

/-- blanks as wide as the number of the last line, and one more -/
def margin (d : Diagnostic) (source : String) : String :=
  String.ofList (List.replicate ((Nat.toDigits 10 (d.lastLine source)).length + 1) ' ')

/-- the lines of a note, those after the first one under its text -/
def noteLines (margin note : String) : List String :=
  match Text.lines note with
  | [] => []
  | first :: rest => (margin ++ "= " ++ first) :: rest.map (margin ++ "  " ++ ·)

/-- the lines of a diagnostic: heading, place of the message, notes -/
def render (d : Diagnostic) (file source : String) : List String :=
  let (line, column) := Text.placeOf source d.span.start
  let margin := d.margin source
  ["error: " ++ d.message, margin ++ "┌─ " ++ file ++ ":" ++ toString line ++ ":" ++ toString column] ++
    d.notes.flatMap (noteLines margin)

end Diagnostic

end BlockSketch
