/-
Golden tests: a header between fences that says what to expect, then a program.

The header may give a description, a board, and expectations: the program is rejected, generation fails with a message
that mentions a text, the sketch is a given one up to blanks at its ends, or the sketch contains given texts.
-/
import BlockSketch.Block.Program
import BlockSketch.Board.Settings
import BlockSketch.Library.Builtin
import BlockSketch.Text.Pieces

namespace BlockSketch

open BlockSketch.Toml

/-- the name of the board for a program: the one asked for, else the program's own, else the default -/
def Settings.boardNameFor (s : Settings) (asked : Option String) (program : Program) : String :=
  asked.getD (program.board.getD s.defaultBoard)

/-- what the header of a test expects -/
structure Expectations where
  description : Option String := none
  board : Option String := none
  output : Option String := none
  error : Option String := none
  parseError : Bool := false
  contains : List String := []
  deriving DecidableEq, Repr

namespace Expectations

def keys : List String :=
  ["description", "board", "expect_output", "expect_error", "expect_parse_error", "expect_contains"]

def ofEntries (entries : List (Key × Value)) : Shaped Expectations :=
  Shaped.record (fun (e : Expectations) key v =>
    match key.name with
    | "description" => do return { e with description := some (← Shaped.text v) }
    | "board" => do return { e with board := some (← Shaped.text v) }
    | "expect_output" => do return { e with output := some (← Shaped.text v) }
    | "expect_error" => do return { e with error := some (← Shaped.text v) }
    | "expect_parse_error" => do return { e with parseError := ← Shaped.boolean v }
    | "expect_contains" => do return { e with contains := ← Shaped.list Shaped.text v }
    | _ => Shaped.unknown key keys) {} entries

end Expectations

/-- why a test does not pass -/
inductive Complaint where
  | unfenced
  | unclosed
  | headerNotDocument
  | headerMisshapen (e : ShapeError)
  | parsed
  | rejected (r : Rejection)
  | unknownBoard (name : String)
  | wrongError (wanted found : String)
  | failed (found : String)
  | generated (wanted : String)
  | differs (wanted found : String)
  | lacks (wanted found : String)

/-- the line that opens and closes a header -/
def fence : String := "---"

/-- a text between double quotes, as it is -/
def doubleQuoted (s : String) : String := "\"" ++ s ++ "\""

def Complaint.message : Complaint → String
  | .unfenced => "file must start with a " ++ singleQuoted fence ++ " line"
  | .unclosed => "header is not closed by a " ++ singleQuoted fence ++ " line"
  | .headerNotDocument => "invalid header: not a TOML document"
  | .headerMisshapen e => "invalid header: " ++ e.misfit.message
  | .parsed => "expected the program to be rejected, but it parsed"
  | .rejected r => "program failed to parse: " ++ "; ".intercalate (r.diagnostics.map (·.message))
  | .unknownBoard name => "unknown board " ++ singleQuoted name
  | .wrongError wanted found => "error should mention " ++ doubleQuoted wanted ++ " but was: " ++ found
  | .failed found => "generation failed: " ++ found
  | .generated wanted => "expected an error mentioning " ++ doubleQuoted wanted ++ ", but generation succeeded"
  | .differs wanted found =>
    "sketch differs\n  expected:\n" ++ Text.trim wanted ++ "\n  actual:\n" ++ Text.trim found
  | .lacks wanted found => "sketch lacks " ++ doubleQuoted wanted ++ "\n  actual:\n" ++ Text.trim found

/-- a test: what to expect of which program -/
structure Golden where
  expect : Expectations
  program : String
  deriving DecidableEq, Repr

namespace Golden

/-- a line, with its ending, that is a fence -/
def isFence (line : List Char) : Bool := Text.dropBlankEnd line == fence.toList

/-- a text without a byte order mark at its start -/
def withoutMark : List Char → List Char
  | '\ufeff' :: rest => rest
  | cs => cs

/-- the header and the program of a test -/
def split (content : String) : Except Complaint (String × String) :=
  match Text.inclusiveLines (withoutMark content.toList) with
  | [] => .error .unfenced
  | first :: lines =>
    if isFence first then
      match lines.dropWhile (!isFence ·) with
      | [] => .error .unclosed
      | _ :: program => .ok (String.ofList (lines.takeWhile (!isFence ·)).flatten, String.ofList program.flatten)
    else .error .unfenced

def parse (content : String) : Except Complaint Golden := do
  let (header, program) ← split content
  let some entries := Toml.parse? header | .error .headerNotDocument
  let expect ← (Expectations.ofEntries entries).mapError .headerMisshapen
  return ⟨expect, program⟩

end Golden

namespace Expectations

/-- a sketch against what is expected of it -/
def judgeSketch (e : Expectations) (sketch : String) : Except Complaint Unit := do
  if let some wanted := e.output then
    if Text.trim sketch != Text.trim wanted then .error (.differs wanted sketch)
  match e.contains.find? fun part => !Text.contains sketch part with
  | some part => .error (.lacks part sketch)
  | none => .ok ()

/-- the outcome of generation against what is expected of it -/
def judge (e : Expectations) (outcome : Except Failure String) : Except Complaint Unit :=
  match outcome, e.error with
  | .error found, some wanted =>
    if Text.contains found.fault.message wanted then .ok () else .error (.wrongError wanted found.fault.message)
  | .error found, none => .error (.failed found.fault.message)
  | .ok _, some wanted => .error (.generated wanted)
  | .ok sketch, none => e.judgeSketch sketch

end Expectations

/-- run a test; the notes are those of generation -/
def Golden.check (t : Golden) (settings : Settings) : Except Complaint Unit × List Event :=
  match Program.parse t.program 0, t.expect.parseError with
  | .error _, true => (.ok (), [])
  | .ok _, true => (.error .parsed, [])
  | .error r, false => (.error (.rejected r), [])
  | .ok program, false =>
    let name := settings.boardNameFor t.expect.board program
    match settings.findBoard? name with
    | none => (.error (.unknownBoard name), [])
    | some board =>
      let (outcome, events) := program.generate board Table.builtin settings.indent
      (t.expect.judge outcome, events)

end BlockSketch
