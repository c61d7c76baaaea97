/-
What the command line program says: lines for the reader, and notes of which only those that are important enough are
shown.
-/
import BlockSketch.Sketch.Journal
import BlockSketch.Text.Ascii
import BlockSketch.Text.Pieces

namespace BlockSketch

/-- something said while the program runs -/
inductive Message where
  | line (text : String)
  | event (e : Event)
  deriving DecidableEq, Repr

/-- the least important notes that are shown; nothing is shown if there is no such level -/
abbrev LogFilter := Option Level

namespace LogFilter

/-- the filter that the name or number of a level asks for -/
def ofName? (name : String) : Option LogFilter :=
  match Text.lowerAscii name with
  | "trace" | "5" => some (some .trace)
  | "debug" | "4" => some (some .debug)
  | "info" | "3" => some (some .info)
  | "warn" | "2" => some (some .warn)
  | "error" | "1" => some (some .error)
  | "off" | "0" => some none
  | _ => none

/-- the filter that a list of levels asks for, the last of which counts -/
def ofList? (levels : String) : Option LogFilter := do
  let filters ← (((Text.pieces ',' levels.toList).map String.ofList).filter (!·.isEmpty)).mapM ofName?
  filters.getLast?

/-- the environment variable that names the filter -/
def variableName : String := "RUST_LOG"

/-- everything but the finest notes when asked to be verbose, else what the environment asks for, else warnings -/
def choose (verbose : Bool) (environment : List (String × String)) : LogFilter :=
  if verbose then some .debug
  else ((environment.lookup variableName).bind ofList?).getD (some .warn)

def shows (filter : LogFilter) (e : Event) : Bool :=
  match filter with
  | some least => least.rank ≤ e.level.rank
  | none => false

end LogFilter

/-- the lines that a message makes under a filter -/
def Message.lines (filter : LogFilter) : Message → List String
  | .line text => [text]
  | .event e => if filter.shows e then [e.line] else []

/-- what a run left behind -/
structure Report where
  code : Nat
  output : String := ""
  messages : List Message := []
  deriving DecidableEq, Repr

end BlockSketch
