/-
Settings: the board and the indentation to use when nothing else says so, and boards beyond the built-in ones. A
configured board hides a built-in one of the same name.
-/
import BlockSketch.Board.Builtin
import BlockSketch.Toml.Shape

namespace BlockSketch

open BlockSketch.Toml

/-- how sketches are generated by default -/
structure Settings where
  defaultBoard : String := "uno"
  indent : Nat := 2
  boards : List Board := []
  deriving DecidableEq, Repr

/-- why a text is no configuration -/
inductive SettingsError where
  | notDocument
  | misshapen (e : ShapeError)
  | indentTooWide (width : Nat)
  deriving DecidableEq, Repr

def SettingsError.message : SettingsError → String
  | .notDocument => "invalid configuration: not a TOML document"
  | .misshapen e => "invalid configuration: " ++ e.misfit.message
  | .indentTooWide width => "indent must be at most 16, got " ++ toString width

namespace Board

def shapeName : String := "struct BoardProfile"

def readPins : Value → Shaped (List String) := Shaped.list Shaped.text

/-- one key of a board; keys without a meaning are skipped -/
def readKey (b : Option String × Board) (key : Key) (v : Value) : Shaped (Option String × Board) :=
  let (name, board) := b
  match key.name with
  | "name" => do return (some (← Shaped.text v), board)
  | "description" => do return (name, { board with description := ← Shaped.text v })
  | "digital_pins" => do return (name, { board with digitalPins := ← readPins v })
  | "pwm_pins" => do return (name, { board with pwmPins := ← readPins v })
  | "analog_pins" => do return (name, { board with analogPins := ← readPins v })
  | "serial_pins" => do return (name, { board with serialPins := ← readPins v })
  | "i2c_pins" => do return (name, { board with i2cPins := ← readPins v })
  | "spi_pins" => do return (name, { board with spiPins := ← readPins v })
  | _ => .ok b

/-- the pins at a position of a list, none if the list is shorter -/
def pinsAt (items : List Value) (i : Nat) : Shaped (List String) :=
  match items[i]? with
  | some v => readPins v
  | none => .ok []

/-- a board from a table, or from a list of its parts in order -/
def ofValue : Value → Shaped Board
  | .table span entries => do
    match ← Shaped.record readKey (none, { name := "" }) entries with
    | (some name, board) => return { board with name }
    | (none, _) => .error ⟨.missingKey "name", span⟩
  | .array span [] => .error ⟨.tooShort 0 (shapeName ++ " with 8 elements"), some span⟩
  | .array _ (name :: parts) => do
    let name ← Shaped.text name
    let description ← match parts.head? with
      | some v => Shaped.text v
      | none => pure ""
    let digitalPins ← pinsAt parts 1
    let pwmPins ← pinsAt parts 2
    let analogPins ← pinsAt parts 3
    let serialPins ← pinsAt parts 4
    let i2cPins ← pinsAt parts 5
    let spiPins ← pinsAt parts 6
    return { name, description, digitalPins, pwmPins, analogPins, serialPins, i2cPins, spiPins }
  | .dateTime span _ => .error ⟨.missingKey "name", some span⟩
  | v => Shaped.mismatch v shapeName

end Board

namespace Settings

def keys : List String := ["default_board", "indent", "boards"]

def ofEntries (entries : List (Key × Value)) : Shaped Settings :=
  Shaped.record (fun (s : Settings) key v =>
    match key.name with
    | "default_board" => do return { s with defaultBoard := ← Shaped.text v }
    | "indent" => do return { s with indent := ← Shaped.natural v }
    | "boards" => do return { s with boards := ← Shaped.list Board.ofValue v }
    | _ => Shaped.unknown key keys) {} entries

def widestIndent : Nat := 16

def parse (source : String) : Except SettingsError Settings := do
  let some entries := Toml.parse? source | .error .notDocument
  let settings ← (ofEntries entries).mapError .misshapen
  if widestIndent < settings.indent then .error (.indentTooWide settings.indent)
  return settings

/-- the boards and one more behind them, unless one of them goes by its name -/
def addBoard (boards : List Board) (b : Board) : List Board :=
  if boards.any (·.isNamed b.name) then boards else boards ++ [b]

/-- the configured boards, then the built-in boards that are not hidden -/
def allBoards (s : Settings) : List Board := Board.builtins.foldl addBoard s.boards

def findBoard? (s : Settings) (name : String) : Option Board := s.allBoards.find? (·.isNamed name)

end Settings

end BlockSketch
