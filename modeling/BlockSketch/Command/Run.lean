/-
Runs of the program: arguments, environment and disk to exit code, output, messages and disk.

`generate` prints the sketch of a program or writes it to a file, `check` only tells whether there is one, `boards` lists
boards and their pins, `test` runs golden tests. Code 0 is success, 1 a failure, 2 arguments that ask for nothing known.
-/
import BlockSketch.Command.Arguments
import BlockSketch.Command.Suite

namespace BlockSketch

/-- a failure that a line of its own explains -/
def Report.failure (text : String) : Report := { code := 1, messages := [.line ("error: " ++ text)] }

/-! ## Settings -/

/-- the configuration file used if there is one and no other is named -/
def defaultConfig : String := "blockgen.toml"

/-- the settings in a configuration file, or what is wrong with it -/
def Settings.load (disk : Disk) (path : String) : Except String Settings :=
  match disk.read path with
  | .error e => .error ("cannot read config " ++ singleQuoted path ++ ": " ++ e.message)
  | .ok content => (Settings.parse content).mapError fun e => path ++ ": " ++ e.message

def Settings.choose (disk : Disk) (config : Option String) : Except String Settings :=
  match config with
  | some path => load disk path
  | none => if disk.isFile defaultConfig then load disk defaultConfig else .ok {}

/-! ## Sketches -/

def diagnosticMessages (file source : String) (ds : List Diagnostic) : List Message :=
  ds.flatMap fun d => (d.render file source).map .line

/-- what is said of a failure of generation -/
def failureMessages (file source : String) (e : Failure) : List Message :=
  match e.diagnostic? with
  | some d => diagnosticMessages file source [d]
  | none => [.line ("error: " ++ e.fault.message)]

def unknownBoard (settings : Settings) (name : String) : String :=
  "unknown board " ++ singleQuoted name ++ " (available boards: " ++
    ", ".intercalate (settings.allBoards.map (·.name)) ++ ")"

/-- the sketch of the program in a source text, with what is said on the way -/
def sketchOf (settings : Settings) (asked : Option String) (file source : String) : Option String × List Message :=
  match Program.parse source 0 with
  | .error r => (none, diagnosticMessages file source r.diagnostics)
  | .ok program =>
    let name := settings.boardNameFor asked program
    match settings.findBoard? name with
    | none => (none, [.line ("error: " ++ unknownBoard settings name)])
    | some board =>
      let (outcome, events) := program.generate board Table.builtin settings.indent
      let messages := (.event (.boardSelected board.name)) :: events.map .event
      match outcome with
      | .ok sketch => (some sketch, messages)
      | .error e => (none, messages ++ failureMessages file source e)

/-- the sketch of the program in a file, with what is said on the way -/
def sketchOfFile (disk : Disk) (settings : Settings) (asked : Option String) (file : String) :
    Option String × List Message :=
  match disk.read file with
  | .error e => (none, [.line ("error: cannot read " ++ singleQuoted file ++ ": " ++ e.message)])
  | .ok source => sketchOf settings asked file source

/-! ## Jobs -/

/-- print the sketch of a program or write it to a file -/
def runGenerate (disk : Disk) (settings : Settings) (file : String) (board output : Option String) : Report × Disk :=
  match sketchOfFile disk settings board file, output with
  | (none, messages), _ => ({ code := 1, messages }, disk)
  | (some sketch, messages), none => ({ code := 0, output := sketch, messages }, disk)
  | (some sketch, messages), some path =>
    match disk.write path sketch with
    | .ok disk => ({ code := 0, messages }, disk)
    | .error e =>
      let complaint := "error: cannot write " ++ singleQuoted path ++ ": " ++ e.message
      ({ code := 1, messages := messages ++ [.line complaint] }, disk)

/-- tell whether a program has a sketch -/
def runCheck (disk : Disk) (settings : Settings) (file : String) (board : Option String) : Report :=
  match sketchOfFile disk settings board file with
  | (none, messages) => { code := 1, messages }
  | (some _, messages) =>
    { code := 0, messages := messages ++ [.line ("ok: " ++ file ++ " generated successfully")] }

/-- the roles listed when none is asked for -/
def listedRoles : List Role := [.digitalOutput, .pwm, .analogInput, .serial, .i2c, .spi]

/-- the pins for a role on a line of their own, nothing if there are none -/
def Board.roleLine (b : Board) (role : Role) : String :=
  match b.eligible role with
  | [] => ""
  | pins => "  " ++ Text.padRight 14 role.name ++ " " ++ " ".intercalate pins ++ "\n"

/-- a board and its pins for some roles -/
def Board.listing (b : Board) (roles : List Role) : String :=
  (if b.description.isEmpty then b.name ++ "\n" else b.name ++ " (" ++ b.description ++ ")\n") ++
    String.join (roles.map b.roleLine)

def runBoards (settings : Settings) (role : Option Role) : Report :=
  let roles := match role with
    | some role => [role]
    | none => listedRoles
  { code := 0, output := String.join (settings.allBoards.map (·.listing roles)) }

def Job.run (disk : Disk) (settings : Settings) (noColor : Bool) : Job → Report × Disk
  | .generate file board output => runGenerate disk settings file board output
  | .check file board => (runCheck disk settings file board, disk)
  | .boards role => (runBoards settings role, disk)
  | .test path categories => (Suite.run disk path settings ⟨!noColor⟩ categories, disk)
  | .listCategories path => (Suite.listing disk path, disk)

def Invocation.run (i : Invocation) (disk : Disk) : Report × Disk :=
  match Settings.choose disk i.config with
  | .error message => (.failure message, disk)
  | .ok settings => i.job.run disk settings i.noColor

/-- the paths that a job looks at -/
def Job.paths : Job → List String
  | .generate file _ output => file :: output.toList
  | .check file _ => [file]
  | .boards _ => []
  | .test path _ => [path]
  | .listCategories path => [path]

/-! ## The program -/

def usageLines : List String := [
  "Generate Arduino sketches from block programs",
  "",
  "Usage: blockgen [OPTIONS] <COMMAND>",
  "",
  "Commands:",
  "  generate <FILE> [-b <BOARD>] [-o <OUTPUT>]           Generate a sketch from a block program",
  "  check <FILE> [-b <BOARD>]                            Generate without printing; exit 0 if the program is valid",
  "  boards [-r <ROLE>]                                   List known boards and their pin capabilities",
  "  test <PATH> [-c <CATEGORY>]... [--list-categories]   Run .test.toml test files",
  "  help                                                 Print this message",
  "",
  "Options:",
  "      --no-color         Disable colored error output",
  "  -v, --verbose          Log each traversed block and fragment to stderr",
  "      --config <CONFIG>  Configuration file (defaults to ./blockgen.toml when present)",
  "  -h, --help             Print help",
  "  -V, --version          Print version"]

def versionText : String := "blockgen 0.1.0\n"

/-- what comes of arguments that name no job -/
def Halt.report : Halt → Report
  | .misuse => { code := 2, messages := ("error: these arguments cannot be used" :: "" :: usageLines).map .line }
  | .help => { code := 0, output := String.join (usageLines.map (· ++ "\n")) }
  | .version => { code := 0, output := versionText }

/-- a finished run: exit code, standard output, lines of standard error, and the disk afterwards -/
structure Finished where
  code : Nat
  output : String
  errorLines : List String
  disk : Disk

def runCommand (args : List String) (environment : List (String × String)) (disk : Disk) : Finished :=
  match Invocation.ofArguments args with
  | .error halt => ⟨halt.report.code, halt.report.output, halt.report.messages.flatMap (·.lines none), disk⟩
  | .ok i =>
    let (report, disk) := i.run disk
    ⟨report.code, report.output, report.messages.flatMap (·.lines (.choose i.verbose environment)), disk⟩

end BlockSketch
