/-
Suites of golden tests: the test files below a folder, by category, and the report on running them. The category of a
file is the way to its folder, with slashes between the steps.
-/
import BlockSketch.Command.Console
import BlockSketch.Command.Golden
import BlockSketch.Files.Disk
import BlockSketch.Text.Sorted

namespace BlockSketch

/-! ## Test files -/

def testEnding : String := ".test.toml"

/-- a test file: its path as shown, its name and its content -/
structure TestFile where
  path : String
  name : String
  content : String
  deriving DecidableEq, Repr

/-- the test files of one folder -/
structure Category where
  name : String
  files : List TestFile
  deriving DecidableEq, Repr

namespace Category

def title (c : Category) : String := if c.name.isEmpty then "(root)" else c.name

end Category

namespace StoredFile

def isTest (f : StoredFile) : Bool := Text.endsWith f.name testEnding

def category (f : StoredFile) : String := "/".intercalate f.folder

def pathBelow (root : String) (f : StoredFile) : String :=
  root ++ (if Text.endsWith root "/" then "" else "/") ++ "/".intercalate (f.folder ++ [f.name])

def toTest (root : String) (f : StoredFile) : TestFile := ⟨f.pathBelow root, f.name, f.content⟩

end StoredFile

/-! ## Suites -/

/-- categories of tests -/
abbrev Suite := List Category

namespace Suite

/-- the names of the categories that files are in, in order, each once -/
def categoryNames (files : List StoredFile) : List String := Text.sortNames (files.map (·.category)).eraseDups

/-- the files of one category in the order of their names -/
def categoryFiles (files : List StoredFile) (category : String) : List StoredFile :=
  (Text.sortByName ((files.filter (·.category == category)).map fun f => (f.name, f))).map (·.2)

/-- the test files below a folder -/
def discover (root : String) (tree : FileTree) : Suite :=
  let tests := tree.files.filter (·.isTest)
  (categoryNames tests).map fun category => ⟨category, (categoryFiles tests category).map (·.toTest root)⟩

/-- the suite at a path: one file, or what is found below a folder -/
def atPath (disk : Disk) (path : String) : Suite :=
  match disk.find path with
  | .ok (.file content) => [⟨"", [⟨path, ((Disk.rawSteps path).getLast?).getD path, content⟩]⟩]
  | .ok tree => discover path tree
  | .error _ => []

/-- a wanted category as compared -/
def wantedName (wanted : String) : String := Text.stripMarks '/' wanted

/-- the test that selects: a category is the wanted one, or what is left of it behind that one starts with a slash -/
def isWithin (category wanted : String) : Bool :=
  category == wanted || (Text.afterStart? category wanted).any fun rest => Text.startsWith rest "/"

/-- the test that warns: a category is the wanted one, or starts with that one and a slash -/
def goesBy (category wanted : String) : Bool := category == wanted || Text.startsWith category (wanted ++ "/")

/-- the categories that are wanted, all of them if the list is empty -/
def select (suite : Suite) (wanted : List String) : Suite :=
  suite.filter fun c => wanted.isEmpty || wanted.any fun w => isWithin c.name (wantedName w)

/-- the wanted names that no category goes by -/
def strangers (suite : Suite) (wanted : List String) : List String :=
  (wanted.map wantedName).filter fun w => !suite.any fun c => goesBy c.name w

end Suite

/-! ## Running -/

/-- what came of a test -/
structure TestResult where
  path : String
  title : String
  complaint : Option Complaint

def TestResult.passed (r : TestResult) : Bool := r.complaint.isNone

def complaintOf : Except Complaint Unit → Option Complaint
  | .ok _ => none
  | .error c => some c

def TestFile.run (settings : Settings) (f : TestFile) : TestResult × List Event :=
  let name := Text.withoutEndings f.name testEnding
  match Golden.parse f.content with
  | .error c => (⟨f.path, name, some c⟩, [])
  | .ok test =>
    let (outcome, events) := test.check settings
    (⟨f.path, test.expect.description.getD name, complaintOf outcome⟩, events)

/-! ## The report -/

/-- whether a report is coloured -/
structure Palette where
  color : Bool
  deriving DecidableEq, Repr

namespace Palette

/-- a text in a style of the terminal -/
def paint (p : Palette) (style text : String) : String :=
  if p.color then "\x1b[" ++ style ++ "m" ++ text ++ "\x1b[0m" else text

def green (p : Palette) (text : String) : String := p.paint "32" text

def red (p : Palette) (text : String) : String := p.paint "31" text

def bold (p : Palette) (text : String) : String := p.paint "1" text

/-- the word for the outcome of a test -/
def verdict (p : Palette) (passed : Bool) : String := if passed then p.green "PASS" else p.red "FAIL"

end Palette

namespace Suite

/-- what is said while a test runs -/
def testMessages (p : Palette) (result : TestResult) (events : List Event) : List Message :=
  events.map .event ++
    [.event (.testRan result.path result.passed), .line ("  " ++ p.verdict result.passed ++ "  " ++ result.title)]

/-- the lines on a failed test at the end of a report -/
def failureMessages (p : Palette) (result : TestResult) : List Message :=
  match result.complaint with
  | none => []
  | some c =>
    [.line "", .line (p.verdict false ++ " " ++ result.path)] ++
      (Text.lines c.message).map fun line => .line ("    " ++ line)

/-- the last line of a report -/
def summary (p : Palette) (passed failed : Nat) : String :=
  if failed == 0 then p.green "ok:" ++ " " ++ toString passed ++ " passed"
  else p.red "FAILED:" ++ " " ++ toString passed ++ " passed, " ++ toString failed ++ " failed"

/-- the results of every test of a suite, in order -/
def results (settings : Settings) (suite : Suite) : List TestResult :=
  suite.flatMap fun c => c.files.map fun f => (f.run settings).1

/-- run the tests of a suite that has some -/
def runSelected (settings : Settings) (p : Palette) (suite : Suite) : Report :=
  let outcomes := suite.results settings
  let failed := outcomes.filter (!·.passed)
  { code := if failed.isEmpty then 0 else 1
    messages :=
      (suite.flatMap fun c =>
        [.line "", .line (p.bold c.title)] ++ c.files.flatMap fun f =>
          let (result, events) := f.run settings
          testMessages p result events) ++
      failed.flatMap (failureMessages p) ++
      [.line "", .line (summary p (outcomes.length - failed.length) failed.length)] }

/-- what is said when there are no tests at a path -/
def nothingFound (path : String) : Message := .line ("no " ++ testEnding ++ " files under " ++ path)

/-- run the tests at a path, of the wanted categories only; a file is run whatever is wanted -/
def run (disk : Disk) (path : String) (settings : Settings) (p : Palette) (wanted : List String) : Report :=
  let suite := Suite.atPath disk path
  let wanted := if disk.isFile path then [] else wanted
  if suite.isEmpty then { code := 1, messages := [nothingFound path] }
  else
    let warnings := (suite.strangers wanted).map fun w => .line ("warning: no test category named " ++ singleQuoted w)
    let selected := suite.select wanted
    if selected.isEmpty then { code := 1, messages := warnings ++ [.line "no tests selected"] }
    else
      let report := selected.runSelected settings p
      { report with messages := warnings ++ report.messages }

/-- the categories at a path, with the number of their tests -/
def listing (disk : Disk) (path : String) : Report :=
  let suite := Suite.atPath disk path
  { code := 0
    messages :=
      if disk.isFile path then [.line (path ++ " is a single test file")]
      else if suite.isEmpty then [nothingFound path]
      else suite.map fun c => .line (Text.padRight 24 c.title ++ " " ++ toString c.files.length ++ " tests") }

end Suite

end BlockSketch
