/-
The command line program: takes from the real disk what an invocation looks at, runs it, prints what it says and writes
what it has written.
-/
import BlockSketch.Command.Run

namespace BlockSketch.Terminal

def locate (path : String) := (· / path) <$> IO.currentDir

def contentOf (path : String) : IO String := do
  IO.FS.readFile (← locate path)

/-- what is at a path; in a folder the contents of test files are read, of other files only the names -/
partial def treeAt (path : String) : IO FileTree := do
  let place ← locate path
  if ← place.isDir then
    let names := (← place.readDir).toList.map (·.fileName)
    let entries ← names.mapM fun name => do
      let below := path ++ "/" ++ name
      if Text.endsWith name testEnding || (← (← locate below).isDir) then return (name, ← treeAt below)
      else return (name, FileTree.file "")
    return .folder entries
  else return .file (← contentOf path)

/-- a way with its double dots taken back -/
def straighten (steps : List String) : List String :=
  (steps.foldl (fun way step => if step == ".." then way.drop 1 else step :: way) []).reverse

/-- a disk with what is on the way to a path, and at its end everything if `whole` is set -/
def record (whole : Bool) (disk : Disk) (path : String) : IO Disk := do
  let steps := disk.steps path
  let mut disk := disk
  for n in List.range steps.length do
    let way := straighten (steps.take (n + 1))
    let here := "/" ++ "/".intercalate way
    let place ← locate here
    if ← place.pathExists then
      let isFolder ← place.isDir
      if whole && n + 1 == steps.length then
        disk := { disk with root := disk.root.put way (← treeAt here) }
      else if (disk.find here).isOk then pure ()
      else
        let leaf ← if isFolder then pure FileTree.empty else FileTree.file <$> contentOf here
        disk := { disk with root := disk.root.put way leaf }
  return disk

/-- what an invocation can see of the real disk -/
def diskFor (args : List String) : IO Disk := do
  let start : Disk := { root := .empty }
  let here : Disk := { start with workingFolder := start.steps (← IO.currentDir).toString }
  match Invocation.ofArguments args with
  | .error _ => return here
  | .ok i =>
    let whole := match i.job with
      | .test .. | .listCategories .. => true
      | _ => false
    let disk ← record false here (i.config.getD defaultConfig)
    i.job.paths.foldlM (record whole) disk

/-- write the files that are not on a disk as they should be -/
def store (before after : Disk) : IO Unit :=
  (after.root.files.filter fun f => !before.root.files.contains f).forM fun f => do
    IO.FS.writeFile (← locate ("/" ++ "/".intercalate (f.folder ++ [f.name]))) f.content

end BlockSketch.Terminal

open BlockSketch BlockSketch.Terminal in
def main (args : List String) : IO UInt32 := do
  let setting := (← IO.getEnv LogFilter.variableName).map fun value => (LogFilter.variableName, value)
  let disk ← diskFor args
  let finished := runCommand args setting.toList disk
  finished.errorLines.forM fun line => IO.eprintln line
  store disk finished.disk
  IO.print finished.output
  return finished.code.toUInt32
