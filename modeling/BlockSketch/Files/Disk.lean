/-
A disk: a tree of files and the working folder in it. A path is read from the root if it starts with a slash, and from
the working folder otherwise; empty steps and single dots stay where they are and double dots go up.
-/
import BlockSketch.Files.Tree
import BlockSketch.Text.Pieces

namespace BlockSketch

/-- why a path cannot be used -/
inductive PathError where
  | notFound
  | notFolder
  | isFolder
  | tooLong
  deriving DecidableEq, Repr

/-- a path error as the operating system puts it -/
def PathError.message : PathError → String
  | .notFound => "No such file or directory (os error 2)"
  | .notFolder => "Not a directory (os error 20)"
  | .isFolder => "Is a directory (os error 21)"
  | .tooLong => "File name too long (os error 36)"

/-- files and the folder that paths start from -/
structure Disk where
  root : FileTree
  workingFolder : List String := []

namespace Disk

/-- the steps of a path as written -/
def rawSteps (path : String) : List String := (Text.pieces '/' path.toList).map String.ofList

/-- a step that stays where it is -/
def isIdle (step : String) : Bool := step == "" || step == "."

/-- the steps of a path from the root -/
def steps (d : Disk) (path : String) : List String :=
  (if Text.startsWith path "/" then [] else d.workingFolder) ++ (rawSteps path).filter (!isIdle ·)

/-- the longest name of a file or folder, in bytes -/
def longestName : Nat := 255

/-- the longest path, in bytes -/
def longestPath : Nat := 4095

/-- only a folder can be meant by a path that ends in a slash or a dot -/
def meansFolder (path : String) : Bool := ((rawSteps path).getLast?.map isIdle).getD false

/-- follow steps from a tree; `trail` holds the steps taken so far and the folders they were taken in, last step first.
The result is where one ends up: the steps from the root, none of them double dots, and the tree there. -/
def walk (trail : List (String × FileTree)) (tree : FileTree) : List String → Except PathError (List String × FileTree)
  | [] => .ok (trail.reverse.map (·.1), tree)
  | step :: rest =>
    match tree with
    | .file _ => .error .notFolder
    | .folder entries =>
      if step == ".." then
        match trail with
        | [] => walk [] tree rest
        | (_, parent) :: trail => walk trail parent rest
      else
        match entries.lookup step with
        | some child => walk ((step, tree) :: trail) child rest
        | none => .error (if longestName < step.utf8ByteSize then .tooLong else .notFound)

def find (d : Disk) (path : String) : Except PathError FileTree :=
  if path.isEmpty then .error .notFound
  else if longestPath < path.utf8ByteSize then .error .tooLong
  else
    match walk [] d.root (d.steps path) with
    | .ok (_, .file content) => if meansFolder path then .error .notFolder else .ok (.file content)
    | .ok (_, .folder entries) => .ok (.folder entries)
    | .error e => .error e

def read (d : Disk) (path : String) : Except PathError String :=
  match d.find path with
  | .ok (.file content) => .ok content
  | .ok (.folder _) => .error .isFolder
  | .error e => .error e

def isFile (d : Disk) (path : String) : Bool := (d.read path).isOk

/-- the place of a new file: the steps of a folder that exists, and a name in it that no folder has. A path that ends in
dots leads to a folder, if anywhere. -/
def place (d : Disk) (path : String) : Except PathError (List String) :=
  if path.isEmpty then .error .notFound
  else if longestPath < path.utf8ByteSize then .error .tooLong
  else
    match ((rawSteps path).filter (· != "")).getLast? with
    | none => .error .isFolder
    | some "." => (d.find path).bind fun _ => .error .isFolder
    | some ".." => (d.find path).bind fun _ => .error .isFolder
    | some name =>
      match walk [] d.root (d.steps path).dropLast with
      | .error e => .error e
      | .ok (_, .file _) => .error .notFolder
      | .ok (way, .folder entries) =>
        if meansFolder path then .error .isFolder
        else if longestName < name.utf8ByteSize then .error .tooLong
        else
          match entries.lookup name with
          | some (.folder _) => .error .isFolder
          | _ => .ok (way ++ [name])

def write (d : Disk) (path content : String) : Except PathError Disk :=
  (d.place path).map fun way => { d with root := d.root.put way (.file content) }

/-- the files below the working folder -/
def filesHere (d : Disk) : List StoredFile :=
  match walk [] d.root d.workingFolder with
  | .ok (_, tree) => tree.files
  | .error _ => []

end Disk

end BlockSketch
