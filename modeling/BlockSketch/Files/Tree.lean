/-
Trees of files and folders.

`put` sets one place of a tree and makes the folders on the way to it; `files` lists what a tree holds, each file with
the folders it lies in.
-/
namespace BlockSketch

/-- a file with its content, or a folder with its named entries -/
inductive FileTree where
  | file (content : String)
  | folder (entries : List (String × FileTree))
  deriving Inhabited

/-- a file of a tree: the folders on the way to it, its name and its content -/
structure StoredFile where
  folder : List String
  name : String
  content : String
  deriving DecidableEq, Repr

namespace FileTree

def empty : FileTree := .folder []

/-- the entries of a folder, none for a file -/
def entries : FileTree → List (String × FileTree)
  | .file _ => []
  | .folder entries => entries

/-- the entry of a name replaced, or added after the others -/
def putEntry (name : String) (tree : FileTree) : List (String × FileTree) → List (String × FileTree)
  | [] => [(name, tree)]
  | entry :: rest => if entry.1 == name then (name, tree) :: rest else entry :: putEntry name tree rest

/-- a tree with another one at the end of a way through its folders -/
def put : FileTree → List String → FileTree → FileTree
  | _, [], leaf => leaf
  | tree, name :: way, leaf =>
    .folder (putEntry name (put ((tree.entries.lookup name).getD empty) way leaf) tree.entries)

mutual

/-- the files of a tree that stands under a name in a folder -/
def filesAt (above : List String) (name : String) : FileTree → List StoredFile
  | .file content => [⟨above, name, content⟩]
  | .folder entries => filesAmong (above ++ [name]) entries

def filesAmong (above : List String) : List (String × FileTree) → List StoredFile
  | [] => []
  | (name, tree) :: rest => filesAt above name tree ++ filesAmong above rest

end

/-- the files in a folder and in the folders below it -/
def files (tree : FileTree) : List StoredFile := filesAmong [] tree.entries

end FileTree

end BlockSketch
