/-
A whole document: assignments, then paragraphs, each a header with the assignments under it.

`parse?` gives the entries of the document in order, or nothing if the text is no document. Values nest to a bounded
depth, and so do dotted keys.
-/
import BlockSketch.Toml.Scalar
import BlockSketch.Toml.Table

namespace BlockSketch.Toml

/-- values lie inside fewer containers than this, and a key has fewer parts -/
def nestingLimit : Nat := 80

namespace Scan

/-- a character of a key without quotes -/
def isBareChar (c : Char) : Bool := c.isAlphanum || c == '-' || c == '_'

/-- one part of a key -/
def keyPart : Scan Key := do
  let (name, span) ← spanned do
    match ← peek with
    | some '"' => basicString
    | some '\x27' => rawString
    | _ => do
      let cs ← run isBareChar
      guard (!cs.isEmpty)
      return String.ofList cs
  return ⟨name, span⟩

/-- one part of a key with blanks around it -/
def spacedKeyPart : Scan Key := do
  spaces
  let key ← keyPart
  spaces
  return key

/-- the parts of a key but the last, and the last one -/
def dottedKey : Scan (List Key × Key) := do
  let first ← spacedKeyPart
  let more ← many do
    if (← peek) == some '.' then
      skip 1
      return some (← spacedKeyPart)
    else return none
  let parts := first :: more
  guard (parts.length < nestingLimit)
  return (parts.dropLast, more.getLastD first)

def assignment (value : Scan Value) : Scan Assignment := do
  let (path, key) ← dottedKey
  literal '='
  spaces
  return ⟨path, key, ← value⟩

/-- items between brackets, a comma after each but possibly not after the last -/
def array (value : Scan Value) : Scan (List Value) := do
  literal '['
  filler
  let items ← many do
    if (← peek) == some ']' then return none
    else
      let item ← value
      filler
      match ← peek with
      | some ',' => do
        skip 1
        filler
      | some ']' => pure ()
      | _ => failure
      return some item
  literal ']'
  return items

/-- assignments between braces on one line, a comma between any two -/
def inlineTable (value : Scan Value) : Scan (List (Key × Value)) := do
  literal '\x7b'
  spaces
  let assignments ← if (← peek) == some '\x7d' then pure [] else do
    let first ← assignment value
    spaces
    let more ← many do
      if (← peek) == some ',' then
        skip 1
        let a ← assignment value
        spaces
        return some a
      else return none
    pure (first :: more)
  literal '\x7d'
  let entries ← Entries.defineAll [] assignments
  return finishEntries entries

/-- a value inside fewer than `depth` more containers -/
def value : (depth : Nat) → Scan Value
  | 0 => atom
  | depth + 1 => do
    match ← peek with
    | some '[' => do
      let (items, span) ← spanned (array (value depth))
      return .array span items
    | some '\x7b' => do
      let (entries, span) ← spanned (inlineTable (value depth))
      return .table (some span) entries
    | _ => atom
where
  /-- a value that holds no other -/
  atom : Scan Value := do
    match ← peek with
    | some '"' | some '\x27' => do
      let (text, span) ← spanned stringLiteral
      return .string span text
    | _ => do
      let (scalar, span) ← spanned scalar
      match scalar with
      | .integer n => return .integer span n
      | .float x => return .float span x
      | .boolean b => return .boolean span b
      | .dateTime d => return .dateTime span d

/-- a header in single or double brackets -/
def header : Scan Header := do
  let series ← sees ['[', '[']
  let ((path, key), span) ← spanned do
    if series then
      skip 2
      let key ← dottedKey
      literal ']'
      literal ']'
      return key
    else
      skip 1
      let key ← dottedKey
      literal ']'
      return key
  return ⟨path, key, series, span⟩

/-- what one line of a document holds -/
inductive Line where
  | empty
  | header (h : Header)
  | assignment (a : Assignment)

/-- the next line, or nothing at the end of the document -/
def line : Scan (Option Line) := do
  spaces
  match ← peek with
  | none => return none
  | some '\n' | some '\r' => do
    newline
    return some .empty
  | some '#' => do
    comment
    lineEnd
    return some .empty
  | some '[' => do
    let h ← header
    trailing
    return some (.header h)
  | some _ => do
    let a ← assignment (value (nestingLimit - 1))
    trailing
    return some (.assignment a)

/-- all lines of a document, after an optional byte order mark -/
def document : Scan (List Line) := do
  if (← peek) == some '\ufeff' then skip 1
  many line

end Scan

/-- assignments before the first header, and the paragraphs in order -/
def paragraphs : List Scan.Line → List Assignment × List Paragraph
  | [] => ([], [])
  | .empty :: rest => paragraphs rest
  | .assignment a :: rest =>
    let (body, more) := paragraphs rest
    (a :: body, more)
  | .header h :: rest =>
    let (body, more) := paragraphs rest
    ([], ⟨h, body⟩ :: more)

def parse? (source : String) : Option (List (Key × Value)) := do
  let (lines, _) ← Scan.document ⟨0, source.toList⟩
  let (top, rest) := paragraphs lines
  let root ← Entries.defineAll [] top
  let root ← rest.foldlM (fun root p => p.addTo root) root
  return finishEntries root

end BlockSketch.Toml
