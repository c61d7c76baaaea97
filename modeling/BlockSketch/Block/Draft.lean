/-
Drafts: programs as a document spells them, before ids are given out and fields are checked.

A draft block is a table with the keys `id`, `type`, `fields`, `inputs` and `statements`, or a list of these five things
in that order, the last three of which may be missing.
-/
import BlockSketch.Text.Sorted
import BlockSketch.Toml.Shape

namespace BlockSketch

open BlockSketch.Toml BlockSketch.Text

/-- a block as a document spells it; fields and slots stand in the order of their names -/
structure Draft where
  id : Option (Located String)
  kind : Located String
  fields : List (String × Located Value)
  inputs : List (String × Draft)
  statements : List (String × List Draft)

/-- a program as a document spells it -/
structure DraftProgram where
  board : Option String
  setup : List Draft
  main : List Draft

namespace Draft

def keys : List String := ["id", "type", "fields", "inputs", "statements"]

def shapeName : String := "struct RawBlock"

/-- what has been read of a draft block so far -/
structure Parts where
  id : Option (Located String) := none
  kind : Option (Located String) := none
  fields : List (String × Located Value) := []
  inputs : List (String × Draft) := []
  statements : List (String × List Draft) := []

/-- a draft block, if its type has been read -/
def Parts.finish (parts : Parts) (span : Option Span) : Shaped Draft :=
  match parts.kind with
  | none => .error ⟨.missingKey "type", span⟩
  | some kind => .ok ⟨parts.id, kind, parts.fields, parts.inputs, parts.statements⟩

def readFields : Value → Shaped (List (String × Located Value))
  | .table _ entries => do
    let fields ← entries.mapM fun (key, v) =>
      Shaped.under key v ((Shaped.located v).map fun x => (key.name, x))
    return sortByName fields
  | .dateTime span d => .error ⟨.wrongType (describeString d.text) "a spanned value", some span⟩
  | v => Shaped.mismatch v "a map"

mutual
/-- a draft block from a table or a list -/
def ofValue : Value → Shaped Draft
  | .table span entries => do
    let parts ← (readEntries {} entries).mapError (·.orAt span)
    parts.finish span
  | .array span [] => .error ⟨.tooShort 1 (shapeName ++ " with 5 elements"), some span⟩
  | .array span [id] => do
    let _ ← Shaped.locatedText id
    .error ⟨.tooShort 1 (shapeName ++ " with 5 elements"), some span⟩
  | .array _ [id, kind] => do
    return ⟨some (← Shaped.locatedText id), ← Shaped.locatedText kind, [], [], []⟩
  | .array _ [id, kind, fields] => do
    return ⟨some (← Shaped.locatedText id), ← Shaped.locatedText kind, ← readFields fields, [], []⟩
  | .array _ [id, kind, fields, inputs] => do
    return ⟨some (← Shaped.locatedText id), ← Shaped.locatedText kind, ← readFields fields, ← readInputs inputs, []⟩
  | .array _ (id :: kind :: fields :: inputs :: statements :: _) => do
    return ⟨some (← Shaped.locatedText id), ← Shaped.locatedText kind, ← readFields fields, ← readInputs inputs,
      ← readStatements statements⟩
  | .dateTime span _ => .error ⟨.unknownKey dateTimeKey keys, some span⟩
  | v => Shaped.mismatch v shapeName

/-- the keys of a draft block in document order -/
def readEntries (parts : Parts) : List (Key × Value) → Shaped Parts
  | [] => .ok parts
  | (key, v) :: rest => do
    let parts ← Shaped.under key v <|
      match key.name with
      | "id" => do return { parts with id := some (← Shaped.locatedText v) }
      | "type" => do return { parts with kind := some (← Shaped.locatedText v) }
      | "fields" => do return { parts with fields := ← readFields v }
      | "inputs" => do return { parts with inputs := ← readInputs v }
      | "statements" => do return { parts with statements := ← readStatements v }
      | _ => Shaped.unknown key keys
    readEntries parts rest

def readInputs : Value → Shaped (List (String × Draft))
  | .table _ entries => do return sortByName (← readInputEntries entries)
  | .dateTime span d => .error ⟨.wrongType (describeString d.text) shapeName, some span⟩
  | v => Shaped.mismatch v "a map"

def readInputEntries : List (Key × Value) → Shaped (List (String × Draft))
  | [] => .ok []
  | (key, v) :: rest => do
    let draft ← Shaped.under key v (ofValue v)
    return (key.name, draft) :: (← readInputEntries rest)

def readStatements : Value → Shaped (List (String × List Draft))
  | .table _ entries => do return sortByName (← readStatementEntries entries)
  | .dateTime span d => .error ⟨.wrongType (describeString d.text) "a sequence", some span⟩
  | v => Shaped.mismatch v "a map"

def readStatementEntries : List (Key × Value) → Shaped (List (String × List Draft))
  | [] => .ok []
  | (key, v) :: rest => do
    let chain ← Shaped.under key v (readChain v)
    return (key.name, chain) :: (← readStatementEntries rest)

def readChain : Value → Shaped (List Draft)
  | .array _ items => readItems items
  | v => Shaped.mismatch v "a sequence"

def readItems : List Value → Shaped (List Draft)
  | [] => .ok []
  | v :: rest => do
    let draft ← ofValue v
    return draft :: (← readItems rest)
end

end Draft

namespace DraftProgram

def keys : List String := ["board", "setup", "block"]

/-- a draft program from the entries of a document -/
def ofEntries (entries : List (Key × Value)) : Shaped DraftProgram :=
  Shaped.record (fun (p : DraftProgram) key v =>
    match key.name with
    | "board" => do return { p with board := some (← Shaped.text v) }
    | "setup" => do return { p with setup := ← Draft.readChain v }
    | "block" => do return { p with main := ← Draft.readChain v }
    | _ => Shaped.unknown key keys) ⟨none, [], []⟩ entries

end DraftProgram

end BlockSketch
