/-
How headers and dotted keys build tables.

A table under construction remembers what brought it about: its own header, a longer header that passes through it, or
a dotted key. A header may complete a table that only a longer header implied; it then takes its place after its
siblings. A dotted key may not reach into a table that has a header, nor add to one that a header implied, and nothing
may be defined twice. Values in braces or brackets are closed: nothing is ever added to them.
-/
import BlockSketch.Toml.Value

namespace BlockSketch.Toml

/-- what brought a table about -/
inductive Origin where
  | header
  | implied
  | dotted
  deriving DecidableEq, Repr

/-- a part of a document under construction -/
inductive Item where
  | value (v : Value)
  | table (origin : Origin) (span : Option Span) (entries : List (Key × Item))
  | series (tables : List Item)

/-- the entries of a table in the order in which they were defined -/
abbrev Entries := List (Key × Item)

namespace Entries

def find? (entries : Entries) (name : String) : Option Item :=
  (List.find? (fun entry => entry.1.name == name) entries).map (·.2)

/-- the same entries, with another item under a name -/
def replace (entries : Entries) (name : String) (item : Item) : Entries :=
  entries.map fun entry => if entry.1.name == name then (entry.1, item) else entry

def erase (entries : Entries) (name : String) : Entries := entries.filter fun entry => entry.1.name != name

/-- apply `edit` to the table at the end of a path, making the tables on the way that do not exist -/
def editAt (dotted : Bool) (edit : Origin → Entries → Option Entries) :
    (path : List Key) → Origin → Entries → Option Entries
  | [], origin, entries => edit origin entries
  | key :: path, _, entries =>
    match entries.find? key.name with
    | none => do
      let made := if dotted then Origin.dotted else Origin.implied
      let inner ← editAt dotted edit path made []
      return entries ++ [(key, .table made none inner)]
    | some (.value _) => none
    | some (.table origin span inner) => do
      guard (!(dotted && origin == .header))
      let inner ← editAt dotted edit path origin inner
      return entries.replace key.name (.table origin span inner)
    | some (.series tables) =>
      match tables.getLast? with
      | some (.table origin span inner) => do
        let inner ← editAt dotted edit path origin inner
        return entries.replace key.name (.series (tables.dropLast ++ [.table origin span inner]))
      | _ => none

/-- define a key, possibly behind a dotted path, in the table whose entries these are -/
def define (entries : Entries) (path : List Key) (key : Key) (value : Value) : Option Entries :=
  entries.editAt true (fun origin inner => do
    guard ((origin == .dotted) != path.isEmpty)
    guard (inner.find? key.name).isNone
    return inner ++ [(key, .value value)]) path .header

end Entries

structure Assignment where
  path : List Key
  key : Key
  value : Value

/-- entries with more keys defined, one after the other -/
def Entries.defineAll (entries : Entries) (assignments : List Assignment) : Option Entries :=
  assignments.foldlM (fun entries a => entries.define a.path a.key a.value) entries

/-- a table header: where it leads, whether it adds to a series, and where it was written -/
structure Header where
  path : List Key
  key : Key
  series : Bool
  span : Span

/-- a header with the assignments directly under it -/
structure Paragraph where
  header : Header
  body : List Assignment

namespace Paragraph

/-- from the header to the end of the last value directly under it -/
def span (p : Paragraph) : Span :=
  match p.body.getLast? with
  | none => p.header.span
  | some last => ⟨p.header.span.start, (last.value.span?.map (·.stop)).getD p.header.span.stop⟩

/-- the entries of the table around the header, with this paragraph's table in them -/
def placeIn (p : Paragraph) (entries : Entries) : Option Entries := do
  let key := p.header.key
  let finish (inner : Entries) : Option Item := do
    return .table .header (some p.span) (← inner.defineAll p.body)
  match p.header.series, entries.find? key.name with
  | false, none => return entries ++ [(key, ← finish [])]
  | false, some (.table .implied _ inner) => return entries.erase key.name ++ [(key, ← finish inner)]
  | true, none => return entries ++ [(key, .series [← finish []])]
  | true, some (.series tables) => return entries.replace key.name (.series (tables ++ [← finish []]))
  | _, _ => none

/-- the document with this paragraph added -/
def addTo (p : Paragraph) (root : Entries) : Option Entries :=
  root.editAt false (fun _ entries => p.placeIn entries) p.header.path .header

end Paragraph

/-! ## Finished values -/

/-- the span of a finished table -/
def Item.span? : Item → Option Span
  | .value v => v.span?
  | .table _ span _ => span
  | .series _ => none

/-- from the start of the first table to the end of the last -/
def seriesSpan (tables : List Item) : Span :=
  ⟨((tables.head?.bind Item.span?).map (·.start)).getD 0, ((tables.getLast?.bind Item.span?).map (·.stop)).getD 0⟩

mutual
/-- the value that an item has become -/
def Item.finish : Item → Value
  | .value v => v
  | .table _ span entries => .table span (finishEntries entries)
  | .series tables => .array (seriesSpan tables) (finishTables tables)

def finishTables : List Item → List Value
  | [] => []
  | item :: rest => item.finish :: finishTables rest

def finishEntries : List (Key × Item) → List (Key × Value)
  | [] => []
  | (key, item) :: rest => (key, item.finish) :: finishEntries rest
end

end BlockSketch.Toml
