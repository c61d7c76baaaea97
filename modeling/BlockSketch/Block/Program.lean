/-
From a draft to a program.

Blocks are visited setup chain first, a block before what hangs in its slots, value slots before statement slots, slots
in the order of their names. A block without an id of its own is named after its type and the number of such blocks of
that type so far. Three things are wrong with a draft: a type that is blank, an id that an earlier block has, a field
that is neither text nor number nor truth value. All of them are reported, in visiting order; a draft without any
becomes a program.
-/
import BlockSketch.Block.Basic
import BlockSketch.Block.Draft
import BlockSketch.Block.Linked
import BlockSketch.Diagnostic
import BlockSketch.Text.Blank

namespace BlockSketch

open BlockSketch.Toml BlockSketch.Text

/-- something that keeps a draft from being a program -/
inductive DraftProblem where
  | emptyType (span : Span)
  | duplicateId (id : String) (span first : Span)
  | unusableField (name : String) (span : Span) (blockId : String)
  deriving DecidableEq, Repr

def DraftProblem.diagnostic : DraftProblem → Diagnostic
  | .emptyType span => { message := "empty block type", span }
  | .duplicateId id span first =>
    { message := "duplicate block id '" ++ id ++ "'", span, related := some (first, "first used here") }
  | .unusableField name span blockId =>
    { message := "field '" ++ name ++ "' must be a string, number or boolean", span,
      notes := ["in block '" ++ blockId ++ "'"] }

/-- what visiting a draft has found so far -/
structure Census where
  /-- blocks without an id of their own, counted by type -/
  generated : List (String × Nat) := []
  /-- every id given out, with the span that claimed it first -/
  owners : List (String × Span) := []
  problems : List DraftProblem := []

namespace Census

def report (c : Census) (p : DraftProblem) : Census := { c with problems := c.problems ++ [p] }

/-- claim an id; the first claim of an id keeps it -/
def claim (c : Census) (id : String) (span : Span) : Census :=
  match c.owners.lookup id with
  | some first => c.report (.duplicateId id span first)
  | none => { c with owners := c.owners ++ [(id, span)] }

/-- the number of the next block of a type that has no id of its own -/
def nextNumber (c : Census) (kind : String) : Nat := (c.generated.lookup kind).getD 0 + 1

/-- count one more block of a type without an id of its own -/
def count (c : Census) (kind : String) : Census :=
  { c with generated := (kind, c.nextNumber kind) :: c.generated.filter fun entry => entry.1 != kind }

end Census

def fieldText? : Value → Option String
  | .string _ s => some s
  | .integer _ n => some (toString n)
  | .float _ x => some x.text
  | .boolean _ b => some (toString b)
  | _ => none

namespace Draft

def trimmedKind (d : Draft) : String := trim d.kind.val

def checkKind (d : Draft) (c : Census) : Census :=
  if d.trimmedKind.isEmpty then c.report (.emptyType d.kind.span) else c

/-- the id of a block, claimed -/
def claimId (d : Draft) (c : Census) : String × Census :=
  match d.id with
  | some id => (id.val, c.claim id.val id.span)
  | none =>
    let id := d.trimmedKind ++ "#" ++ toString (c.nextNumber d.trimmedKind)
    (id, (c.count d.trimmedKind).claim id d.kind.span)

/-- the fields of the block with an id as text, those that are no scalars reported -/
def checkFields (id : String) : List (String × Located Value) → Census → List (String × String) × Census
  | [], c => ([], c)
  | (name, v) :: rest, c =>
    match fieldText? v.val with
    | some text =>
      let (fields, c) := checkFields id rest c
      ((name, text) :: fields, c)
    | none => checkFields id rest (c.report (.unusableField name v.span id))

mutual
/-- the block that a draft becomes, with no link yet -/
def build : Draft → Census → LinkedBlock × Census
  | ⟨id, kind, fields, inputs, statements⟩, c =>
    let draft : Draft := ⟨id, kind, fields, inputs, statements⟩
    let c := draft.checkKind c
    let (id, c) := draft.claimId c
    let (fields, c) := checkFields id fields c
    let (inputs, c) := buildInputs inputs c
    let (statements, c) := buildStatements statements c
    (⟨id, draft.trimmedKind, fields, inputs, statements, none, kind.span⟩, c)

def buildInputs : List (String × Draft) → Census → List (String × LinkedBlock) × Census
  | [], c => ([], c)
  | (slot, draft) :: rest, c =>
    let (block, c) := draft.build c
    let (inputs, c) := buildInputs rest c
    ((slot, block) :: inputs, c)

/-- the heads of the chains in the statement slots -/
def buildStatements : List (String × List Draft) → Census → List (String × LinkedBlock) × Census
  | [], c => ([], c)
  | (slot, chain) :: rest, c =>
    let (blocks, c) := buildBlocks chain c
    let (statements, c) := buildStatements rest c
    (LinkedBlock.hang slot statements (LinkedBlock.link blocks), c)

/-- the blocks of a chain, before they are linked -/
def buildBlocks : List Draft → Census → List LinkedBlock × Census
  | [], c => ([], c)
  | draft :: rest, c =>
    let (block, c) := draft.build c
    let (blocks, c) := buildBlocks rest c
    (block :: blocks, c)
end

/-- the head of the chain that drafts become -/
def buildChain (drafts : List Draft) (c : Census) : Option LinkedBlock × Census :=
  let (blocks, c) := buildBlocks drafts c
  (LinkedBlock.link blocks, c)

end Draft

/-- why a text is no program -/
inductive Rejection where
  | notDocument
  | misshapen (e : ShapeError)
  | problems (ps : List DraftProblem)

def Rejection.diagnostics : Rejection → List Diagnostic
  | .notDocument => [{ message := "not a TOML document", span := ⟨0, 0⟩ }]
  | .misshapen e => [{ message := trim e.misfit.message, span := e.span.getD ⟨0, 0⟩ }]
  | .problems ps => ps.map DraftProblem.diagnostic

/-- the program that a draft is, or everything that is wrong with it -/
def LinkedProgram.ofDraft (draft : DraftProgram) (sourceId : Nat) : Except (List DraftProblem) LinkedProgram :=
  let (setup, c) := Draft.buildChain draft.setup {}
  let (main, c) := Draft.buildChain draft.main c
  if c.problems.isEmpty then .ok ⟨draft.board, setup, main, sourceId⟩ else .error c.problems

namespace Program

/-- the program that a draft is, with its chains gone through -/
def ofDraft (draft : DraftProgram) (sourceId : Nat) : Except (List DraftProblem) Program :=
  (LinkedProgram.ofDraft draft sourceId).map LinkedProgram.unlinked

def parse (source : String) (sourceId : Nat) : Except Rejection Program := do
  let some entries := Toml.parse? source | .error .notDocument
  let draft ← (DraftProgram.ofEntries entries).mapError .misshapen
  (ofDraft draft sourceId).mapError .problems

end Program

end BlockSketch
