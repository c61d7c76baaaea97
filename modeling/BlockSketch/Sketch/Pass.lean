/-
The state of one generation pass and the steps a block's generator can take in it.

A step either gives a result or fails, and the state goes on in both cases: what was contributed and claimed before a
failure stays. Blocks lie inside one another up to `Pass.maxDepth` levels; `descend` goes one level down and comes back
up whatever the outcome.
-/
import BlockSketch.Sketch.Journal
import BlockSketch.Sketch.Layout
import BlockSketch.Sketch.Order
import BlockSketch.Sketch.Pin

namespace BlockSketch

/-- what one pass has gathered -/
structure Pass where
  board : Board
  /-- blanks per level of indentation -/
  indent : Nat
  sourceId : Nat := 0
  registry : Registry := {}
  pins : PinTable := {}
  /-- how often each name was asked for -/
  names : List (String × Nat) := []
  /-- how many blocks are being generated inside one another -/
  depth : Nat := 0
  /-- notes, the newest first -/
  journal : List Event := []

/-- a step of a pass: a result or a failure, and the state afterwards -/
abbrev Gen := EStateM Failure Pass

namespace Pass

/-- how many levels of blocks may lie inside one another -/
def maxDepth : Nat := 256

/-- the notes in the order in which they were taken -/
def events (p : Pass) : List Event := p.journal.reverse

def noted (p : Pass) (e : Event) : Pass := { p with journal := e :: p.journal }

def uses (p : Pass) (base : String) : Nat := (p.names.lookup base).getD 0

def countUse (p : Pass) (base : String) : Pass :=
  { p with names := (base, p.uses base + 1) :: p.names.filter fun entry => entry.1 != base }

end Pass

namespace Gen

def note (e : Event) : Gen Unit := modify (·.noted e)

/-- fail, with no block to blame yet -/
def fail {α : Type} (fault : Fault) : Gen α := throw { fault }

/-- contribute a fragment; whether it was stored -/
def contribute (s : Section) (key text : String) (runFirst : Bool) : Gen Bool := do
  let p ← get
  let (stored, registry) := p.registry.contribute s key text runFirst
  set { p with registry }
  note (if stored then .fragmentStored s key text runFirst else .fragmentPresent s key text runFirst)
  return stored

def addInclude (key text : String) : Gen Unit := do
  let _ ← contribute .includes key text false

def addDeclaration (key text : String) : Gen Unit := do
  let _ ← contribute .declarations key text false

/-- contribute to the setup routine -/
def addSetup (key text : String) (runFirst : Bool) : Gen Unit := do
  let _ ← contribute .setup key text runFirst

/-- contribute to the top of the main routine -/
def addBody (key text : String) : Gen Unit := do
  let _ ← contribute .body key text false

/-- the failure of a claim that a block made, with the block that claimed the pin first if the roles differ -/
def claimFailure (p : Pass) (block : Block) (pin : String) (fault : Fault) : Failure :=
  let e := ({ fault } : Failure).atBlock block p.sourceId
  match fault, (p.pins.get? pin).bind (·.claimant) with
  | .pinConflict .., some first =>
    e.withRelated ⟨first.blockId, first.span, "pin " ++ pin ++ " first reserved here"⟩
  | _, _ => e

/-- claim a pin on behalf of a block -/
def reservePin (block : Block) (pin : String) (role : Role) (purpose : String) : Gen Unit := do
  let p ← get
  match p.pins.claim p.board ⟨pin, role, purpose, some ⟨block.id, block.span⟩⟩ with
  | .ok pins => set { p with pins }
  | .error fault => throw (claimFailure p block pin fault)

/-- a name made from `base`: itself the first time, then with the number of the use behind it -/
def distinctName (base : String) : Gen String := do
  let p ← get
  let n := p.uses base + 1
  set (p.countUse base)
  return if n = 1 then base else base ++ toString n

/-- code indented by one level -/
def indented (code : String) : Gen String := do return Text.indentLines (← get).indent code

/-- do something one level further down -/
def descend {α : Type} (x : Gen α) : Gen α := fun p =>
  if Pass.maxDepth ≤ p.depth then .error { fault := .nestingTooDeep Pass.maxDepth } p
  else
    match x { p with depth := p.depth + 1 } with
    | .ok a q => .ok a { q with depth := q.depth - 1 }
    | .error e q => .error e { q with depth := q.depth - 1 }

def blaming {α : Type} (block : Block) (x : Gen α) : Gen α := fun p =>
  match x p with
  | .ok a q => .ok a q
  | .error e q => .error (e.atBlock block p.sourceId) q

/-- end the traversal and lay out the sketch around the main code -/
def finish (main : String) : Gen String := do
  let p ← get
  note (.traversalComplete p.pins.size)
  let r := p.registry
  note (.assembling (r.size .includes) (r.size .declarations) (r.size .setup) (r.size .body))
  return r.assemble p.indent main

end Gen

end BlockSketch
