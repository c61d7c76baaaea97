/-
Linked blocks.

While a program is put together, a block has a link to the one that follows it, and a statement slot holds the head of its
chain. Blocks are linked from the last one to the first. A chain is gone through from its head along the links; `unlinked`
goes through every chain once and keeps the blocks that it meets.
-/
import BlockSketch.Block.Basic

namespace BlockSketch

/-- one block with a link to the following one; a statement slot holds the head of a chain -/
structure LinkedBlock where
  id : String
  kind : String
  fields : List (String × String)
  inputs : List (String × LinkedBlock)
  statements : List (String × LinkedBlock)
  next : Option LinkedBlock
  span : Span

namespace LinkedBlock

/-- blocks linked in order, the head of the chain they make -/
def link (blocks : List LinkedBlock) : Option LinkedBlock :=
  blocks.reverse.foldl (fun next block => some { block with next := next }) none

/-- statement slots with one more in front; a chain without a head leaves no slot -/
def hang (slot : String) (statements : List (String × LinkedBlock)) : Option LinkedBlock → List (String × LinkedBlock)
  | none => statements
  | some head => (slot, head) :: statements

mutual
/-- a block and those that its links lead to -/
def onward : LinkedBlock → List LinkedBlock
  | ⟨id, kind, fields, inputs, statements, next, span⟩ =>
    ⟨id, kind, fields, inputs, statements, next, span⟩ :: onwardFrom next

def onwardFrom : Option LinkedBlock → List LinkedBlock
  | none => []
  | some block => onward block
end

mutual
/-- a block by itself, with its chains gone through -/
def unlinked : LinkedBlock → Block
  | ⟨id, kind, fields, inputs, statements, _, span⟩ =>
    ⟨id, kind, fields, unlinkedInputs inputs, unlinkedStatements statements, span⟩

def unlinkedInputs : List (String × LinkedBlock) → List (String × Block)
  | [] => []
  | (slot, block) :: rest => (slot, unlinked block) :: unlinkedInputs rest

def unlinkedStatements : List (String × LinkedBlock) → List (String × List Block)
  | [] => []
  | (slot, head) :: rest => (slot, unlinkedOnward head) :: unlinkedStatements rest

/-- a block and those that its links lead to, each by itself -/
def unlinkedOnward : LinkedBlock → List Block
  | ⟨id, kind, fields, inputs, statements, next, span⟩ =>
    ⟨id, kind, fields, unlinkedInputs inputs, unlinkedStatements statements, span⟩ :: unlinkedFrom next

def unlinkedFrom : Option LinkedBlock → List Block
  | none => []
  | some block => unlinkedOnward block
end

end LinkedBlock

/-- a way along the links of a chain: the block that comes next -/
structure Chain where
  current : Option LinkedBlock

namespace Chain

/-- one step along the chain: the block there, and the way from there on -/
def next? (c : Chain) : Option (LinkedBlock × Chain) := c.current.map fun block => (block, ⟨block.next⟩)

def toList (c : Chain) : List LinkedBlock := LinkedBlock.onwardFrom c.current

end Chain

/-- a program whose blocks are linked: the heads of its two chains -/
structure LinkedProgram where
  board : Option String
  setup : Option LinkedBlock
  main : Option LinkedBlock
  sourceId : Nat

namespace LinkedProgram

def setupChain (p : LinkedProgram) : Chain := ⟨p.setup⟩

def mainChain (p : LinkedProgram) : Chain := ⟨p.main⟩

/-- the program with all its chains gone through -/
def unlinked (p : LinkedProgram) : Program :=
  ⟨p.board, p.setupChain.toList.map LinkedBlock.unlinked, p.mainChain.toList.map LinkedBlock.unlinked, p.sourceId⟩

end LinkedProgram

end BlockSketch
