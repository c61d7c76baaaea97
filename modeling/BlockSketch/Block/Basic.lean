/-
Blocks and programs.

A block has fields of text, value slots that hold one block each, and statement slots that hold a chain of blocks. A
chain is the list of its blocks in link order; a statement slot that is there holds at least one. Fields and slots stand
in the order of their names. The links themselves, and going along them, are in `BlockSketch.Block.Linked`: programs are
built linked, and generation sees their chains gone through.
-/
import BlockSketch.Text.Span

namespace BlockSketch

/-- one block with everything that hangs in its slots -/
structure Block where
  id : String
  kind : String
  fields : List (String × String)
  inputs : List (String × Block)
  statements : List (String × List Block)
  span : Span

/-- the two chains of a program, the board it asks for, and the source it was read from -/
structure Program where
  board : Option String
  setup : List Block
  main : List Block
  sourceId : Nat

namespace Block

def field? (b : Block) (name : String) : Option String := b.fields.lookup name

def input? (b : Block) (slot : String) : Option Block := b.inputs.lookup slot

/-- the chain in a statement slot; empty if the slot is absent -/
def statement (b : Block) (slot : String) : List Block := (b.statements.lookup slot).getD []

def hasStatement (b : Block) (slot : String) : Bool := (b.statements.lookup slot).isSome

/-! ## Equality -/

mutual
def decEq : (a b : Block) → Decidable (a = b)
  | ⟨id, kind, fields, inputs, statements, span⟩, ⟨id', kind', fields', inputs', statements', span'⟩ =>
    have := decEqInputs inputs inputs'
    have := decEqStatements statements statements'
    decidable_of_iff
      (id = id' ∧ kind = kind' ∧ fields = fields' ∧ inputs = inputs' ∧ statements = statements' ∧ span = span')
      (by simp)
termination_by structural a => a

def decEqInputs : (a b : List (String × Block)) → Decidable (a = b)
  | [], [] => isTrue rfl
  | [], _ :: _ => isFalse (by simp)
  | _ :: _, [] => isFalse (by simp)
  | (slot, x) :: rest, (slot', x') :: rest' =>
    have := decEq x x'
    have := decEqInputs rest rest'
    decidable_of_iff ((slot = slot' ∧ x = x') ∧ rest = rest') (by simp)
termination_by structural a => a

def decEqStatements : (a b : List (String × List Block)) → Decidable (a = b)
  | [], [] => isTrue rfl
  | [], _ :: _ => isFalse (by simp)
  | _ :: _, [] => isFalse (by simp)
  | (slot, xs) :: rest, (slot', xs') :: rest' =>
    have := decEqChain xs xs'
    have := decEqStatements rest rest'
    decidable_of_iff ((slot = slot' ∧ xs = xs') ∧ rest = rest') (by simp)
termination_by structural a => a

def decEqChain : (a b : List Block) → Decidable (a = b)
  | [], [] => isTrue rfl
  | [], _ :: _ => isFalse (by simp)
  | _ :: _, [] => isFalse (by simp)
  | x :: rest, x' :: rest' =>
    have := decEq x x'
    have := decEqChain rest rest'
    decidable_of_iff (x = x' ∧ rest = rest') (by simp)
termination_by structural a => a
end

instance : DecidableEq Block := decEq

end Block

end BlockSketch
