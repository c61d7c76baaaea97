/-
What can go wrong while a sketch is generated, and which block is to blame.

A failure is first raised without a block; the innermost block it passes on its way out is recorded, and the ones
further out change nothing.
-/
import BlockSketch.Block.Basic
import BlockSketch.Board.Basic
import BlockSketch.Diagnostic

namespace BlockSketch

/-- the two ways in which a block can stand in a program -/
inductive Shape where
  | value
  | statement
  deriving DecidableEq, Repr

def Shape.phrase : Shape → String
  | .value => "a value"
  | .statement => "a statement"

/-- a reason why no sketch can be generated -/
inductive Fault where
  | pinConflict (pin : String) (existingRole : Role) (existingPurpose : String) (role : Role) (purpose : String)
  | capability (pin : String) (role : Role) (board : String)
  | unknownBlockType (kind : String)
  | missingField (kind field : String)
  | invalidField (kind field value : String)
  | wrongBlockShape (kind : String) (expected : Shape)
  | nestingTooDeep (limit : Nat)
  deriving DecidableEq, Repr

def singleQuoted (s : String) : String := "'" ++ s ++ "'"

def Fault.message : Fault → String
  | .pinConflict pin existingRole existingPurpose role purpose =>
    "pin " ++ pin ++ " is already reserved for " ++ existingPurpose ++ " (" ++ existingRole.name ++
      ") and cannot be used for " ++ purpose ++ " (" ++ role.name ++ ")"
  | .capability pin role board =>
    "pin " ++ pin ++ " cannot be used as " ++ role.name ++ " on board " ++ singleQuoted board
  | .unknownBlockType kind => "no generator registered for block type " ++ singleQuoted kind
  | .missingField kind field => "block " ++ singleQuoted kind ++ " is missing field " ++ field
  | .invalidField kind field value =>
    "block " ++ singleQuoted kind ++ " has invalid value " ++ singleQuoted value ++ " for field " ++ field
  | .wrongBlockShape kind expected => "block " ++ singleQuoted kind ++ " cannot be used as " ++ expected.phrase
  | .nestingTooDeep limit => "blocks are nested more than " ++ toString limit ++ " levels deep"

/-- a block that has to do with a failure without being to blame -/
structure Related where
  blockId : String
  span : Span
  message : String
  deriving DecidableEq, Repr

/-- a fault, the block to blame and the source it is in -/
structure Failure where
  fault : Fault
  blockId : Option String := none
  span : Option Span := none
  sourceId : Nat := 0
  related : Option Related := none
  deriving DecidableEq, Repr

namespace Failure

/-- blame a block, unless one is blamed already -/
def atBlock (e : Failure) (block : Block) (sourceId : Nat) : Failure :=
  if e.blockId.isNone then { e with blockId := some block.id, span := some block.span, sourceId } else e

/-- name another block that belongs to the matter -/
def withRelated (e : Failure) (related : Related) : Failure := { e with related := some related }

def diagnostic? (e : Failure) : Option Diagnostic :=
  e.span.map fun span =>
    { message := e.fault.message, span
      related := e.related.map fun r => (r.span, r.message)
      notes := (e.blockId.map fun id => "in block " ++ singleQuoted id).toList }

theorem atBlock_atBlock (e : Failure) (b c : Block) (i j : Nat) : (e.atBlock b i).atBlock c j = e.atBlock b i := by
  unfold atBlock
  by_cases h : e.blockId.isNone <;> simp [h]

end Failure

end BlockSketch
