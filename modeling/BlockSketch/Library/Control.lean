/-
Branches and loops.

Branch n of a conditional hangs in the value slot `IFn` and the statement slot `DOn`. Branch 0 is always there; the
others go on from 1 as long as one of their two slots is there.
-/
import BlockSketch.Sketch.Generator

namespace BlockSketch.Library

def hasBranch (block : Block) (n : Nat) : Bool :=
  (block.input? ("IF" ++ toString n)).isSome || block.hasStatement ("DO" ++ toString n)

/-- the number of branches of a conditional; each but the first takes up a slot of its own -/
def branchCount (block : Block) : Nat :=
  1 + ((List.range' 1 (block.inputs.length + block.statements.length)).takeWhile (hasBranch block)).length

def braced (body : String) : String := "\x7b\n" ++ body ++ "\x7d"

def branch (slots : Slots) (n : Nat) : Gen String := do
  let condition ← slots.valueOr ("IF" ++ toString n) .lowest "false"
  let body ← slots.body ("DO" ++ toString n)
  return "if (" ++ condition ++ ") " ++ braced body

/-- a conditional: its branches in order, and what happens otherwise -/
def controlsIf (block : Block) (slots : Slots) : Gen String := do
  let branches ← (List.range (branchCount block)).mapM (branch slots)
  let otherwise ← if block.hasStatement "ELSE" then do pure [braced (← slots.body "ELSE")] else pure []
  return " else ".intercalate (branches ++ otherwise) ++ "\n"

def controlsRepeat (_ : Block) (slots : Slots) : Gen String := do
  let times ← slots.valueOr "TIMES" Order.relational.tighter "0"
  let counter ← Gen.distinctName "count"
  let body ← slots.body "DO"
  return "for (int " ++ counter ++ " = 0; " ++ counter ++ " < " ++ times ++ "; " ++ counter ++ "++) " ++ braced body ++
    "\n"

end BlockSketch.Library
