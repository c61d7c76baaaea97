/-
Pins and who claimed them.

A claim succeeds if the pin can play the role on the board and nobody claimed the pin for another role. Several claims of
one pin for one role share it; the first stays on record. Claims are never given back.
-/
import BlockSketch.Sketch.Fault

namespace BlockSketch

/-- the block that made a claim -/
structure Claimant where
  blockId : String
  span : Span
  deriving DecidableEq, Repr

/-- a pin, the role it is claimed for, and why -/
structure Claim where
  pin : String
  role : Role
  purpose : String
  claimant : Option Claimant := none
  deriving DecidableEq, Repr

/-- the claims that succeeded first for their pins, in that order -/
structure PinTable where
  claims : List Claim := []
  deriving DecidableEq, Repr

namespace PinTable

def get? (t : PinTable) (pin : String) : Option Claim := t.claims.find? fun c => c.pin == pin

def size (t : PinTable) : Nat := t.claims.length

def claim (t : PinTable) (board : Board) (c : Claim) : Except Fault PinTable :=
  if !board.supports c.pin c.role then .error (.capability c.pin c.role board.name)
  else
    match t.get? c.pin with
    | none => .ok ⟨t.claims ++ [c]⟩
    | some existing =>
      if existing.role = c.role then .ok t
      else .error (.pinConflict c.pin existing.role existing.purpose c.role c.purpose)

end PinTable

end BlockSketch
