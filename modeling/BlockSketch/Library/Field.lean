/-
Fields that a block cannot be generated without. Blanks around a field do not count, and a field that holds nothing else
is missing.
-/
import BlockSketch.Sketch.Pass

namespace BlockSketch.Library

/-- the text of a field without blanks around it, if there is any -/
def field? (block : Block) (name : String) : Option String :=
  match (block.field? name).map Text.trim with
  | some value => if value.isEmpty then none else some value
  | none => none

/-- the text of a field that has to be there -/
def field (block : Block) (name : String) : Gen String :=
  match field? block name with
  | some value => return value
  | none => Gen.fail (.missingField block.kind name)

/-- fail because of the value of a field -/
def invalidField {α : Type} (block : Block) (name value : String) : Gen α :=
  Gen.fail (.invalidField block.kind name value)

end BlockSketch.Library
