/-
Truth values, comparisons, and the logical operators.
-/
import BlockSketch.Library.Math
import BlockSketch.Text.Ascii

namespace BlockSketch.Library

/-- a truth value, in letters of any case -/
def logicBoolean (block : Block) (_ : Slots) : Gen OrderedCode := do
  let value ← field block "BOOL"
  match Text.upperAscii value with
  | "TRUE" => return .atomic "true"
  | "FALSE" => return .atomic "false"
  | _ => invalidField block "BOOL" value

def comparison? : String → Option Operator
  | "EQ" => some ⟨"==", .equality⟩
  | "NEQ" => some ⟨"!=", .equality⟩
  | "LT" => some ⟨"<", .relational⟩
  | "LTE" => some ⟨"<=", .relational⟩
  | "GT" => some ⟨">", .relational⟩
  | "GTE" => some ⟨">=", .relational⟩
  | _ => none

def logicCompare (block : Block) (slots : Slots) : Gen OrderedCode := do
  let o ← operator block comparison?
  let a ← slots.valueOr "A" o.order "0"
  let b ← slots.valueOr "B" o.order.tighter "0"
  return binaryCode o a b

def connective? : String → Option Operator
  | "AND" => some ⟨"&&", .logicalAnd⟩
  | "OR" => some ⟨"||", .logicalOr⟩
  | _ => none

/-- a conjunction or a disjunction; a run of one connective needs no parentheses on either side -/
def logicOperation (block : Block) (slots : Slots) : Gen OrderedCode := do
  let o ← operator block connective?
  let a ← slots.valueOr "A" o.order "false"
  let b ← slots.valueOr "B" o.order "false"
  return binaryCode o a b

def logicNegate (_ : Block) (slots : Slots) : Gen OrderedCode := do
  let operand ← slots.valueOr "BOOL" .unaryPrefix "false"
  return ⟨"!" ++ operand, .unaryPrefix⟩

end BlockSketch.Library
