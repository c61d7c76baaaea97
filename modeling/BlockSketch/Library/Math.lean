/-
Numbers and arithmetic. A number stands in the sketch as it was written; only finite decimal numbers are taken. The right
operand of every operator is asked for one level tighter, because none of them may be regrouped to the right.
-/
import BlockSketch.Decimal.Numeral
import BlockSketch.Library.Field
import BlockSketch.Sketch.Generator

namespace BlockSketch.Library

/-- a text that is a finite decimal number -/
def isNumber (text : String) : Bool := (Decimal.Numeral.parse? text.toList).any (·.isFinite)

/-- a number; behind a minus sign it binds like any other expression behind a sign -/
def mathNumber (block : Block) (_ : Slots) : Gen OrderedCode := do
  let num ← field block "NUM"
  if !isNumber num then invalidField block "NUM" num
  return ⟨num, if num.toList.head? == some '-' then .unaryPrefix else .atomic⟩

/-- an operator between two operands -/
structure Operator where
  sign : String
  order : Order

def arithmeticOperator? : String → Option Operator
  | "ADD" => some ⟨"+", .additive⟩
  | "MINUS" => some ⟨"-", .additive⟩
  | "MULTIPLY" => some ⟨"*", .multiplicative⟩
  | "DIVIDE" => some ⟨"/", .multiplicative⟩
  | "MODULO" => some ⟨"%", .multiplicative⟩
  | _ => none

/-- the operator that the field `OP` names -/
def operator (block : Block) (named : String → Option Operator) : Gen Operator := do
  let op ← field block "OP"
  match named op with
  | some o => return o
  | none => invalidField block "OP" op

/-- two operands with an operator between them -/
def binaryCode (o : Operator) (a b : String) : OrderedCode := ⟨a ++ " " ++ o.sign ++ " " ++ b, o.order⟩

def mathArithmetic (block : Block) (slots : Slots) : Gen OrderedCode := do
  let o ← operator block arithmeticOperator?
  let a ← slots.valueOr "A" o.order "0"
  let b ← slots.valueOr "B" o.order.tighter "0"
  return binaryCode o a b

end BlockSketch.Library
