/-
Binding strength of expressions.

An expression carries the strength with which it binds. Put where a certain strength is required, it is wrapped in
parentheses exactly when it binds more weakly.
-/
namespace BlockSketch

/-- binding strength, tightest first -/
inductive Order where
  | atomic
  | unaryPostfix
  | unaryPrefix
  | multiplicative
  | additive
  | shift
  | relational
  | equality
  | bitwiseAnd
  | bitwiseXor
  | bitwiseOr
  | logicalAnd
  | logicalOr
  | conditional
  | assignment
  | lowest
  deriving DecidableEq, Repr, Inhabited

namespace Order

/-- distance from the tightest strength -/
def rank : Order → Nat
  | .atomic => 0
  | .unaryPostfix => 1
  | .unaryPrefix => 2
  | .multiplicative => 3
  | .additive => 4
  | .shift => 5
  | .relational => 6
  | .equality => 7
  | .bitwiseAnd => 8
  | .bitwiseXor => 9
  | .bitwiseOr => 10
  | .logicalAnd => 11
  | .logicalOr => 12
  | .conditional => 13
  | .assignment => 14
  | .lowest => 15

def all : List Order :=
  [.atomic, .unaryPostfix, .unaryPrefix, .multiplicative, .additive, .shift, .relational, .equality, .bitwiseAnd,
   .bitwiseXor, .bitwiseOr, .logicalAnd, .logicalOr, .conditional, .assignment, .lowest]

/-- an expression of this strength has to be wrapped where `required` is asked for -/
def bindsWeakerThan (o required : Order) : Bool := required.rank < o.rank

/-- the next tighter strength, for an operand that may not be regrouped; nothing is tighter than `atomic` -/
def tighter : Order → Order
  | .atomic => .atomic
  | .unaryPostfix => .atomic
  | .unaryPrefix => .unaryPostfix
  | .multiplicative => .unaryPrefix
  | .additive => .multiplicative
  | .shift => .additive
  | .relational => .shift
  | .equality => .relational
  | .bitwiseAnd => .equality
  | .bitwiseXor => .bitwiseAnd
  | .bitwiseOr => .bitwiseXor
  | .logicalAnd => .bitwiseOr
  | .logicalOr => .logicalAnd
  | .conditional => .logicalOr
  | .assignment => .conditional
  | .lowest => .assignment

theorem rank_injective {a b : Order} (h : a.rank = b.rank) : a = b := by
  cases a <;> cases b <;> simp_all [rank]

theorem rank_tighter (o : Order) : o.tighter.rank = o.rank - 1 := by
  cases o <;> rfl

end Order

/-- an expression and how strongly it binds -/
structure OrderedCode where
  text : String
  order : Order
  deriving DecidableEq, Repr

namespace OrderedCode

/-- an expression that never needs parentheses -/
def atomic (text : String) : OrderedCode := ⟨text, .atomic⟩

/-- the expression where `required` is asked for -/
def embed (code : OrderedCode) (required : Order) : String :=
  if code.order.bindsWeakerThan required then "(" ++ code.text ++ ")" else code.text

theorem embed_atomic (text : String) (required : Order) : (atomic text).embed required = text := by
  simp [atomic, embed, Order.bindsWeakerThan, Order.rank]

end OrderedCode

end BlockSketch
