/-
Generators of blocks, tables of them, and the walk through a program.

A generator sees its own block and may ask for the code of what hangs in the block's slots; the code is made when it is
asked for. `valueCode` and `chainCode` walk blocks by recursion on the block tree, so every slot a generator can ask for
is a smaller tree. `valueCode_eq`, `statementCode_eq` and `chainCode_cons` say what a walk does in terms of the slots of
a block.
-/
import BlockSketch.Block.Basic
import BlockSketch.Sketch.Pass
import BlockSketch.Text.Sorted

namespace BlockSketch

/-- the code of what hangs in the slots of a block, made when asked for -/
structure Slots where
  /-- the expression in a value slot, if the slot is there -/
  value? : String → Option (Gen OrderedCode)
  /-- the statements in a statement slot, none if the slot is absent -/
  chain : String → Gen String

namespace Slots

/-- the expression in a value slot where a strength is required, or a text in place of a missing one -/
def valueOr (slots : Slots) (slot : String) (required : Order) (default : String) : Gen String :=
  match slots.value? slot with
  | none => return default
  | some code => do return (← code).embed required

/-- the statements in a statement slot, indented by one level -/
def body (slots : Slots) (slot : String) : Gen String := do Gen.indented (← slots.chain slot)

end Slots

/-- how the blocks of one type become code -/
inductive Generator where
  | value (generate : Block → Slots → Gen OrderedCode)
  | statement (generate : Block → Slots → Gen String)

def Generator.shape : Generator → Shape
  | .value _ => .value
  | .statement _ => .statement

/-- generators by block type -/
structure Table where
  entries : List (String × Generator) := []

namespace Table

def get? (t : Table) (kind : String) : Option Generator := t.entries.lookup kind

/-- the table with a generator for a block type in place of the one it had -/
def register (t : Table) (kind : String) (g : Generator) : Table :=
  ⟨t.entries.filter (fun entry => entry.1 != kind) ++ [(kind, g)]⟩

def kinds (t : Table) : List String := Text.sortNames (t.entries.map (·.1))

end Table

/-! ## The walk -/

def generateValue (table : Table) (block : Block) (slots : Slots) : Gen OrderedCode :=
  Gen.blaming block <| Gen.descend <|
    match table.get? block.kind with
    | some (.value generate) => generate block slots
    | some (.statement _) => Gen.fail (.wrongBlockShape block.kind .value)
    | none => Gen.fail (.unknownBlockType block.kind)

/-- a statement, ended by a newline unless there is nothing of it -/
def endLine (code : String) : String :=
  if code.isEmpty || code.toList.getLast? == some '\n' then code else code ++ "\n"

def generateStatement (table : Table) (block : Block) (slots : Slots) : Gen String := do
  Gen.note (.statement block.id block.kind)
  let code ← Gen.blaming block <| Gen.descend <|
    match table.get? block.kind with
    | some (.statement generate) => generate block slots
    | some (.value _) => Gen.fail (.wrongBlockShape block.kind .statement)
    | none => Gen.fail (.unknownBlockType block.kind)
  return endLine code

mutual
def valueCode (table : Table) : Block → Gen OrderedCode
  | ⟨id, kind, fields, inputs, statements, span⟩ => fun p =>
    generateValue table ⟨id, kind, fields, inputs, statements, span⟩
      ⟨fun slot => (inputCodes table inputs).lookup slot,
        fun slot => ((statementCodes table statements).lookup slot).getD (pure "")⟩ p

def statementCode (table : Table) : Block → Gen String
  | ⟨id, kind, fields, inputs, statements, span⟩ => fun p =>
    generateStatement table ⟨id, kind, fields, inputs, statements, span⟩
      ⟨fun slot => (inputCodes table inputs).lookup slot,
        fun slot => ((statementCodes table statements).lookup slot).getD (pure "")⟩ p

def inputCodes (table : Table) : List (String × Block) → List (String × Gen OrderedCode)
  | [] => []
  | (slot, block) :: rest => (slot, valueCode table block) :: inputCodes table rest

def statementCodes (table : Table) : List (String × List Block) → List (String × Gen String)
  | [] => []
  | (slot, chain) :: rest => (slot, chainCode table chain) :: statementCodes table rest

/-- the statements of a chain in link order -/
def chainCode (table : Table) : List Block → Gen String
  | [] => pure ""
  | block :: rest => do
    let first ← statementCode table block
    let others ← chainCode table rest
    return first ++ others
end

def Block.slots (block : Block) (table : Table) : Slots where
  value? slot := (block.input? slot).map (valueCode table)
  chain slot := chainCode table (block.statement slot)

theorem inputCodes_lookup (table : Table) (inputs : List (String × Block)) (slot : String) :
    (inputCodes table inputs).lookup slot = (inputs.lookup slot).map (valueCode table) := by
  induction inputs with
  | nil => rw [inputCodes]; rfl
  | cons entry rest ih =>
    obtain ⟨name, block⟩ := entry
    rw [inputCodes, List.lookup_cons, List.lookup_cons]
    cases slot == name with
    | true => rfl
    | false => exact ih

theorem statementCodes_lookup (table : Table) (statements : List (String × List Block)) (slot : String) :
    ((statementCodes table statements).lookup slot).getD (pure "") =
      chainCode table ((statements.lookup slot).getD []) := by
  induction statements with
  | nil => rw [statementCodes, List.lookup_nil, List.lookup_nil]; simp [chainCode]
  | cons entry rest ih =>
    obtain ⟨name, chain⟩ := entry
    rw [statementCodes, List.lookup_cons, List.lookup_cons]
    cases slot == name with
    | true => rfl
    | false => exact ih

theorem valueCode_eq (table : Table) (block : Block) :
    valueCode table block = generateValue table block (block.slots table) := by
  obtain ⟨id, kind, fields, inputs, statements, span⟩ := block
  rw [valueCode]
  simp only [Block.slots, Block.input?, Block.statement, inputCodes_lookup, statementCodes_lookup]
  rfl

theorem statementCode_eq (table : Table) (block : Block) :
    statementCode table block = generateStatement table block (block.slots table) := by
  obtain ⟨id, kind, fields, inputs, statements, span⟩ := block
  rw [statementCode]
  simp only [Block.slots, Block.input?, Block.statement, inputCodes_lookup, statementCodes_lookup]
  rfl

theorem chainCode_cons (table : Table) (block : Block) (rest : List Block) :
    chainCode table (block :: rest) = do
      let first ← statementCode table block
      let others ← chainCode table rest
      return first ++ others := by
  rw [chainCode]

/-! ## Whole programs -/

/-- the setup chain, then the main chain, then the layout; setup statements form one fragment -/
def runProgram (table : Table) (program : Program) : Gen String := do
  modify fun p => { p with sourceId := program.sourceId }
  Gen.note (.passStarted (← get).board.name)
  let setup ← chainCode table program.setup
  if !setup.isEmpty then Gen.addSetup "user_setup" setup false
  let main ← chainCode table program.main
  Gen.finish main

/-- the sketch of a program, or the failure, with the notes taken on the way -/
def Program.generate (program : Program) (board : Board) (table : Table) (indent : Nat) :
    Except Failure String × List Event :=
  match runProgram table program { board, indent } with
  | .ok sketch p => (.ok sketch, p.events)
  | .error e p => (.error e, p.events)

end BlockSketch
