/-
Recursion and induction on blocks.

A block refers to the blocks in its slots by slot name. `Block.fold` computes something for a block from what it
computes for the blocks in its slots, by structural recursion; `fold_eq` is its one equation. `Block.induct` is the
matching induction: to prove something of every block, prove it of a block whose slots hold only blocks it holds of.
-/
import BlockSketch.Block.Basic

namespace BlockSketch.Block

/-! ## Recursion -/

mutual
/-- what `f` makes of a block, given what it makes of the blocks in each slot -/
def fold {α : Type} (f : Block → (String → Option α) → (String → List α) → α) : Block → α
  | ⟨id, kind, fields, inputs, statements, span⟩ =>
    f ⟨id, kind, fields, inputs, statements, span⟩ (fun slot => (foldInputs f inputs).lookup slot)
      (fun slot => ((foldStatements f statements).lookup slot).getD [])

def foldInputs {α : Type} (f : Block → (String → Option α) → (String → List α) → α) :
    List (String × Block) → List (String × α)
  | [] => []
  | (slot, block) :: rest => (slot, fold f block) :: foldInputs f rest

def foldStatements {α : Type} (f : Block → (String → Option α) → (String → List α) → α) :
    List (String × List Block) → List (String × List α)
  | [] => []
  | (slot, chain) :: rest => (slot, foldChain f chain) :: foldStatements f rest

def foldChain {α : Type} (f : Block → (String → Option α) → (String → List α) → α) : List Block → List α
  | [] => []
  | block :: rest => fold f block :: foldChain f rest
end

variable {α : Type} (f : Block → (String → Option α) → (String → List α) → α)

theorem foldInputs_lookup (inputs : List (String × Block)) (slot : String) :
    (foldInputs f inputs).lookup slot = (inputs.lookup slot).map (fold f) := by
  induction inputs with
  | nil => rw [foldInputs]; rfl
  | cons entry rest ih =>
    obtain ⟨name, block⟩ := entry
    rw [foldInputs, List.lookup_cons, List.lookup_cons]
    cases slot == name with
    | true => rfl
    | false => exact ih

theorem foldChain_eq_map (chain : List Block) : foldChain f chain = chain.map (fold f) := by
  induction chain with
  | nil => rw [foldChain]; rfl
  | cons block rest ih => rw [foldChain, ih]; rfl

theorem foldStatements_lookup (statements : List (String × List Block)) (slot : String) :
    ((foldStatements f statements).lookup slot).getD [] = ((statements.lookup slot).getD []).map (fold f) := by
  induction statements with
  | nil => rw [foldStatements]; rfl
  | cons entry rest ih =>
    obtain ⟨name, chain⟩ := entry
    rw [foldStatements, List.lookup_cons, List.lookup_cons]
    cases slot == name with
    | true => exact foldChain_eq_map f chain
    | false => exact ih

theorem fold_eq (b : Block) :
    fold f b = f b (fun slot => (b.input? slot).map (fold f)) (fun slot => (b.statement slot).map (fold f)) := by
  obtain ⟨id, kind, fields, inputs, statements, span⟩ := b
  rw [fold]
  simp only [foldInputs_lookup, foldStatements_lookup]
  rfl

/-! ## Induction -/

theorem mem_of_lookup {β : Type} {entries : List (String × β)} {name : String} {x : β}
    (h : entries.lookup name = some x) : (name, x) ∈ entries := by
  induction entries with
  | nil => simp at h
  | cons entry rest ih =>
    obtain ⟨other, y⟩ := entry
    rw [List.lookup_cons] at h
    cases e : name == other with
    | true =>
      rw [e] at h
      have hx : y = x := by simpa using h
      have hn : name = other := by simpa using e
      rw [hx, hn]
      exact List.mem_cons_self
    | false =>
      rw [e] at h
      exact List.mem_cons_of_mem _ (ih h)

theorem sizeOf_input_lt {b c : Block} {slot : String} (h : b.input? slot = some c) : sizeOf c < sizeOf b := by
  obtain ⟨id, kind, fields, inputs, statements, span⟩ := b
  have hm : (slot, c) ∈ inputs := mem_of_lookup h
  have hs := List.sizeOf_lt_of_mem hm
  simp only [Prod.mk.sizeOf_spec] at hs
  simp only [Block.mk.sizeOf_spec]
  omega

theorem sizeOf_statement_lt {b c : Block} {slot : String} (h : c ∈ b.statement slot) : sizeOf c < sizeOf b := by
  obtain ⟨id, kind, fields, inputs, statements, span⟩ := b
  simp only [statement] at h
  cases e : statements.lookup slot with
  | none => rw [e] at h; simp at h
  | some chain =>
    rw [e] at h
    have hc := List.sizeOf_lt_of_mem h
    have hs := List.sizeOf_lt_of_mem (mem_of_lookup e)
    simp only [Option.getD_some] at hc
    simp only [Prod.mk.sizeOf_spec] at hs
    simp only [Block.mk.sizeOf_spec]
    omega

/-- what holds of a block whenever it holds of the blocks in its slots holds of every block -/
theorem induct {P : Block → Prop}
    (step : ∀ b : Block, (∀ slot c, b.input? slot = some c → P c) → (∀ slot c, c ∈ b.statement slot → P c) → P b)
    (b : Block) : P b := by
  -- the blocks in the slots are smaller terms
  induction hn : sizeOf b using Nat.strongRecOn generalizing b with
  | ind n ih =>
    subst hn
    exact step b (fun slot c h => ih _ (sizeOf_input_lt h) c rfl) (fun slot c h => ih _ (sizeOf_statement_lt h) c rfl)

end BlockSketch.Block
