/-
Visiting a draft, one draft at a time.

`Program.blocks` lists every block of a program, at any nesting, in the order in which a draft is visited: a block before
the blocks in its slots, value slots before statement slots. `DraftProgram.drafts` lists the drafts they come from in the
same order. What happens to the census when a draft is entered does not depend on its slots, so visiting comes down to
entering the drafts of that list one after the other.

Results:
- `visit_eq_enterAll`: visiting a draft is entering all drafts in it, and its blocks have the ids they get;
- `enterAll_drafts`: so it is with the chains of a program;
- `ofDraft_eq`: when a draft becomes a program, and which one.
-/
import BlockSketch.Proofs.Linking

namespace BlockSketch

/-! ## All blocks -/

namespace Block

mutual
/-- a block and all blocks inside it -/
def all : Block → List Block
  | ⟨id, kind, fields, inputs, statements, span⟩ =>
    ⟨id, kind, fields, inputs, statements, span⟩ :: (allInputs inputs ++ allStatements statements)

def allInputs : List (String × Block) → List Block
  | [] => []
  | (_, block) :: rest => all block ++ allInputs rest

def allStatements : List (String × List Block) → List Block
  | [] => []
  | (_, chain) :: rest => allChain chain ++ allStatements rest

def allChain : List Block → List Block
  | [] => []
  | block :: rest => all block ++ allChain rest
end

theorem all_eq (b : Block) : b.all = b :: (allInputs b.inputs ++ allStatements b.statements) := by
  obtain ⟨id, kind, fields, inputs, statements, span⟩ := b
  rw [all]

theorem mem_all_self (b : Block) : b ∈ b.all := by
  rw [all_eq]
  exact List.mem_cons_self

theorem mem_allInputs {b c : Block} {inputs : List (String × Block)} {slot : String} (h : (slot, b) ∈ inputs)
    (hc : c ∈ b.all) : c ∈ allInputs inputs := by
  induction inputs with
  | nil => cases h
  | cons entry rest ih =>
    obtain ⟨name, block⟩ := entry
    rw [allInputs, List.mem_append]
    rcases List.mem_cons.1 h with h | h
    · cases h
      exact .inl hc
    · exact .inr (ih h)

theorem mem_allChain {b c : Block} {chain : List Block} (h : b ∈ chain) (hc : c ∈ b.all) : c ∈ allChain chain := by
  induction chain with
  | nil => cases h
  | cons block rest ih =>
    rw [allChain, List.mem_append]
    rcases List.mem_cons.1 h with rfl | h
    · exact .inl hc
    · exact .inr (ih h)

theorem mem_allStatements {b c : Block} {statements : List (String × List Block)} {slot : String} {chain : List Block}
    (h : (slot, chain) ∈ statements) (hb : b ∈ chain) (hc : c ∈ b.all) : c ∈ allStatements statements := by
  induction statements with
  | nil => cases h
  | cons entry rest ih =>
    obtain ⟨name, blocks⟩ := entry
    rw [allStatements, List.mem_append]
    rcases List.mem_cons.1 h with h | h
    · cases h
      exact .inl (mem_allChain hb hc)
    · exact .inr (ih h)

end Block

/-- all blocks of a program, at any nesting -/
def Program.blocks (program : Program) : List Block := Block.allChain program.setup ++ Block.allChain program.main

/-! ## All drafts -/

namespace Draft

mutual
/-- a draft and all drafts inside it, in the order in which they are visited -/
def all : Draft → List Draft
  | ⟨id, kind, fields, inputs, statements⟩ =>
    ⟨id, kind, fields, inputs, statements⟩ :: (allInputs inputs ++ allStatements statements)

def allInputs : List (String × Draft) → List Draft
  | [] => []
  | (_, draft) :: rest => all draft ++ allInputs rest

def allStatements : List (String × List Draft) → List Draft
  | [] => []
  | (_, chain) :: rest => allChain chain ++ allStatements rest

def allChain : List Draft → List Draft
  | [] => []
  | draft :: rest => all draft ++ allChain rest
end

/-- what is done about a draft before its slots are visited: its type is checked, its id claimed, its fields checked -/
def enter (d : Draft) (c : Census) : String × Census :=
  let (id, c) := d.claimId (d.checkKind c)
  (id, (checkFields id d.fields c).2)

/-- enter drafts one after the other; the ids they get -/
def enterAll : List Draft → Census → List String × Census
  | [], c => ([], c)
  | d :: rest, c => ((d.enter c).1 :: (enterAll rest (d.enter c).2).1, (enterAll rest (d.enter c).2).2)

theorem enterAll_append (xs ys : List Draft) (c : Census) :
    enterAll (xs ++ ys) c =
      ((enterAll xs c).1 ++ (enterAll ys (enterAll xs c).2).1, (enterAll ys (enterAll xs c).2).2) := by
  induction xs generalizing c with
  | nil => rfl
  | cons d rest ih => rw [List.cons_append, enterAll, ih, enterAll, List.cons_append]

/-- a chain without blocks leaves no slot, and has no blocks either -/
theorem allStatements_cons (slot : String) (chain : List Block) (statements : List (String × List Block)) :
    Block.allStatements (if chain.isEmpty then statements else (slot, chain) :: statements) =
      Block.allChain chain ++ Block.allStatements statements := by
  cases chain with
  | nil => rfl
  | cons b rest => rw [List.isEmpty_cons, if_neg (by simp), Block.allStatements]

mutual
/-- visiting a draft is entering all drafts in it, and its blocks have the ids they get -/
theorem visit_eq_enterAll : ∀ (d : Draft) (c : Census),
    enterAll d.all c = ((d.visit c).1.all.map Block.id, (d.visit c).2)
  | ⟨id, kind, fields, inputs, statements⟩, c => by
    rw [all, enterAll, enterAll_append, visitInputs_eq_enterAll, visitStatements_eq_enterAll, visit, Block.all,
      List.map_cons, List.map_append]
    rfl

theorem visitInputs_eq_enterAll : ∀ (inputs : List (String × Draft)) (c : Census),
    enterAll (allInputs inputs) c = ((Block.allInputs (visitInputs inputs c).1).map Block.id, (visitInputs inputs c).2)
  | [], c => rfl
  | (slot, draft) :: rest, c => by
    rw [allInputs, enterAll_append, visit_eq_enterAll, visitInputs_eq_enterAll, visitInputs, Block.allInputs,
      List.map_append]

theorem visitStatements_eq_enterAll : ∀ (statements : List (String × List Draft)) (c : Census),
    enterAll (allStatements statements) c =
      ((Block.allStatements (visitStatements statements c).1).map Block.id, (visitStatements statements c).2)
  | [], c => rfl
  | (slot, chain) :: rest, c => by
    rw [allStatements, enterAll_append, visitChain_eq_enterAll, visitStatements_eq_enterAll, visitStatements,
      allStatements_cons, List.map_append]

theorem visitChain_eq_enterAll : ∀ (chain : List Draft) (c : Census),
    enterAll (allChain chain) c = ((Block.allChain (visitChain chain c).1).map Block.id, (visitChain chain c).2)
  | [], c => rfl
  | draft :: rest, c => by
    rw [allChain, enterAll_append, visit_eq_enterAll, visitChain_eq_enterAll, visitChain, Block.allChain,
      List.map_append]
end

end Draft

/-- all drafts of a program, in the order in which they are visited -/
def DraftProgram.drafts (draft : DraftProgram) : List Draft := Draft.allChain draft.setup ++ Draft.allChain draft.main

/-- what visiting all drafts of a program has found -/
def DraftProgram.census (draft : DraftProgram) : Census := (Draft.enterAll draft.drafts {}).2

/-- the program that visiting a draft makes, whatever is wrong with the draft -/
def DraftProgram.visited (draft : DraftProgram) (sourceId : Nat) : Program where
  board := draft.board
  setup := (Draft.visitChain draft.setup {}).1
  main := (Draft.visitChain draft.main (Draft.visitChain draft.setup {}).2).1
  sourceId := sourceId

theorem DraftProgram.enterAll_drafts (draft : DraftProgram) (sourceId : Nat) :
    Draft.enterAll draft.drafts {} = ((draft.visited sourceId).blocks.map Block.id,
      (Draft.visitChain draft.main (Draft.visitChain draft.setup {}).2).2) := by
  rw [drafts, Draft.enterAll_append, Draft.visitChain_eq_enterAll, Draft.visitChain_eq_enterAll, Program.blocks,
    List.map_append]
  rfl

theorem Program.ofDraft_eq (draft : DraftProgram) (sourceId : Nat) :
    Program.ofDraft draft sourceId =
      if draft.census.problems = [] then .ok (draft.visited sourceId) else .error draft.census.problems := by
  rw [DraftProgram.census, DraftProgram.enterAll_drafts draft sourceId, ofDraft_eq_visits]
  simp only [List.isEmpty_iff]
  rfl

theorem Program.ofDraft_eq_ok_iff {draft : DraftProgram} {sourceId : Nat} {program : Program} :
    Program.ofDraft draft sourceId = .ok program ↔ draft.census.problems = [] ∧ program = draft.visited sourceId := by
  rw [ofDraft_eq]
  split
  · rename_i h
    simp only [h, Except.ok.injEq, true_and]
    exact eq_comm
  · rename_i h
    simp [h]

theorem Program.ofDraft_eq_error_iff {draft : DraftProgram} {sourceId : Nat} {ps : List DraftProblem} :
    Program.ofDraft draft sourceId = .error ps ↔ draft.census.problems ≠ [] ∧ ps = draft.census.problems := by
  rw [ofDraft_eq]
  split
  · rename_i h
    simp [h]
  · rename_i h
    simp only [Ne, h, Except.error.injEq, not_false_eq_true, true_and]
    exact eq_comm

end BlockSketch
