/-
Blocks are linked in order, and no link is lost.

Going through a linked chain meets the blocks that were linked, in their order. Apart from its link each of them is the
block it was, so the chains of a program can be taken as lists: `Draft.visit` turns drafts into blocks without ever
linking them, and comes to the same as building linked blocks and going through their chains.

Results:
- `link_cons`: linking goes from the last block to the first, and still the first one is the head;
- `toList_link`: a linked chain enumerates its blocks;
- `build_unlinked`: building linked blocks and going through their chains is visiting the drafts;
- `ofDraft_eq_visits`: so it is with whole programs.
-/
import BlockSketch.Block.Program

namespace BlockSketch

namespace LinkedBlock

/-! ## Chains -/

/-- a block without its link -/
def alone (b : LinkedBlock) : LinkedBlock := { b with next := none }

/-- the head of a chain is its first block, linked to the head of the others -/
theorem link_cons (b : LinkedBlock) (rest : List LinkedBlock) : link (b :: rest) = some { b with next := link rest } := by
  rw [link, List.reverse_cons, List.foldl_append]
  rfl

theorem onward_eq (b : LinkedBlock) : b.onward = b :: onwardFrom b.next := by
  obtain ⟨id, kind, fields, inputs, statements, next, span⟩ := b
  rw [onward]

end LinkedBlock

/-- the blocks of a chain are met one step after the other -/
theorem Chain.toList_eq (c : Chain) :
    c.toList = match c.next? with
      | none => []
      | some (block, rest) => block :: rest.toList := by
  obtain ⟨_ | block⟩ := c
  · rfl
  · exact block.onward_eq

namespace LinkedBlock

/-- **A linked chain enumerates its blocks**, in order, each as it was but for its link. -/
theorem toList_link (blocks : List LinkedBlock) : (Chain.mk (link blocks)).toList.map alone = blocks.map alone := by
  induction blocks with
  | nil => rfl
  | cons b rest ih =>
    have hstep : (Chain.mk (link (b :: rest))).toList = { b with next := link rest } :: (Chain.mk (link rest)).toList := by
      rw [link_cons, Chain.toList_eq]
      rfl
    rw [hstep, List.map_cons, ih]
    rfl

theorem unlinked_alone (b : LinkedBlock) : b.alone.unlinked = b.unlinked := by
  obtain ⟨id, kind, fields, inputs, statements, next, span⟩ := b
  rw [alone, unlinked, unlinked]

theorem unlinked_id (b : LinkedBlock) : b.unlinked.id = b.id := by
  obtain ⟨id, kind, fields, inputs, statements, next, span⟩ := b
  rw [unlinked]

/-- **The blocks of a linked chain by themselves** are those that were linked. -/
theorem map_unlinked_link (blocks : List LinkedBlock) :
    (Chain.mk (link blocks)).toList.map unlinked = blocks.map unlinked := by
  have hforget : unlinked = unlinked ∘ alone := funext fun b => (unlinked_alone b).symm
  rw [hforget, ← List.map_map, toList_link, List.map_map]

mutual
theorem unlinkedOnward_eq : ∀ b : LinkedBlock, b.unlinkedOnward = b.onward.map unlinked
  | ⟨id, kind, fields, inputs, statements, next, span⟩ => by
    rw [unlinkedOnward, onward, List.map_cons, unlinkedFrom_eq next, unlinked]
    rfl

theorem unlinkedFrom_eq : ∀ head : Option LinkedBlock, unlinkedFrom head = (Chain.mk head).toList.map unlinked
  | none => rfl
  | some b => unlinkedOnward_eq b
end

/-- a slot is filled with a chain if there are blocks for it -/
theorem unlinkedStatements_hang (slot : String) (blocks : List LinkedBlock) (statements : List (String × LinkedBlock)) :
    unlinkedStatements (hang slot statements (link blocks)) =
      if (blocks.map unlinked).isEmpty then unlinkedStatements statements
      else (slot, blocks.map unlinked) :: unlinkedStatements statements := by
  cases blocks with
  | nil => rfl
  | cons b rest =>
    rw [← map_unlinked_link, ← unlinkedFrom_eq, link_cons]
    rfl

end LinkedBlock

/-! ## Visiting without links -/

namespace Draft

mutual
/-- the block that a draft becomes -/
def visit : Draft → Census → Block × Census
  | ⟨id, kind, fields, inputs, statements⟩, c =>
    let draft : Draft := ⟨id, kind, fields, inputs, statements⟩
    let c := draft.checkKind c
    let (id, c) := draft.claimId c
    let (fields, c) := checkFields id fields c
    let (inputs, c) := visitInputs inputs c
    let (statements, c) := visitStatements statements c
    (⟨id, draft.trimmedKind, fields, inputs, statements, kind.span⟩, c)

def visitInputs : List (String × Draft) → Census → List (String × Block) × Census
  | [], c => ([], c)
  | (slot, draft) :: rest, c =>
    let (block, c) := draft.visit c
    let (inputs, c) := visitInputs rest c
    ((slot, block) :: inputs, c)

/-- the chains in the statement slots; an empty chain leaves no slot -/
def visitStatements : List (String × List Draft) → Census → List (String × List Block) × Census
  | [], c => ([], c)
  | (slot, chain) :: rest, c =>
    let (blocks, c) := visitChain chain c
    let (statements, c) := visitStatements rest c
    (if blocks.isEmpty then statements else (slot, blocks) :: statements, c)

def visitChain : List Draft → Census → List Block × Census
  | [], c => ([], c)
  | draft :: rest, c =>
    let (block, c) := draft.visit c
    let (blocks, c) := visitChain rest c
    (block :: blocks, c)
end

mutual
/-- **Building a linked block** and going through the chains in it is visiting the draft. -/
theorem build_unlinked : ∀ (d : Draft) (c : Census), ((d.build c).1.unlinked, (d.build c).2) = d.visit c
  | ⟨id, kind, fields, inputs, statements⟩, c => by
    rw [build, visit]
    simp only [LinkedBlock.unlinked, ← buildInputs_unlinked, ← buildStatements_unlinked]

theorem buildInputs_unlinked : ∀ (inputs : List (String × Draft)) (c : Census),
    (LinkedBlock.unlinkedInputs (buildInputs inputs c).1, (buildInputs inputs c).2) = visitInputs inputs c
  | [], c => rfl
  | (slot, draft) :: rest, c => by
    rw [buildInputs, visitInputs]
    simp only [LinkedBlock.unlinkedInputs, ← build_unlinked, ← buildInputs_unlinked]

theorem buildStatements_unlinked : ∀ (statements : List (String × List Draft)) (c : Census),
    (LinkedBlock.unlinkedStatements (buildStatements statements c).1, (buildStatements statements c).2) =
      visitStatements statements c
  | [], c => rfl
  | (slot, chain) :: rest, c => by
    rw [buildStatements, visitStatements]
    simp only [LinkedBlock.unlinkedStatements_hang, ← buildBlocks_unlinked, ← buildStatements_unlinked]

theorem buildBlocks_unlinked : ∀ (chain : List Draft) (c : Census),
    ((buildBlocks chain c).1.map LinkedBlock.unlinked, (buildBlocks chain c).2) = visitChain chain c
  | [], c => rfl
  | draft :: rest, c => by
    rw [buildBlocks, visitChain]
    simp only [List.map_cons, ← build_unlinked, ← buildBlocks_unlinked]
end

theorem buildChain_unlinked (drafts : List Draft) (c : Census) :
    ((Chain.mk (buildChain drafts c).1).toList.map LinkedBlock.unlinked, (buildChain drafts c).2) = visitChain drafts c := by
  rw [buildChain, LinkedBlock.map_unlinked_link, buildBlocks_unlinked]

end Draft

/-- **The program of a draft** has the blocks that visiting its drafts gives. -/
theorem Program.ofDraft_eq_visits (draft : DraftProgram) (sourceId : Nat) :
    Program.ofDraft draft sourceId =
      if (Draft.visitChain draft.main (Draft.visitChain draft.setup {}).2).2.problems.isEmpty then
        .ok ⟨draft.board, (Draft.visitChain draft.setup {}).1,
          (Draft.visitChain draft.main (Draft.visitChain draft.setup {}).2).1, sourceId⟩
      else .error (Draft.visitChain draft.main (Draft.visitChain draft.setup {}).2).2.problems := by
  simp only [← Draft.buildChain_unlinked]
  rw [ofDraft, LinkedProgram.ofDraft]
  simp only
  split <;> rfl

end BlockSketch
