/-
A program mirrors the draft it comes from.

`Mirrors` relates a draft to the block it stands for: the type without the blanks around it, the place of the type, one
text for each field, one block for each value slot, and for each statement slot that holds something the chain of its
blocks, all in the same order. It is said by rules over drafts and blocks and does not mention visiting. Ids are not part
of it: the id of a block depends on the drafts before it and is that of its visit. A linked block mirrors a draft if it
does with its chains gone through.

Results:
- `visit_mirrors`: visiting a draft whose fields are all scalars gives a block that mirrors it;
- `Mirrors.all`: a block that mirrors a draft has blocks inside that mirror the drafts inside, one by one;
- `map_unlinked_reachable`: the links of a program lead to all its blocks and to each once;
- `ofDraft_mirrors`: a program mirrors its draft, and its blocks have the ids of their visits.
-/
import BlockSketch.Proofs.Visits

namespace BlockSketch

open BlockSketch.Toml

/-! ## Blocks that mirror drafts -/

def FieldText (field : String × Located Value) (text : String × String) : Prop :=
  text.1 = field.1 ∧ fieldText? field.2.val = some text.2

mutual
/-- the block is what the draft says, whatever its id -/
inductive Mirrors : Draft → Block → Prop where
  | block {id kind fields inputs statements blockId texts blocks chains} (hfields : List.Forall₂ FieldText fields texts)
      (hinputs : MirrorInputs inputs blocks) (hstatements : MirrorStatements statements chains) :
      Mirrors ⟨id, kind, fields, inputs, statements⟩ ⟨blockId, Text.trim kind.val, texts, blocks, chains, kind.span⟩

/-- one block for each value slot, under the name of the slot -/
inductive MirrorInputs : List (String × Draft) → List (String × Block) → Prop where
  | nil : MirrorInputs [] []
  | cons {slot draft block inputs blocks} (hblock : Mirrors draft block) (hrest : MirrorInputs inputs blocks) :
      MirrorInputs ((slot, draft) :: inputs) ((slot, block) :: blocks)

/-- one chain for each statement slot that is not empty, under the name of the slot -/
inductive MirrorStatements : List (String × List Draft) → List (String × List Block) → Prop where
  | nil : MirrorStatements [] []
  | empty {slot statements chains} (hrest : MirrorStatements statements chains) :
      MirrorStatements ((slot, []) :: statements) chains
  | cons {slot draft drafts chain statements chains} (hchain : MirrorChain (draft :: drafts) chain)
      (hrest : MirrorStatements statements chains) :
      MirrorStatements ((slot, draft :: drafts) :: statements) ((slot, chain) :: chains)

/-- one block for each draft of a chain, in order -/
inductive MirrorChain : List Draft → List Block → Prop where
  | nil : MirrorChain [] []
  | cons {draft block drafts blocks} (hblock : Mirrors draft block) (hrest : MirrorChain drafts blocks) :
      MirrorChain (draft :: drafts) (block :: blocks)
end

/-! ## Visiting -/

namespace Draft

def Readable (d : Draft) : Prop := ∀ field ∈ d.fields, field.2.val.isScalar = true

/-- fields that hold scalars get one text each -/
theorem checkFields_texts (id : String) {fields : List (String × Located Value)}
    (h : ∀ field ∈ fields, field.2.val.isScalar = true) (c : Census) :
    List.Forall₂ FieldText fields (checkFields id fields c).1 := by
  induction fields generalizing c with
  | nil => exact .nil
  | cons field rest ih =>
    obtain ⟨name, v⟩ := field
    obtain ⟨hv, hrest⟩ := List.forall_mem_cons.1 h
    rw [← fieldText?_isSome] at hv
    obtain ⟨text, htext⟩ := Option.isSome_iff_exists.1 hv
    rw [checkFields, htext]
    exact .cons ⟨rfl, htext⟩ (ih hrest c)

mutual
/-- **Visiting a draft** whose fields are all scalars gives a block that mirrors it. -/
theorem visit_mirrors : ∀ (d : Draft), (∀ e ∈ d.all, e.Readable) → ∀ c : Census, Mirrors d (d.visit c).1
  | ⟨id, kind, fields, inputs, statements⟩, h, c => by
    rw [all, List.forall_mem_cons, List.forall_mem_append] at h
    obtain ⟨hfields, hinputs, hstatements⟩ := h
    rw [visit]
    exact .block (checkFields_texts _ hfields _) (visitInputs_mirrors inputs hinputs _)
      (visitStatements_mirrors statements hstatements _)

theorem visitInputs_mirrors : ∀ (inputs : List (String × Draft)), (∀ e ∈ allInputs inputs, e.Readable) →
    ∀ c : Census, MirrorInputs inputs (visitInputs inputs c).1
  | [], _, _ => .nil
  | (slot, draft) :: rest, h, c => by
    rw [allInputs, List.forall_mem_append] at h
    rw [visitInputs]
    exact .cons (visit_mirrors draft h.1 c) (visitInputs_mirrors rest h.2 _)

theorem visitStatements_mirrors : ∀ (statements : List (String × List Draft)),
    (∀ e ∈ allStatements statements, e.Readable) →
    ∀ c : Census, MirrorStatements statements (visitStatements statements c).1
  | [], _, _ => .nil
  | (slot, chain) :: rest, h, c => by
    rw [allStatements, List.forall_mem_append] at h
    have hchain := visitChain_mirrors chain h.1 c
    have hrest := visitStatements_mirrors rest h.2 (visitChain chain c).2
    rw [visitStatements]
    -- a slot without drafts leaves no slot behind, and no other slot is left out
    cases chain with
    | nil => exact .empty hrest
    | cons draft drafts => exact .cons hchain hrest

theorem visitChain_mirrors : ∀ (chain : List Draft), (∀ e ∈ allChain chain, e.Readable) →
    ∀ c : Census, MirrorChain chain (visitChain chain c).1
  | [], _, _ => .nil
  | draft :: rest, h, c => by
    rw [allChain, List.forall_mem_append] at h
    rw [visitChain]
    exact .cons (visit_mirrors draft h.1 c) (visitChain_mirrors rest h.2 _)
end

end Draft

/-! ## All blocks mirror all drafts -/

mutual
/-- **The blocks inside a block** mirror the drafts inside its draft, one by one. -/
theorem Mirrors.all : ∀ {d : Draft} {b : Block}, Mirrors d b → List.Forall₂ Mirrors d.all b.all
  | _, _, .block hfields hinputs hstatements => by
    rw [Draft.all, Block.all]
    exact .cons (.block hfields hinputs hstatements) (List.rel_append hinputs.all hstatements.all)

theorem MirrorInputs.all : ∀ {inputs : List (String × Draft)} {blocks : List (String × Block)},
    MirrorInputs inputs blocks → List.Forall₂ Mirrors (Draft.allInputs inputs) (Block.allInputs blocks)
  | _, _, .nil => .nil
  | _, _, .cons hblock hrest => by
    rw [Draft.allInputs, Block.allInputs]
    exact List.rel_append hblock.all hrest.all

theorem MirrorStatements.all : ∀ {statements : List (String × List Draft)} {chains : List (String × List Block)},
    MirrorStatements statements chains →
    List.Forall₂ Mirrors (Draft.allStatements statements) (Block.allStatements chains)
  | _, _, .nil => .nil
  | _, _, .empty hrest => hrest.all
  | _, _, .cons hchain hrest => by
    rw [Draft.allStatements, Block.allStatements]
    exact List.rel_append hchain.all hrest.all

theorem MirrorChain.all : ∀ {drafts : List Draft} {blocks : List Block},
    MirrorChain drafts blocks → List.Forall₂ Mirrors (Draft.allChain drafts) (Block.allChain blocks)
  | _, _, .nil => .nil
  | _, _, .cons hblock hrest => by
    rw [Draft.allChain, Block.allChain]
    exact List.rel_append hblock.all hrest.all
end

/-! ## All blocks that links lead to -/

namespace LinkedBlock

mutual
/-- a block and all blocks that its slots and its link lead to -/
def reach : LinkedBlock → List LinkedBlock
  | ⟨id, kind, fields, inputs, statements, next, span⟩ =>
    ⟨id, kind, fields, inputs, statements, next, span⟩ ::
      (reachInputs inputs ++ reachStatements statements ++ reachFrom next)

def reachInputs : List (String × LinkedBlock) → List LinkedBlock
  | [] => []
  | (_, block) :: rest => reach block ++ reachInputs rest

def reachStatements : List (String × LinkedBlock) → List LinkedBlock
  | [] => []
  | (_, head) :: rest => reach head ++ reachStatements rest

def reachFrom : Option LinkedBlock → List LinkedBlock
  | none => []
  | some block => reach block
end

theorem reach_eq (b : LinkedBlock) :
    b.reach = b :: (reachInputs b.inputs ++ reachStatements b.statements ++ reachFrom b.next) := by
  obtain ⟨id, kind, fields, inputs, statements, next, span⟩ := b
  rw [reach]

theorem reachStatements_hang (slot : String) (statements : List (String × LinkedBlock)) (head : Option LinkedBlock) :
    reachStatements (hang slot statements head) = reachFrom head ++ reachStatements statements := by
  cases head with
  | none => rfl
  | some head => rw [hang, reachStatements, reachFrom]

/-- the links in the slots of a block lead to the blocks inside it, one by one, and to no others -/
def SlotsReach (b : LinkedBlock) : Prop :=
  (reachInputs b.inputs ++ reachStatements b.statements).map unlinked =
    Block.allInputs (unlinkedInputs b.inputs) ++ Block.allStatements (unlinkedStatements b.statements)

theorem SlotsReach.reach {b : LinkedBlock} (h : b.SlotsReach) :
    b.reach.map unlinked = b.unlinked.all ++ (reachFrom b.next).map unlinked := by
  obtain ⟨id, kind, fields, inputs, statements, next, span⟩ := b
  rw [reach_eq, List.map_cons, List.map_append, h, unlinked, Block.all, List.cons_append]

/-- from the head of a chain, links lead to all blocks of the chain and inside them -/
theorem reachFrom_link {blocks : List LinkedBlock} (h : ∀ b ∈ blocks, b.SlotsReach) :
    (reachFrom (link blocks)).map unlinked = Block.allChain (blocks.map unlinked) := by
  induction blocks with
  | nil => rfl
  | cons b rest ih =>
    obtain ⟨hb, hrest⟩ := List.forall_mem_cons.1 h
    have hlinked : SlotsReach { b with next := link rest } := hb
    have hsame : unlinked { b with next := link rest } = b.unlinked :=
      (unlinked_alone _).symm.trans (unlinked_alone b)
    rw [link_cons, reachFrom, hlinked.reach, hsame, ih hrest, List.map_cons, Block.allChain]

end LinkedBlock

namespace Draft

open LinkedBlock

theorem build_next (d : Draft) (c : Census) : (d.build c).1.next = none := by
  obtain ⟨id, kind, fields, inputs, statements⟩ := d
  rw [build]

mutual
/-- **The links in the slots of a block that is built** lead to the blocks inside it. -/
theorem build_slotsReach : ∀ (d : Draft) (c : Census), (d.build c).1.SlotsReach
  | ⟨id, kind, fields, inputs, statements⟩, c => by
    rw [build, SlotsReach, List.map_append, buildInputs_reach, buildStatements_reach]

theorem buildInputs_reach : ∀ (inputs : List (String × Draft)) (c : Census),
    (reachInputs (buildInputs inputs c).1).map unlinked = Block.allInputs (unlinkedInputs (buildInputs inputs c).1)
  | [], c => rfl
  | (slot, draft) :: rest, c => by
    have hblock := (build_slotsReach draft c).reach
    rw [build_next, reachFrom, List.map_nil, List.append_nil] at hblock
    rw [buildInputs, reachInputs, List.map_append, hblock, buildInputs_reach rest, unlinkedInputs, Block.allInputs]

theorem buildStatements_reach : ∀ (statements : List (String × List Draft)) (c : Census),
    (reachStatements (buildStatements statements c).1).map unlinked =
      Block.allStatements (unlinkedStatements (buildStatements statements c).1)
  | [], c => rfl
  | (slot, chain) :: rest, c => by
    have hchain := reachFrom_link (buildBlocks_slotsReach chain c)
    have hrest := buildStatements_reach rest (buildBlocks chain c).2
    have hslots : (buildStatements ((slot, chain) :: rest) c).1 =
        hang slot (buildStatements rest (buildBlocks chain c).2).1 (link (buildBlocks chain c).1) := by
      rw [buildStatements]
    rw [hslots, reachStatements_hang, List.map_append, unlinkedStatements_hang, allStatements_cons, hchain, hrest]

theorem buildBlocks_slotsReach : ∀ (chain : List Draft) (c : Census), ∀ b ∈ (buildBlocks chain c).1, b.SlotsReach
  | [], c => by
    rw [buildBlocks]
    exact List.forall_mem_nil _
  | draft :: rest, c => by
    rw [buildBlocks]
    exact List.forall_mem_cons.2 ⟨build_slotsReach draft c, buildBlocks_slotsReach rest _⟩
end

/-- from the head of a chain of drafts that are built, links lead to all blocks that the drafts become -/
theorem buildChain_reach (drafts : List Draft) (c : Census) :
    (reachFrom (buildChain drafts c).1).map unlinked = Block.allChain (visitChain drafts c).1 := by
  rw [buildChain, reachFrom_link (buildBlocks_slotsReach drafts c), ← buildBlocks_unlinked]

end Draft

namespace LinkedProgram

/-- all blocks that the links of a program lead to -/
def reachable (p : LinkedProgram) : List LinkedBlock := LinkedBlock.reachFrom p.setup ++ LinkedBlock.reachFrom p.main

variable {draft : DraftProgram} {sourceId : Nat} {linked : LinkedProgram}

theorem unlinked_of_ofDraft (h : ofDraft draft sourceId = .ok linked) :
    Program.ofDraft draft sourceId = .ok linked.unlinked := by
  rw [Program.ofDraft, h]
  rfl

/-- **Links lead to all blocks of the program**, one by one. -/
theorem map_unlinked_reachable (h : ofDraft draft sourceId = .ok linked) :
    linked.reachable.map LinkedBlock.unlinked = linked.unlinked.blocks := by
  rw [(Program.ofDraft_eq_ok_iff.1 (unlinked_of_ofDraft h)).2]
  have hheads : linked.setup = (Draft.buildChain draft.setup {}).1 ∧
      linked.main = (Draft.buildChain draft.main (Draft.buildChain draft.setup {}).2).1 := by
    unfold ofDraft at h
    simp only at h
    split at h
    · cases h
      exact ⟨rfl, rfl⟩
    · cases h
  have hcensus : (Draft.buildChain draft.setup {}).2 = (Draft.visitChain draft.setup {}).2 := by
    rw [← Draft.buildChain_unlinked]
  rw [reachable, List.map_append, hheads.1, hheads.2, Draft.buildChain_reach, Draft.buildChain_reach, hcensus]
  rfl

end LinkedProgram

/-! ## Programs -/

namespace DraftProgram

variable {draft : DraftProgram}

theorem readable_of_sound (h : ∀ v ∈ draft.visits, ¬ v.Faulty) : ∀ d ∈ draft.drafts, d.Readable := by
  intro d hd
  rw [← map_draft_visits] at hd
  obtain ⟨v, hv, rfl⟩ := List.mem_map.1 hd
  intro field hfield
  by_contra hscalar
  exact h v hv (.inr (.inr ⟨field, hfield, by simpa using hscalar⟩))

/-- both chains of the program that visiting makes mirror those of the draft, if nothing is faulty -/
theorem visited_mirrors (h : ∀ v ∈ draft.visits, ¬ v.Faulty) (sourceId : Nat) :
    MirrorChain draft.setup (draft.visited sourceId).setup ∧ MirrorChain draft.main (draft.visited sourceId).main := by
  have hreadable := readable_of_sound h
  rw [drafts, List.forall_mem_append] at hreadable
  exact ⟨Draft.visitChain_mirrors _ hreadable.1 _, Draft.visitChain_mirrors _ hreadable.2 _⟩

theorem blocks_mirror (h : ∀ v ∈ draft.visits, ¬ v.Faulty) (sourceId : Nat) :
    List.Forall₂ Mirrors draft.drafts (draft.visited sourceId).blocks := by
  obtain ⟨hsetup, hmain⟩ := visited_mirrors h sourceId
  exact List.rel_append hsetup.all hmain.all

end DraftProgram

/-- lists that are related item by item and give the same values agree item by item in both -/
theorem forall₂_and_of_map_eq {α β γ : Type} {r : α → β → Prop} {f : α → γ} {g : β → γ} {xs : List α} {ys : List β}
    (h : List.Forall₂ r xs ys) (hmap : ys.map g = xs.map f) : List.Forall₂ (fun x y => r x y ∧ g y = f x) xs ys := by
  induction h with
  | nil => exact .nil
  | cons hxy _ ih =>
    rw [List.map_cons, List.map_cons, List.cons.injEq] at hmap
    exact .cons ⟨hxy, hmap.1⟩ (ih hmap.2)

/-- **A program mirrors its draft.** Its chains, gone through from the head along the links, have one block for each draft,
in document order and at every nesting, and nothing else. The block that a visit makes has its own id if it has one, and
otherwise its type with the number of blocks of that type without an id up to it. All links together lead to as many
blocks as there are drafts. -/
theorem ofDraft_mirrors {draft : DraftProgram} {sourceId : Nat} {linked : LinkedProgram}
    (h : LinkedProgram.ofDraft draft sourceId = .ok linked) :
    linked.board = draft.board ∧ linked.sourceId = sourceId ∧
      MirrorChain draft.setup (linked.setupChain.toList.map LinkedBlock.unlinked) ∧
      MirrorChain draft.main (linked.mainChain.toList.map LinkedBlock.unlinked) ∧
      List.Forall₂ (fun v b => Mirrors v.draft b.unlinked ∧ b.id = v.id) draft.visits linked.reachable ∧
      linked.reachable.length = draft.drafts.length ∧
      Program.ofDraft draft sourceId = .ok linked.unlinked := by
  have hprogram := LinkedProgram.unlinked_of_ofDraft h
  obtain ⟨hproblems, hvisited⟩ := Program.ofDraft_eq_ok_iff.1 hprogram
  have hsound := draft.problems_eq_nil_iff.1 hproblems
  obtain ⟨hsetup, hmain⟩ := DraftProgram.visited_mirrors hsound sourceId
  have hblocks := DraftProgram.blocks_mirror hsound sourceId
  have hids := draft.visited_ids sourceId
  rw [← hvisited] at hsetup hmain hblocks hids
  rw [← LinkedProgram.map_unlinked_reachable h] at hblocks hids
  have hlength : linked.reachable.length = draft.drafts.length := by
    rw [hblocks.length_eq, List.length_map]
  rw [← draft.map_draft_visits] at hblocks
  have hvisits : List.Forall₂ (fun v b => Mirrors v.draft b.unlinked) draft.visits linked.reachable :=
    List.forall₂_map_right_iff.1 (List.forall₂_map_left_iff.1 hblocks)
  have hnamed : linked.reachable.map LinkedBlock.id = draft.visits.map Visit.id := by
    rw [← hids, List.map_map]
    exact List.map_congr_left fun b _ => b.unlinked_id.symm
  exact ⟨congrArg Program.board hvisited, congrArg Program.sourceId hvisited, hsetup, hmain,
    forall₂_and_of_map_eq hvisits hnamed, hlength, hprogram⟩

/-- a choice with two writes and an empty slot in the setup chain, and one more write in the main chain -/
def sampleNestedDraft : DraftProgram :=
  ⟨some "uno", [⟨none, ⟨⟨0, 1⟩, " if "⟩, [],
      [("IF0", ⟨some ⟨⟨2, 3⟩, "yes"⟩, ⟨⟨4, 5⟩, "is"⟩, [("BOOL", ⟨⟨6, 7⟩, .boolean ⟨6, 7⟩ true⟩)], [], []⟩)],
      [("DO0", [⟨none, ⟨⟨8, 9⟩, "set"⟩, [("PIN", ⟨⟨10, 11⟩, .integer ⟨10, 11⟩ 9⟩)], [], []⟩,
          ⟨none, ⟨⟨12, 13⟩, "set\t"⟩, [("PIN", ⟨⟨14, 15⟩, .string ⟨14, 15⟩ "A0"⟩)], [], []⟩]),
        ("ELSE", [])]⟩],
    [⟨none, ⟨⟨16, 17⟩, "set"⟩, [], [], []⟩]⟩

/-- the program that it becomes: the first write is linked to the second -/
def sampleNestedProgram : LinkedProgram :=
  ⟨some "uno", some ⟨"if#1", "if", [], [("IF0", ⟨"yes", "is", [("BOOL", "true")], [], [], none, ⟨4, 5⟩⟩)],
      [("DO0", ⟨"set#1", "set", [("PIN", "9")], [], [],
        some ⟨"set#2", "set", [("PIN", "A0")], [], [], none, ⟨12, 13⟩⟩, ⟨8, 9⟩⟩)], none, ⟨0, 1⟩⟩,
    some ⟨"set#3", "set", [], [], [], none, ⟨16, 17⟩⟩, 3⟩

/-- the numbers go on from one chain to the other, and the empty slot is gone -/
theorem ofDraft_mirrors_nested :
    LinkedProgram.ofDraft sampleNestedDraft 3 = .ok sampleNestedProgram ∧
      MirrorChain sampleNestedDraft.setup (sampleNestedProgram.setupChain.toList.map LinkedBlock.unlinked) ∧
      MirrorChain sampleNestedDraft.main (sampleNestedProgram.mainChain.toList.map LinkedBlock.unlinked) ∧
      List.Forall₂ (fun v b => Mirrors v.draft b.unlinked ∧ b.id = v.id) sampleNestedDraft.visits
        sampleNestedProgram.reachable ∧
      sampleNestedProgram.reachable.length = 5 := by
  have hdraft : LinkedProgram.ofDraft sampleNestedDraft 3 = .ok sampleNestedProgram := by rfl
  obtain ⟨-, -, hsetup, hmain, hvisits, hlength, -⟩ := ofDraft_mirrors hdraft
  exact ⟨hdraft, hsetup, hmain, hvisits, hlength⟩

end BlockSketch
