/-
Every problem of a draft is reported, once and in order.

A draft is refused exactly if a visit is faulty: its type is blank, an earlier visit has its id, or a field holds no
scalar. The report has one entry for each such fault, in the order of the visits, and an entry about an id points to the
place where the id was claimed first. So a program never has a block without a type, nor two blocks with one id.

Results:
- `trim_trim`: a text without blanks around it stays as it is when it is trimmed;
- `blocks_kinds`, `kinds_trimmed`: the blocks of a program have the types of the drafts, trimmed, and none is blank;
- `ofDraft_reports_problems`: when a draft is refused, and with which report.
-/
import BlockSketch.Proofs.DraftOrder
import BlockSketch.Proofs.Mirror
import Mathlib.Data.List.DropRight

namespace BlockSketch

/-! ## Trimmed types -/

namespace Text

theorem dropBlankEnd_eq_rdropWhile (cs : List Char) : dropBlankEnd cs = cs.rdropWhile isBlank := rfl

/-- dropping the blanks at the end puts no blank at the start -/
theorem dropWhile_dropBlankEnd {cs : List Char} (h : cs.dropWhile isBlank = cs) :
    (dropBlankEnd cs).dropWhile isBlank = dropBlankEnd cs := by
  obtain ⟨blanks, hcs⟩ := List.rdropWhile_prefix isBlank cs
  rw [← dropBlankEnd_eq_rdropWhile] at hcs
  rw [List.dropWhile_eq_self_iff] at h ⊢
  intro hpos
  have hlength : 0 < cs.length := by
    rw [← hcs, List.length_append]
    omega
  have hfirst : cs[0] = (dropBlankEnd cs)[0] := by
    rw [← List.getElem_append_left hpos]
    exact List.getElem_of_eq hcs.symm hlength
  rw [← hfirst]
  exact h hlength

theorem trim_trim (s : String) : trim (trim s) = trim s := by
  have hstart : (dropBlankEnd (s.toList.dropWhile isBlank)).dropWhile isBlank =
      dropBlankEnd (s.toList.dropWhile isBlank) := dropWhile_dropBlankEnd (List.dropWhile_idempotent isBlank s.toList)
  simp only [trim, trimEnd, trimStart, String.toList_ofList, hstart]
  rw [dropBlankEnd_eq_rdropWhile (s.toList.dropWhile isBlank), dropBlankEnd_eq_rdropWhile, List.rdropWhile_idempotent]

end Text

theorem Mirrors.kind_eq {d : Draft} {b : Block} (h : Mirrors d b) : b.kind = d.trimmedKind := by
  cases h
  rfl

theorem DraftProgram.blocks_kinds {draft : DraftProgram} (h : ∀ v ∈ draft.visits, ¬ v.Faulty) (sourceId : Nat) :
    (draft.visited sourceId).blocks.map Block.kind = draft.visits.map fun v => v.draft.trimmedKind := by
  have hkinds : List.Forall₂ (fun d b => d.trimmedKind = b.kind) draft.drafts (draft.visited sourceId).blocks :=
    (blocks_mirror h sourceId).imp fun _ _ hb => hb.kind_eq.symm
  have heq : draft.drafts.map Draft.trimmedKind = (draft.visited sourceId).blocks.map Block.kind := by
    rw [← List.forall₂_eq_eq_eq, List.forall₂_map_left_iff, List.forall₂_map_right_iff]
    exact hkinds
  rw [← heq, ← draft.map_draft_visits, List.map_map]
  rfl

/-- no block of a program has a blank type, nor blanks around its type -/
theorem kinds_trimmed {draft : DraftProgram} {sourceId : Nat} {program : Program}
    (h : Program.ofDraft draft sourceId = .ok program) :
    ∀ b ∈ program.blocks, b.kind ≠ "" ∧ Text.trim b.kind = b.kind := by
  intro b hb
  obtain ⟨hproblems, rfl⟩ := Program.ofDraft_eq_ok_iff.1 h
  have hsound := draft.problems_eq_nil_iff.1 hproblems
  have hkind : b.kind ∈ (draft.visited sourceId).blocks.map Block.kind := List.mem_map_of_mem hb
  rw [DraftProgram.blocks_kinds hsound] at hkind
  obtain ⟨v, hv, hkind⟩ := List.mem_map.1 hkind
  rw [← hkind]
  exact ⟨fun hblank => hsound v hv (.inl hblank), Text.trim_trim _⟩

/-! ## Refusal -/

/-- **Every problem is reported.** A draft is refused exactly if a visit is faulty, and the report lists the problems of
all visits in order. A program has pairwise different ids and no blank types. Fields and slots are visited in the byte
order of their names if the draft is read from a document. -/
theorem ofDraft_reports_problems (draft : DraftProgram) (sourceId : Nat) :
    ((∃ ps, Program.ofDraft draft sourceId = .error ps) ↔ ∃ v ∈ draft.visits, v.Faulty) ∧
      (∀ ps, Program.ofDraft draft sourceId = .error ps → ps = draft.visits.flatMap Visit.problems) ∧
      (∀ program, Program.ofDraft draft sourceId = .ok program →
        (program.blocks.map Block.id).Nodup ∧ ∀ b ∈ program.blocks, b.kind ≠ "" ∧ Text.trim b.kind = b.kind) ∧
      (draft.visits.map Visit.draft = draft.drafts) ∧
      (∀ entries, DraftProgram.ofEntries entries = .ok draft → ∀ v ∈ draft.visits, v.draft.Ordered) := by
  refine ⟨?_, ?_, ?_, draft.map_draft_visits, ?_⟩
  · have hfaulty : draft.census.problems ≠ [] ↔ ∃ v ∈ draft.visits, v.Faulty := by
      rw [Ne, draft.problems_eq_nil_iff]
      push Not
      rfl
    rw [← hfaulty]
    simp only [Program.ofDraft_eq_error_iff, exists_and_left, exists_eq, and_true]
  · intro ps hps
    rw [(Program.ofDraft_eq_error_iff.1 hps).2]
    exact draft.census_problems
  · intro program hprogram
    exact ⟨ids_nodup hprogram, kinds_trimmed hprogram⟩
  · intro entries hentries v hv
    have hdraft : v.draft ∈ draft.drafts := draft.map_draft_visits ▸ List.mem_map_of_mem hv
    exact DraftProgram.ofEntries_orderly hentries v.draft hdraft

/-- three blocks with one id, the second of them named after its type, then a blank type and a field that holds a list -/
def sampleFaultyDraft : DraftProgram :=
  ⟨none, [⟨none, ⟨⟨0, 1⟩, "if"⟩, [], [("IF0", ⟨some ⟨⟨2, 3⟩, "set#1"⟩, ⟨⟨4, 5⟩, "is"⟩, [], [], []⟩)], []⟩],
    [⟨none, ⟨⟨6, 7⟩, "set"⟩, [], [], []⟩, ⟨some ⟨⟨8, 9⟩, "set#1"⟩, ⟨⟨10, 11⟩, " "⟩,
      [("PIN", ⟨⟨12, 13⟩, .array ⟨12, 13⟩ []⟩)], [], []⟩]⟩

/-- what is reported about it: both later blocks point to the one in the slot -/
def sampleFaults : List DraftProblem :=
  [.duplicateId "set#1" ⟨6, 7⟩ ⟨2, 3⟩, .emptyType ⟨10, 11⟩, .duplicateId "set#1" ⟨8, 9⟩ ⟨2, 3⟩,
    .unusableField "PIN" ⟨12, 13⟩ "set#1"]

/-- a document with one block, spelled as a list of its id and its type -/
def sampleListedEntries : List (Toml.Key × Toml.Value) :=
  [(⟨"block", ⟨0, 1⟩⟩, .array ⟨2, 3⟩ [.array ⟨4, 5⟩ [.string ⟨6, 7⟩ "a", .string ⟨8, 9⟩ " set"]])]

def sampleListedDraft : DraftProgram := ⟨none, [], [⟨some ⟨⟨6, 7⟩, "a"⟩, ⟨⟨8, 9⟩, " set"⟩, [], [], []⟩]⟩

def sampleListedProgram : Program := ⟨none, [], [⟨"a", "set", [], [], [], ⟨8, 9⟩⟩], 0⟩

/-- a draft that is refused with four problems, and a document that is read and accepted -/
theorem ofDraft_reports_problems_set :
    (Program.ofDraft sampleFaultyDraft 0 = .error sampleFaults ∧ (∃ v ∈ sampleFaultyDraft.visits, v.Faulty) ∧
      sampleFaults = sampleFaultyDraft.visits.flatMap Visit.problems) ∧
    DraftProgram.ofEntries sampleListedEntries = .ok sampleListedDraft ∧
      (∀ v ∈ sampleListedDraft.visits, v.draft.Ordered) ∧
      Program.ofDraft sampleListedDraft 0 = .ok sampleListedProgram ∧
      (sampleListedProgram.blocks.map Block.id).Nodup ∧
      ∀ b ∈ sampleListedProgram.blocks, b.kind ≠ "" ∧ Text.trim b.kind = b.kind := by
  have hfaults : Program.ofDraft sampleFaultyDraft 0 = .error sampleFaults := by rfl
  have hread : DraftProgram.ofEntries sampleListedEntries = .ok sampleListedDraft := by rfl
  have hlisted : Program.ofDraft sampleListedDraft 0 = .ok sampleListedProgram := by rfl
  obtain ⟨hrefused, hreport, -⟩ := ofDraft_reports_problems sampleFaultyDraft 0
  obtain ⟨-, -, haccepted, -, hordered⟩ := ofDraft_reports_problems sampleListedDraft 0
  exact ⟨⟨hfaults, hrefused.1 ⟨_, hfaults⟩, hreport _ hfaults⟩, hread, hordered _ hread, hlisted, haccepted _ hlisted⟩

end BlockSketch
