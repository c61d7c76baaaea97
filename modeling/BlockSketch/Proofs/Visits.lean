/-
Visiting a draft, told without a census.

Drafts are entered one after the other, and each is checked against what the census has on record: how many blocks of a
type have been named so far, and who claimed which id. A `Visit` is a draft together with the drafts entered before it.
The id it gets and the problems it has are said here in terms of these drafts alone: the number in a generated id is
counted, the owner of an id is looked for among the earlier visits.

Results:
- `checkKind_eq`, `claim_eq`, `checkFields_eq`: what each check adds to the census;
- `enter_records`, `enterAll_records`: the census has on record what the drafts entered so far show, draft by draft;
- `census_problems`: the problems found in a draft program are those of its visits, in order;
- `visited_ids`: the blocks of the program have the ids of the visits, in order;
- `ids_nodup`: the ids of a program that a draft becomes are pairwise different;
- `filter_id_eq`: an id that a block has is the id of that block alone.
-/
import BlockSketch.Proofs.Entering
import Mathlib.Data.List.Induction
import Mathlib.Data.List.Nodup

namespace BlockSketch

open BlockSketch.Toml

/-! ## Visits and their problems -/

/-- a value that can stand in a field: text, a number or a truth value -/
def Toml.Value.isScalar : Value → Bool
  | .string .. | .integer .. | .float .. | .boolean .. => true
  | .dateTime .. | .array .. | .table .. => false

/-- a draft and the drafts that were entered before it -/
structure Visit where
  earlier : List Draft
  draft : Draft

/-- the visits of drafts that are entered in a row after `earlier` -/
def visitsFrom (earlier : List Draft) : List Draft → List Visit
  | [] => []
  | d :: rest => ⟨earlier, d⟩ :: visitsFrom (earlier ++ [d]) rest

def visits (drafts : List Draft) : List Visit := visitsFrom [] drafts

def DraftProgram.visits (draft : DraftProgram) : List Visit := BlockSketch.visits draft.drafts

/-- how many of the drafts are of a type and have no id of their own -/
def unnamed (kind : String) (drafts : List Draft) : Nat :=
  drafts.countP fun d => d.id.isNone && d.trimmedKind == kind

namespace Visit

/-- the id of the block: its own, or its type with the number of such blocks up to this one -/
def id (v : Visit) : String :=
  match v.draft.id with
  | some id => id.val
  | none => v.draft.trimmedKind ++ "#" ++ toString (unnamed v.draft.trimmedKind v.earlier + 1)

/-- the place that claims the id: where it is written, or else where the type is -/
def span (v : Visit) : Span :=
  match v.draft.id with
  | some id => id.span
  | none => v.draft.kind.span

/-- the first of the earlier visits that claimed the id -/
def firstOwner? (v : Visit) : Option Visit := (visits v.earlier).find? fun w => w.id == v.id

def kindProblems (v : Visit) : List DraftProblem :=
  if v.draft.trimmedKind = "" then [.emptyType v.draft.kind.span] else []

def idProblems (v : Visit) : List DraftProblem :=
  v.firstOwner?.toList.map fun w => .duplicateId v.id v.span w.span

def fieldProblems (v : Visit) : List DraftProblem :=
  (v.draft.fields.filter fun field => !field.2.val.isScalar).map fun field =>
    .unusableField field.1 field.2.span v.id

/-- everything that is wrong with a visit: its type, then its id, then its fields in order -/
def problems (v : Visit) : List DraftProblem := v.kindProblems ++ v.idProblems ++ v.fieldProblems

def Faulty (v : Visit) : Prop :=
  v.draft.trimmedKind = "" ∨ (∃ w ∈ visits v.earlier, w.id = v.id) ∨
    ∃ field ∈ v.draft.fields, field.2.val.isScalar = false

theorem problems_eq_nil_iff (v : Visit) : v.problems = [] ↔ ¬ v.Faulty := by
  have hkind : v.kindProblems = [] ↔ v.draft.trimmedKind ≠ "" := by simp [kindProblems]
  have hid : v.idProblems = [] ↔ ∀ w ∈ visits v.earlier, w.id ≠ v.id := by
    simp [idProblems, firstOwner?, Option.toList_eq_nil_iff]
  have hfields : v.fieldProblems = [] ↔ ∀ field ∈ v.draft.fields, field.2.val.isScalar = true := by
    simp [fieldProblems]
  rw [problems, List.append_eq_nil_iff, List.append_eq_nil_iff, hkind, hid, hfields, Faulty]
  simp only [not_or, not_exists, not_and, Bool.not_eq_false, and_assoc]

end Visit

theorem visitsFrom_append (earlier xs ys : List Draft) :
    visitsFrom earlier (xs ++ ys) = visitsFrom earlier xs ++ visitsFrom (earlier ++ xs) ys := by
  induction xs generalizing earlier with
  | nil => simp [visitsFrom]
  | cons d rest ih => simp [visitsFrom, ih]

theorem map_draft_visitsFrom (earlier drafts : List Draft) : (visitsFrom earlier drafts).map Visit.draft = drafts := by
  induction drafts generalizing earlier with
  | nil => rfl
  | cons d rest ih => rw [visitsFrom, List.map_cons, ih]

theorem visits_concat (earlier : List Draft) (d : Draft) : visits (earlier ++ [d]) = visits earlier ++ [⟨earlier, d⟩] := by
  simp [visits, visitsFrom_append, visitsFrom]

/-! ## What each check adds to the census -/

theorem fieldText?_isSome (v : Value) : (fieldText? v).isSome = v.isScalar := by
  cases v <;> rfl

theorem lookup_filter_ne {α : Type} {name other : String} (h : other ≠ name) (entries : List (String × α)) :
    (entries.filter fun entry => entry.1 != name).lookup other = entries.lookup other := by
  induction entries with
  | nil => rfl
  | cons entry rest ih =>
    obtain ⟨key, x⟩ := entry
    by_cases hkey : key = name
    · have hother : (other == key) = false := by simpa [hkey] using h
      simp [List.lookup_cons, ih, hkey ▸ hother, hkey]
    · simp [List.lookup_cons, ih, hkey]

namespace Census

variable (c : Census)

/-- counting a block of a type raises the number of that type and no other -/
theorem nextNumber_count (kind other : String) :
    (c.count kind).nextNumber other = if other = kind then c.nextNumber kind + 1 else c.nextNumber other := by
  by_cases h : other = kind
  · subst h
    simp [count, nextNumber]
  · have hother : (other == kind) = false := by simpa using h
    have hlookup : (c.count kind).generated.lookup other = c.generated.lookup other := by
      simp [count, List.lookup_cons, hother, lookup_filter_ne h]
    simp [nextNumber, hlookup, h]

/-- a claim is recorded if the id is free, and reported with the first claim if not -/
theorem claim_eq (id : String) (span : Span) :
    c.claim id span = { c with
      owners := c.owners ++ if (c.owners.lookup id).isNone then [(id, span)] else []
      problems := c.problems ++ (c.owners.lookup id).toList.map (.duplicateId id span) } := by
  unfold claim
  cases c.owners.lookup id with
  | none => simp
  | some first => simp [report]

end Census

namespace Draft

theorem checkKind_eq (d : Draft) (c : Census) :
    d.checkKind c = { c with
      problems := c.problems ++ if d.trimmedKind = "" then [.emptyType d.kind.span] else [] } := by
  unfold checkKind
  by_cases h : d.trimmedKind = ""
  · simp [h, Census.report]
  · simp [h]

theorem checkFields_eq (id : String) (fields : List (String × Located Value)) (c : Census) :
    (checkFields id fields c).2 = { c with
      problems := c.problems ++ (fields.filter fun field => !field.2.val.isScalar).map fun field =>
        .unusableField field.1 field.2.span id } := by
  induction fields generalizing c with
  | nil => simp [checkFields]
  | cons field rest ih =>
    obtain ⟨name, v⟩ := field
    have hscalar := fieldText?_isSome v.val
    rw [checkFields]
    cases hv : fieldText? v.val with
    | some text =>
      rw [hv] at hscalar
      simp [ih, ← hscalar]
    | none =>
      rw [hv] at hscalar
      simp [ih, ← hscalar, Census.report]

end Draft

/-! ## What the census has on record -/

/-- the census has on record what the drafts entered so far show -/
structure Census.Records (c : Census) (earlier : List Draft) : Prop where
  numbers : ∀ kind, c.nextNumber kind = unnamed kind earlier + 1
  owners : ∀ id, c.owners.lookup id = ((visits earlier).find? fun w => w.id == id).map Visit.span
  problems : c.problems = (visits earlier).flatMap Visit.problems

theorem Census.Records.fresh : Census.Records {} [] where
  numbers := fun _ => rfl
  owners := fun _ => rfl
  problems := rfl

namespace Draft

variable {c : Census} {earlier : List Draft}

/-- the id that a draft claims is that of its visit, for the place of its visit, and the draft is counted -/
theorem claimId_eq (h : ∀ kind, c.nextNumber kind = unnamed kind earlier + 1) (d : Draft) :
    ∃ c' : Census, d.claimId c = (Visit.id ⟨earlier, d⟩, c'.claim (Visit.id ⟨earlier, d⟩) (Visit.span ⟨earlier, d⟩)) ∧
      c'.owners = c.owners ∧ c'.problems = c.problems ∧
      ∀ kind, c'.nextNumber kind = unnamed kind (earlier ++ [d]) + 1 := by
  unfold claimId Visit.id Visit.span
  cases hid : d.id with
  | some id =>
    refine ⟨c, rfl, rfl, rfl, fun kind => ?_⟩
    rw [h, unnamed, unnamed, List.countP_append]
    simp [hid]
  | none =>
    simp only [h]
    refine ⟨c.count d.trimmedKind, rfl, rfl, rfl, fun kind => ?_⟩
    rw [Census.nextNumber_count, h, h, unnamed, unnamed, unnamed, List.countP_append]
    by_cases hkind : kind = d.trimmedKind
    · simp [hid, hkind]
    · simp [hid, hkind, Ne.symm hkind]

/-- **Entering one draft**: it gets the id of its visit, and the census has its visit on record then. -/
theorem enter_records (h : c.Records earlier) (d : Draft) :
    (d.enter c).1 = Visit.id ⟨earlier, d⟩ ∧ (d.enter c).2.Records (earlier ++ [d]) := by
  have hnumbers (kind : String) : (d.checkKind c).nextNumber kind = unnamed kind earlier + 1 := by
    rw [checkKind_eq]
    exact h.numbers kind
  obtain ⟨c', hclaim, howners, hproblems, hcounted⟩ := claimId_eq hnumbers d
  rw [checkKind_eq] at howners hproblems
  have henter : d.enter c = (Visit.id ⟨earlier, d⟩, (checkFields (Visit.id ⟨earlier, d⟩) d.fields
      (c'.claim (Visit.id ⟨earlier, d⟩) (Visit.span ⟨earlier, d⟩))).2) := by
    rw [enter, hclaim]
  rw [henter, checkFields_eq, Census.claim_eq, howners, hproblems]
  refine ⟨rfl, hcounted, fun id => ?_, ?_⟩
  · rw [visits_concat, List.find?_append, List.lookup_append, h.owners, h.owners]
    by_cases hid : Visit.id ⟨earlier, d⟩ = id
    · -- the id is claimed here if nobody has claimed it before
      subst hid
      cases (visits earlier).find? fun w => w.id == Visit.id ⟨earlier, d⟩ with
      | none => simp
      | some w => simp
    · have hother : (id == Visit.id ⟨earlier, d⟩) = false := by simpa using Ne.symm hid
      cases (visits earlier).find? fun w => w.id == id with
      | none => split <;> simp [List.lookup_cons, hother, hid]
      | some w => simp
  · rw [visits_concat, List.flatMap_append, ← h.problems, h.owners]
    simp [Visit.problems, Visit.kindProblems, Visit.idProblems, Visit.firstOwner?, Visit.fieldProblems,
      Option.toList_map]

/-- **Entering drafts one after the other**: each gets the id of its visit, and all visits are on record then. -/
theorem enterAll_records (h : c.Records earlier) (drafts : List Draft) :
    (enterAll drafts c).1 = (visitsFrom earlier drafts).map Visit.id ∧
      (enterAll drafts c).2.Records (earlier ++ drafts) := by
  induction drafts generalizing c earlier with
  | nil => simpa [enterAll, visitsFrom] using h
  | cons d rest ih =>
    obtain ⟨hid, hstep⟩ := enter_records h d
    obtain ⟨hids, hrest⟩ := ih hstep
    rw [enterAll, visitsFrom, List.map_cons, hid, hids]
    exact ⟨rfl, by simpa using hrest⟩

end Draft

namespace DraftProgram

variable (draft : DraftProgram)

theorem map_draft_visits : draft.visits.map Visit.draft = draft.drafts := map_draft_visitsFrom [] draft.drafts

/-- the problems found in a draft program are those of its visits, in order -/
theorem census_problems : draft.census.problems = draft.visits.flatMap Visit.problems := by
  have hrecords := (Draft.enterAll_records Census.Records.fresh draft.drafts).2
  exact hrecords.problems

theorem visited_ids (sourceId : Nat) :
    (draft.visited sourceId).blocks.map Block.id = draft.visits.map Visit.id := by
  have hids := (Draft.enterAll_records Census.Records.fresh draft.drafts).1
  rw [enterAll_drafts draft sourceId] at hids
  exact hids

theorem problems_eq_nil_iff : draft.census.problems = [] ↔ ∀ v ∈ draft.visits, ¬ v.Faulty := by
  rw [census_problems, List.flatMap_eq_nil_iff]
  exact forall₂_congr fun v _ => v.problems_eq_nil_iff

end DraftProgram

/-! ## Ids tell blocks apart -/

theorem visits_ids_nodup {drafts : List Draft} (h : ∀ v ∈ visits drafts, ¬ v.Faulty) :
    ((visits drafts).map Visit.id).Nodup := by
  induction drafts using List.reverseRecOn with
  | nil => exact .nil
  | append_singleton earlier d ih =>
    rw [visits_concat, List.forall_mem_append] at h
    have hlast : ¬ Visit.Faulty ⟨earlier, d⟩ := h.2 _ (List.mem_singleton_self _)
    rw [visits_concat, List.map_append, List.nodup_append']
    refine ⟨ih h.1, List.nodup_singleton _, ?_⟩
    rw [List.map_singleton, List.disjoint_singleton]
    intro hmem
    obtain ⟨w, hw, hid⟩ := List.mem_map.1 hmem
    exact hlast (.inr (.inl ⟨w, hw, hid⟩))

/-- the ids of a program that a draft becomes are pairwise different -/
theorem ids_nodup {draft : DraftProgram} {sourceId : Nat} {program : Program}
    (h : Program.ofDraft draft sourceId = .ok program) : (program.blocks.map Block.id).Nodup := by
  obtain ⟨hproblems, rfl⟩ := Program.ofDraft_eq_ok_iff.1 h
  rw [draft.visited_ids]
  exact visits_ids_nodup (draft.problems_eq_nil_iff.1 hproblems)

theorem filter_id_eq {blocks : List Block} {b : Block} (hnodup : (blocks.map Block.id).Nodup) (hb : b ∈ blocks) :
    blocks.filter (fun c => c.id = b.id) = [b] := by
  have hinj := List.inj_on_of_nodup_map hnodup
  have hfilter : blocks.filter (fun c => c.id = b.id) = blocks.filter (· = b) := by
    apply List.filter_congr
    intro c hc
    exact decide_eq_decide.2 ⟨fun hid => hinj hc hb hid, fun heq => heq ▸ rfl⟩
  rw [hfilter, List.filter_eq, List.count_eq_one_of_mem hnodup.of_map hb, List.replicate_one]

end BlockSketch
