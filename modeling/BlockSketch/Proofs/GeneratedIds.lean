/-
Ids that are made up never clash with one another.

A block without an id of its own is named after its type and the number of such blocks of that type so far. A type can be
any text, also one that looks like such an id. Still the id tells type and number apart, since no number has a `#` in it;
and of two blocks of one type without an id, the one that is visited later has the greater number. So if two blocks have
one id, the id of one of them is written down in the draft.

Results:
- `generatedId_injective`: an id that is made up tells the type and the number;
- `visits_split`: what is visited before and after a visit;
- `unnamed_lt`: the number of a type grows with every visit that takes one, `id_ne_of_unnamed`: so the ids are different;
- `generated_ids_distinct`: ids that are made up are pairwise different, and a clash involves one that is not.
-/
import BlockSketch.Proofs.Success
import BlockSketch.Proofs.Visits

namespace BlockSketch

/-! ## Type and number -/

theorem hash_not_mem_number (n : Nat) : '#' ∉ (toString n).toList := by
  intro hmem
  rw [Nat.toString_eq_repr, Nat.toList_repr] at hmem
  have hdigit := Nat.isDigit_of_mem_toDigits (by decide) (by decide) hmem
  cases hdigit

/-- where two texts agree, what stands before their last `#` agrees -/
theorem front_eq_of_hash {xs ys ds es : List Char} (h : xs ++ '#' :: ds = ys ++ '#' :: es) (hds : '#' ∉ ds)
    (hes : '#' ∉ es) : xs = ys := by
  -- one front is a beginning of the other; if it were shorter, the other `#` would stand behind its own
  have hlonger {front ds es more : List Char} (htail : '#' :: ds = more ++ '#' :: es) (hds : '#' ∉ ds) :
      front = front ++ more := by
    cases more with
    | nil => rw [List.append_nil]
    | cons c more =>
      obtain ⟨-, rfl⟩ := List.cons.inj htail
      exact absurd (List.mem_append_right more List.mem_cons_self) hds
  rcases List.append_eq_append_iff.1 h with ⟨more, rfl, htail⟩ | ⟨more, rfl, htail⟩
  · exact hlonger htail hds
  · exact (hlonger htail hes).symm

/-- the last `#` of an id that is made up stands between the type and the number, whatever the type is -/
theorem generatedId_injective {k k' : String} {m n : Nat} (h : k ++ "#" ++ toString m = k' ++ "#" ++ toString n) :
    k = k' ∧ m = n := by
  have hkinds : k = k' := by
    have hchars := congrArg String.toList h
    simp only [String.toList_append, List.append_assoc] at hchars
    apply String.toList_injective
    exact front_eq_of_hash hchars (hash_not_mem_number m) (hash_not_mem_number n)
  subst hkinds
  exact ⟨rfl, numbered_injective h⟩

/-! ## Before and after a visit -/

variable {drafts : List Draft} {v w : Visit}

theorem mem_visitsFrom {earlier : List Draft} (h : v ∈ visitsFrom earlier drafts) :
    ∃ before after, drafts = before ++ v.draft :: after ∧ v.earlier = earlier ++ before := by
  induction drafts generalizing earlier with
  | nil => cases h
  | cons d rest ih =>
    rw [visitsFrom, List.mem_cons] at h
    rcases h with rfl | h
    · exact ⟨[], rest, rfl, (List.append_nil _).symm⟩
    · obtain ⟨before, after, rfl, hearlier⟩ := ih h
      refine ⟨d :: before, after, rfl, ?_⟩
      rw [hearlier, List.append_assoc]
      rfl

theorem drafts_split (h : v ∈ visits drafts) : ∃ after, drafts = v.earlier ++ v.draft :: after := by
  obtain ⟨before, after, hdrafts, hearlier⟩ := mem_visitsFrom h
  rw [List.nil_append] at hearlier
  exact ⟨after, hearlier ▸ hdrafts⟩

/-- the visits before a visit are those of the drafts that were entered before it -/
theorem visits_split (h : v ∈ visits drafts) : ∃ after, visits drafts = visits v.earlier ++ v :: after := by
  obtain ⟨after, hdrafts⟩ := drafts_split h
  refine ⟨visitsFrom (v.earlier ++ [v.draft]) after, ?_⟩
  rw [hdrafts, visits, visitsFrom_append]
  rfl

/-! ## Numbers grow -/

/-- **A later visit has a greater number**, if an earlier one of the same type took one. -/
theorem unnamed_lt (hw : w ∈ visits v.earlier) (hnone : w.draft.id = none) :
    unnamed w.draft.trimmedKind w.earlier < unnamed w.draft.trimmedKind v.earlier := by
  obtain ⟨after, hsplit⟩ := drafts_split hw
  rw [hsplit, unnamed, unnamed, List.countP_append, List.countP_cons]
  simp only [hnone, Option.isNone_none, beq_self_eq_true, Bool.and_self, if_true]
  omega

theorem Visit.id_of_unnamed (h : v.draft.id = none) :
    v.id = v.draft.trimmedKind ++ "#" ++ toString (unnamed v.draft.trimmedKind v.earlier + 1) := by
  rw [Visit.id, h]

/-- of two visits without an id of their own the later one gets another id than the earlier one -/
theorem id_ne_of_unnamed (hw : w ∈ visits v.earlier) (hwnone : w.draft.id = none) (hvnone : v.draft.id = none) :
    w.id ≠ v.id := by
  intro heq
  rw [Visit.id_of_unnamed hwnone, Visit.id_of_unnamed hvnone] at heq
  obtain ⟨hkind, hnumber⟩ := generatedId_injective heq
  have hlt := unnamed_lt hw hwnone
  rw [hkind] at hlt hnumber
  omega

theorem visits_pairwise (drafts : List Draft) : (visits drafts).Pairwise fun w v => w ∈ visits v.earlier := by
  induction drafts using List.reverseRecOn with
  | nil => exact .nil
  | append_singleton earlier d ih =>
    rw [visits_concat, List.pairwise_append]
    refine ⟨ih, List.pairwise_singleton _ _, ?_⟩
    intro w hw v hv
    rw [List.mem_singleton] at hv
    rw [hv]
    exact hw

theorem unnamed_ids_nodup (drafts : List Draft) :
    (((visits drafts).filter fun v => v.draft.id.isNone).map Visit.id).Nodup := by
  rw [List.Nodup, List.pairwise_map, List.pairwise_filter]
  refine (visits_pairwise drafts).imp ?_
  intro w v hw hwnone hvnone
  exact id_ne_of_unnamed hw (Option.isNone_iff_eq_none.1 hwnone) (Option.isNone_iff_eq_none.1 hvnone)

/-! ## Clashes -/

/-- the place that claims the id of a draft: where it is written, or else where the type is -/
def Draft.idSpan (d : Draft) : Span :=
  match d.id with
  | some id => id.span
  | none => d.kind.span

theorem earlier_of_duplicate {id : String} {span first : Span}
    (h : DraftProblem.duplicateId id span first ∈ v.problems) :
    ∃ w ∈ visits v.earlier, w.id = id ∧ v.id = id ∧ w.span = first ∧ v.span = span := by
  have hkind : DraftProblem.duplicateId id span first ∉ v.kindProblems := by
    unfold Visit.kindProblems
    split <;> simp
  have hfields : DraftProblem.duplicateId id span first ∉ v.fieldProblems := by
    simp [Visit.fieldProblems]
  rw [Visit.problems, List.mem_append, List.mem_append] at h
  have hid : DraftProblem.duplicateId id span first ∈ v.idProblems := (h.resolve_right hfields).resolve_left hkind
  rw [Visit.idProblems, List.mem_map] at hid
  obtain ⟨w, howner, hproblem⟩ := hid
  rw [Option.mem_toList] at howner
  have hsame := List.find?_some howner
  rw [beq_iff_eq] at hsame
  cases hproblem
  exact ⟨w, List.mem_of_find?_eq_some howner, hsame, rfl, rfl, rfl⟩

/-- all drafts of a program, each with the id that its block gets -/
def DraftProgram.named (draft : DraftProgram) (sourceId : Nat) : List (Draft × String) :=
  draft.drafts.zip ((draft.visited sourceId).blocks.map Block.id)

theorem DraftProgram.named_eq (draft : DraftProgram) (sourceId : Nat) :
    draft.named sourceId = draft.visits.map fun v => (v.draft, v.id) := by
  rw [named, visited_ids, ← map_draft_visits, List.zip_map']

theorem named_cases {draft : DraftProgram} {sourceId : Nat} {d : Draft} {id : String}
    (h : (d, id) ∈ draft.named sourceId) :
    (∀ own, d.id = some own → id = own.val) ∧ (d.id = none → ∃ n : Nat, id = d.trimmedKind ++ "#" ++ toString n) := by
  rw [DraftProgram.named_eq, List.mem_map] at h
  obtain ⟨v, -, hv⟩ := h
  cases hv
  constructor
  · intro own hown
    rw [Visit.id, hown]
  · intro hnone
    exact ⟨_, Visit.id_of_unnamed hnone⟩

/-- **Ids that are made up are pairwise different** across the whole program, whatever its types are and whatever else is
wrong with it. Every draft gets an id, its own or one that is made up from its type and a number. If an id is reported to
be taken, then two drafts have it, the report points to the earlier one, and one of them has its id written down. -/
theorem generated_ids_distinct (draft : DraftProgram) (sourceId : Nat) :
    ((draft.visited sourceId).blocks.length = draft.drafts.length ∧
      ∀ d id, (d, id) ∈ draft.named sourceId → (∀ own, d.id = some own → id = own.val) ∧
        (d.id = none → ∃ n : Nat, id = d.trimmedKind ++ "#" ++ toString n)) ∧
    (((draft.named sourceId).filter fun entry => entry.1.id.isNone).map Prod.snd).Nodup ∧
    ∀ ps, Program.ofDraft draft sourceId = .error ps → ∀ id span first, .duplicateId id span first ∈ ps →
      ∃ before d between e after, draft.named sourceId = before ++ (d, id) :: between ++ (e, id) :: after ∧
        d.idSpan = first ∧ e.idSpan = span ∧ (d.id.isSome = true ∨ e.id.isSome = true) := by
  refine ⟨⟨?_, fun _ _ => named_cases⟩, ?_, ?_⟩
  · have hlength := congrArg List.length (draft.visited_ids sourceId)
    rw [List.length_map, List.length_map] at hlength
    rw [hlength, ← draft.map_draft_visits, List.length_map]
  · rw [DraftProgram.named_eq, List.filter_map, List.map_map]
    exact unnamed_ids_nodup draft.drafts
  · intro ps hps id span first hmem
    rw [(Program.ofDraft_eq_error_iff.1 hps).2, draft.census_problems, List.mem_flatMap] at hmem
    obtain ⟨v, hv, hproblem⟩ := hmem
    obtain ⟨w, hw, rfl, hid, rfl, rfl⟩ := earlier_of_duplicate hproblem
    obtain ⟨after, hafter⟩ := visits_split hv
    obtain ⟨between, hbetween⟩ := visits_split hw
    refine ⟨(visits w.earlier).map fun v => (v.draft, v.id), w.draft, between.map fun v => (v.draft, v.id), v.draft,
      after.map fun v => (v.draft, v.id), ?_, rfl, rfl, ?_⟩
    · rw [DraftProgram.named_eq, DraftProgram.visits, hafter, hbetween]
      simp [hid]
    · by_contra hnone
      rw [not_or, Option.not_isSome_iff_eq_none, Option.not_isSome_iff_eq_none] at hnone
      exact id_ne_of_unnamed hw hnone.1 hnone.2 hid.symm

/-- two blocks of one type, a block whose type looks like the id of the first, and one that takes the id of the second -/
def sampleLookalikes : DraftProgram :=
  ⟨none, [⟨none, ⟨⟨0, 1⟩, "a"⟩, [], [("A", ⟨none, ⟨⟨2, 3⟩, " a"⟩, [], [], []⟩)], []⟩],
    [⟨none, ⟨⟨4, 5⟩, "a#1"⟩, [], [], []⟩, ⟨some ⟨⟨6, 7⟩, "a#2"⟩, ⟨⟨8, 9⟩, "b"⟩, [], [], []⟩]⟩

/-- three ids are made up, and the one clash is with an id that is written down -/
theorem generated_ids_distinct_lookalikes :
    sampleLookalikes.named 0 = sampleLookalikes.drafts.zip ["a#1", "a#2", "a#1#1", "a#2"] ∧
      ["a#1", "a#2", "a#1#1"].Nodup ∧
      Program.ofDraft sampleLookalikes 0 = .error [.duplicateId "a#2" ⟨6, 7⟩ ⟨2, 3⟩] ∧
      ∃ before d between e after,
        sampleLookalikes.named 0 = before ++ (d, "a#2") :: between ++ (e, "a#2") :: after ∧
          d.idSpan = ⟨2, 3⟩ ∧ e.idSpan = ⟨6, 7⟩ ∧ (d.id.isSome = true ∨ e.id.isSome = true) := by
  have hrefused : Program.ofDraft sampleLookalikes 0 = .error [.duplicateId "a#2" ⟨6, 7⟩ ⟨2, 3⟩] := by rfl
  obtain ⟨-, hnodup, hclash⟩ := generated_ids_distinct sampleLookalikes 0
  exact ⟨rfl, hnodup, hrefused, hclash _ hrefused _ _ _ List.mem_cons_self⟩

end BlockSketch
