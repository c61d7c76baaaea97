/-
Which boilerplate a sketch has, said without a state.

Every walked block needs some pieces of boilerplate; `Program.needs` lists them in the order of the walk, by recursion on
the block tree. A section of the sketch is that list restricted to the section, with the first of each key
(`firstPerKey`), and the pieces that run first before the others (`byRank`). Since pieces under one key are the same,
every piece that is needed is there exactly once.

Results:
- `stored_foldl_add`: what contributions leave in a section, from whatever was there before;
- `needs_of_actions`: a walk that gets through contributes what its block needs;
- `runProgram_registry`: the registry at the end of a run is the one made of the needs;
- `sketch_of_needs`: a sketch is laid out around exactly the boilerplate that its program needs.
-/
import BlockSketch.Proofs.Deduplication
import Mathlib.Data.List.Nodup

namespace BlockSketch

open BlockSketch.Action

/-! ## Lists of needs -/

def firstPerKey : List Need → List Need
  | [] => []
  | need :: rest => need :: (firstPerKey rest).filter fun other => other.key != need.key

/-- what runs first, then the others, both in the order in which they came -/
def byRank (needs : List Need) : List Need := needs.filter (·.runFirst) ++ needs.filter (!·.runFirst)

def needsIn (s : Section) (needs : List Need) : List Need := needs.filter fun need => need.place == s

/-- a piece of boilerplate as a fragment -/
def Need.piece (need : Need) : Fragment := ⟨need.key, need.text, need.runFirst⟩

def Need.trimmed (need : Need) : Need := { need with text := Text.trimEnd need.text }

theorem mem_needsIn {s : Section} {need : Need} {needs : List Need} :
    need ∈ needsIn s needs ↔ need ∈ needs ∧ need.place = s := by
  simp [needsIn]

theorem firstPerKey_map {f : Need → Need} (hf : ∀ need, (f need).key = need.key) (needs : List Need) :
    firstPerKey (needs.map f) = (firstPerKey needs).map f := by
  induction needs with
  | nil => rfl
  | cons need rest ih =>
    rw [List.map_cons, firstPerKey, ih, List.filter_map, firstPerKey, List.map_cons]
    congr 3
    funext other
    simp only [Function.comp_apply, hf]

theorem mem_of_mem_firstPerKey {need : Need} {needs : List Need} (h : need ∈ firstPerKey needs) : need ∈ needs := by
  induction needs with
  | nil => exact h
  | cons first rest ih =>
    rcases List.mem_cons.1 h with rfl | h
    · exact List.mem_cons_self
    · exact List.mem_cons_of_mem first (ih (List.mem_filter.1 h).1)

theorem exists_mem_firstPerKey {need : Need} {needs : List Need} (h : need ∈ needs) :
    ∃ first ∈ firstPerKey needs, first.key = need.key := by
  induction needs with
  | nil => cases h
  | cons head rest ih =>
    rcases List.mem_cons.1 h with rfl | h
    · exact ⟨need, List.mem_cons_self, rfl⟩
    · obtain ⟨first, hmem, hkey⟩ := ih h
      by_cases hhead : first.key = head.key
      · exact ⟨head, List.mem_cons_self, hhead.symm.trans hkey⟩
      · exact ⟨first, List.mem_cons_of_mem head (List.mem_filter.2 ⟨hmem, by simpa using hhead⟩), hkey⟩

theorem firstPerKey_nodup (needs : List Need) : ((firstPerKey needs).map (·.key)).Nodup := by
  induction needs with
  | nil => exact List.nodup_nil
  | cons head rest ih =>
    rw [firstPerKey, List.map_cons, List.nodup_cons]
    refine ⟨?_, ih.sublist (List.filter_sublist.map _)⟩
    intro hmem
    obtain ⟨other, hother, hkey⟩ := List.mem_map.1 hmem
    simp [hkey] at hother

/-- the first pieces of two lists in a row: those of the first list, then those of the second under keys that the first
does not have -/
theorem firstPerKey_append (before after : List Need) :
    firstPerKey (before ++ after) =
      firstPerKey before ++ (firstPerKey after).filter fun need => before.all fun other => need.key != other.key := by
  induction before with
  | nil => simp [firstPerKey]
  | cons first rest ih =>
    rw [List.cons_append, firstPerKey, ih, List.filter_append, List.filter_filter, firstPerKey, List.cons_append]
    rfl

theorem byRank_perm (needs : List Need) : (byRank needs).Perm needs :=
  List.filter_append_perm (fun need : Need => need.runFirst) needs

/-- the setup statements stand after all that was needed before them, whatever is needed later, and their text does not
change what stands around them -/
theorem byRank_setup {before : List Need} (h : ∀ need ∈ before, need.key ≠ "user_setup") (after : List Need) :
    ∃ first last : List Need, firstPerKey before ⊆ first ∧ ∀ text,
      byRank (firstPerKey (before ++ userSetup text :: after)) = first ++ userSetup text :: last := by
  -- what is needed later and was not needed before: of it, only what runs first moves in front of the statements
  let new := ((firstPerKey after).filter fun other => other.key != "user_setup").filter fun need =>
    before.all fun other => need.key != other.key
  have hsplit (text : String) :
      firstPerKey (before ++ userSetup text :: after) = firstPerKey before ++ userSetup text :: new := by
    have hkeys : (before.all fun other => (userSetup text).key != other.key) = true :=
      List.all_eq_true.2 fun need hn => bne_iff_ne.2 (h need hn).symm
    rw [firstPerKey_append, firstPerKey, List.filter_cons, if_pos hkeys]
    rfl
  refine ⟨(firstPerKey before).filter (·.runFirst) ++ (new.filter (·.runFirst) ++
    (firstPerKey before).filter (!·.runFirst)), new.filter (!·.runFirst), ?_, fun text => ?_⟩
  · intro need hneed
    cases hrank : need.runFirst with
    | true => exact List.mem_append_left _ (List.mem_filter.2 ⟨hneed, hrank⟩)
    | false =>
      refine List.mem_append_right _ (List.mem_append_right _ (List.mem_filter.2 ⟨hneed, ?_⟩))
      rw [hrank]
      rfl
  · rw [hsplit, byRank, List.filter_append, List.filter_append]
    simp [userSetup]

/-- nothing around the setup statements is under their key -/
theorem key_ne_of_around {needs first last : List Need} {text : String}
    (h : byRank (firstPerKey needs) = first ++ userSetup text :: last) :
    ∀ need ∈ first ++ last, need.key ≠ "user_setup" := by
  have hnodup : ((first ++ userSetup text :: last).map Need.key).Nodup := by
    rw [← h, ((byRank_perm _).map Need.key).nodup_iff]
    exact firstPerKey_nodup needs
  rw [List.map_append, List.map_cons, List.nodup_middle, List.nodup_cons, ← List.map_append] at hnodup
  intro need hmem hkey
  exact hnodup.1 (List.mem_map.2 ⟨need, hmem, hkey⟩)

/-! ## What actions leave in a section -/

def Action.need? : Action → Option Need
  | .contribute need => some need
  | _ => none

def Registry.add (r : Registry) (need : Need) : Registry :=
  (r.contribute need.place need.key need.text need.runFirst).2

theorem registry_perform {action : Action} {p q : Pass} {u : Unit} (h : action.perform p = .ok u q) :
    q.registry = action.need?.elim p.registry p.registry.add := by
  cases action with
  | note e => rw [perform_note] at h; cases h; rfl
  | contribute need => rw [perform_contribute] at h; cases h; rfl
  | count => rw [perform_count] at h; cases h; rfl
  | fail block fault => rw [perform_fail] at h; cases h
  | claim block use =>
    obtain ⟨pins, -, rfl⟩ := perform_claim_ok h
    rfl

/-- actions that succeed leave the registry with their contributions -/
theorem registry_performAll {actions : List Action} {p q : Pass} {u : Unit} (h : performAll actions p = .ok u q) :
    q.registry = (actions.filterMap Action.need?).foldl Registry.add p.registry := by
  induction actions generalizing p with
  | nil => cases h; rfl
  | cons action rest ih =>
    rw [performAll_cons] at h
    cases hp : action.perform p with
    | error e r => rw [hp] at h; cases h
    | ok u r =>
      rw [hp] at h
      rw [ih h, registry_perform hp, List.filterMap_cons]
      cases action.need? with
      | none => rfl
      | some need => rfl

namespace Registry

variable {r : Registry} {need : Need} {s : Section}

/-- the key of a piece of boilerplate is free in a section -/
def free (r : Registry) (s : Section) (need : Need) : Bool := (r.stored s).all fun f => f.key != need.key

theorem free_of_key_eq {other : Need} (h : need.key = other.key) : r.free s need = r.free s other := by
  rw [free, free, h]

/-- a section takes a contribution if its key is free there -/
theorem stored_add (r : Registry) (need : Need) (s : Section) :
    (r.add need).stored s =
      if need.place = s ∧ r.free s need = true then r.stored s ++ [need.fragment] else r.stored s := by
  have hfree : (r.get? need.place need.key).isNone = r.free need.place need := by
    rw [Bool.eq_iff_iff]
    simp [get?, free]
  have hadd := stored_contribute r need.place s need.key need.text need.runFirst
  rw [hfree] at hadd
  by_cases hplace : need.place = s
  · subst hplace
    exact hadd
  · simp only [hplace, false_and, if_false] at hadd ⊢
    exact hadd

theorem free_add (r : Registry) (need other : Need) (s : Section) :
    (r.add need).free s other = (r.free s other && !(need.place == s && other.key == need.key)) := by
  rw [free, stored_add]
  by_cases hplace : need.place = s
  · by_cases hkey : other.key = need.key
    · cases hfree : r.free s need with
      | true => simp [hplace, hkey, Need.fragment]
      | false =>
        -- the key was taken before, so it was not free for the other either
        have hother : r.free s other = false := (free_of_key_eq hkey).trans hfree
        rw [if_neg (by simp), hother]
        exact hother
    · have hne : (need.key != other.key) = true := bne_iff_ne.2 (Ne.symm hkey)
      have hbeq : (other.key == need.key) = false := beq_false_of_ne hkey
      split
      · simp [free, hbeq, hne, Need.fragment]
      · simp [free, hbeq]
  · have hbeq : (need.place == s) = false := beq_false_of_ne hplace
    simp [hplace, hbeq, free]

/-- **What contributions leave in a section**: what was there before, and then the first one under each key that was
free. -/
theorem stored_foldl_add (needs : List Need) (r : Registry) (s : Section) :
    (needs.foldl add r).stored s =
      r.stored s ++ ((firstPerKey (needsIn s needs)).filter (r.free s)).map Need.fragment := by
  induction needs generalizing r with
  | nil => exact (List.append_nil _).symm
  | cons need rest ih =>
    have hfree : (r.add need).free s = fun other => r.free s other && !(need.place == s && other.key == need.key) :=
      funext fun other => free_add r need other s
    rw [List.foldl_cons, ih, stored_add, hfree]
    by_cases hplace : need.place = s
    · have hin : needsIn s (need :: rest) = need :: needsIn s rest := by simp [needsIn, hplace]
      rw [hin, firstPerKey]
      cases htaken : r.free s need with
      | true =>
        rw [if_pos ⟨hplace, rfl⟩, List.filter_cons_of_pos htaken, List.filter_filter]
        simp [hplace, bne]
      | false =>
        rw [if_neg (by simp), List.filter_cons_of_neg (by simp [htaken]), List.filter_filter]
        simp [hplace, bne]
    · have hin : needsIn s (need :: rest) = needsIn s rest := by simp [needsIn, hplace]
      have hbeq : (need.place == s) = false := beq_false_of_ne hplace
      rw [hin]
      simp [hplace, hbeq]

end Registry

/-! ## What blocks need -/

namespace Block

/-- the boilerplate that a block needs with all that hangs in its slots, in the order of the walk -/
def needs : Block → List Need :=
  fold fun b values chains =>
    b.requests.flatMap (fun request =>
      match request with
      | .value slot _ _ => (values slot).getD []
      | .chain slot => (chains slot).flatten
      | .counter => []) ++ b.ownNeeds

end Block

def Request.needs (b : Block) : Request → List Need
  | .value slot _ _ => ((b.input? slot).map Block.needs).getD []
  | .chain slot => (b.statement slot).flatMap Block.needs
  | .counter => []

namespace Block

theorem needs_eq (b : Block) : b.needs = b.requests.flatMap (Request.needs b) ++ b.ownNeeds := by
  rw [needs, fold_eq]
  rfl

theorem needs_of_chainActions {chain : List Block} {level : Nat}
    (h : ∀ c ∈ chain, (c.actions .statement level).filterMap Action.need? = c.needs) :
    (chainActions chain level).filterMap Action.need? = chain.flatMap needs := by
  rw [chainActions, List.filterMap_flatMap]
  exact List.flatMap_congr h

variable {board : Board}

/-- a walk that gets through contributes what its block needs -/
theorem needs_of_actions (b : Block) : ∀ {shape : Shape} {level : Nat},
    (∀ action ∈ b.actions shape level, action.Admissible board) →
      (b.actions shape level).filterMap Action.need? = b.needs := by
  induction b using Block.induct with
  | step b hv hs =>
    intro shape level h
    have hr := refusal?_of_admissible h
    have hopening : (b.opening shape).filterMap Action.need? = [] := by cases shape <;> rfl
    have hown : b.ownActions.filterMap Action.need? = b.ownNeeds := by
      rw [ownActions, List.filterMap_append, List.filterMap_map, List.filterMap_map]
      have hclaims : b.pinUse?.toList.filterMap (Action.need? ∘ claim b) = [] := by cases b.pinUse? <;> rfl
      have hcontributions : b.ownNeeds.filterMap (Action.need? ∘ contribute) = b.ownNeeds := List.filterMap_some
      rw [hclaims, hcontributions]
      rfl
    rw [actions_eq, hr, needs_eq, List.filterMap_append, List.filterMap_append, hopening, hown, List.filterMap_flatMap]
    refine congrArg (· ++ b.ownNeeds) (List.flatMap_congr fun request hreq => ?_)
    have hadm {action : Action} (ha : action ∈ request.actions b level) : action.Admissible board :=
      h action ((mem_actions hr).2 (.inr (.inl ⟨request, hreq, ha⟩)))
    cases request with
    | value slot required default =>
      simp only [Request.actions, Request.needs] at hadm ⊢
      cases hc : b.input? slot with
      | none => rfl
      | some c =>
        rw [hc] at hadm
        exact hv slot c hc fun action ha => hadm ha
    | chain slot =>
      refine needs_of_chainActions fun c hc => hs slot c hc fun action ha => hadm ?_
      exact List.mem_flatMap.2 ⟨c, hc, ha⟩
    | counter => rfl

/-- whatever a block passes on to the blocks in its slots: what it needs, a block that has got it needs itself -/
theorem own_of_mem_needs {Q : Block → Prop}
    (hinput : ∀ b, Q b → ∀ slot required default, .value slot required default ∈ b.requests →
      ∀ c, b.input? slot = some c → Q c)
    (hchain : ∀ b, Q b → ∀ slot, .chain slot ∈ b.requests → ∀ c ∈ b.statement slot, Q c) (b : Block) (hb : Q b) :
    ∀ need ∈ b.needs, ∃ c, Q c ∧ need ∈ c.ownNeeds := by
  induction b using Block.induct with
  | step b hv hs =>
    intro need h
    rw [needs_eq] at h
    rcases List.mem_append.1 h with h | h
    · obtain ⟨request, hrequest, hneed⟩ := List.mem_flatMap.1 h
      cases request with
      | value slot required default =>
        simp only [Request.needs] at hneed
        cases hc : b.input? slot with
        | none => rw [hc] at hneed; cases hneed
        | some c =>
          rw [hc] at hneed
          exact hv slot c hc (hinput b hb slot required default hrequest c hc) need hneed
      | chain slot =>
        obtain ⟨c, hc, hmem⟩ := List.mem_flatMap.1 hneed
        exact hs slot c hc (hchain b hb slot hrequest c hc) need hmem
      | counter => cases hneed
    · exact ⟨b, hb, h⟩

/-- what blocks need is what the robot kit or a pin in some role needs -/
theorem vouched_of_mem_needs (b : Block) : ∀ need ∈ b.needs, ∃ roleOf?, Vouched roleOf? need := by
  intro need hneed
  obtain ⟨c, -, h⟩ := b.own_of_mem_needs (Q := fun _ => True) (by simp) (by simp) trivial need hneed
  rcases c.ownNeeds_cases with ⟨-, hrobot⟩ | ⟨use, -, hneeds⟩
  · exact ⟨fun _ => none, .inl (hrobot need h)⟩
  · rw [hneeds] at h
    exact ⟨fun _ => some use.role, .inr ⟨use.pin, use.role, rfl, h⟩⟩

theorem key_ne_user {chain : List Block} {need : Need} (h : need ∈ needsIn .setup (chain.flatMap needs)) :
    need.key ≠ "user_setup" := by
  obtain ⟨hmem, hplace⟩ := mem_needsIn.1 h
  obtain ⟨b, -, hb⟩ := List.mem_flatMap.1 hmem
  obtain ⟨roleOf?, hvouched⟩ := b.vouched_of_mem_needs need hb
  exact hvouched.ne_user hplace

theorem trimmed_of_mem_needs (b : Block) : ∀ need ∈ b.needs, need.trimmed = need := by
  intro need h
  obtain ⟨roleOf?, hvouched⟩ := b.vouched_of_mem_needs need h
  rw [Need.trimmed, hvouched.trimEnd_text]

end Block

/-! ## What programs need -/

/-- the statements of a chain after `loops` loops, in link order -/
def chainStatements (indent : Nat) : List Block → Nat → List String
  | [], _ => []
  | b :: rest, loops => (b.code indent loops).1 :: chainStatements indent rest (b.code indent loops).2

theorem chainCodeText_eq_join (indent : Nat) (chain : List Block) (loops : Nat) :
    (chainCodeText indent chain loops).1 = String.join (chainStatements indent chain loops) := by
  induction chain generalizing loops with
  | nil => rfl
  | cons b rest ih => rw [chainCodeText_cons, chainStatements, String.join_cons, ih]

namespace Program

variable {program : Program} {board : Board} {indent : Nat}

/-- the boilerplate that a program needs, in the order of the walk; the statements of the setup chain, if there are any,
are one piece of it -/
def needs (program : Program) (indent : Nat) : List Need :=
  program.setup.flatMap Block.needs ++
    ((if program.setup.isEmpty then [] else [userSetup (Text.trimEnd (program.setupText indent))]) ++
      program.main.flatMap Block.needs)

/-- the statements of the main chain in link order; their loops are counted on from the setup chain -/
def mainStatements (program : Program) (indent : Nat) : List String :=
  chainStatements indent program.main (chainCodeText indent program.setup 0).2

/-- the pieces of the setup section: those of the setup chain, its statements, and those of the main chain -/
theorem needsIn_setup (h : program.setup ≠ []) :
    needsIn .setup (program.needs indent) = needsIn .setup (program.setup.flatMap Block.needs) ++
      userSetup (Text.trimEnd (program.setupText indent)) :: needsIn .setup (program.main.flatMap Block.needs) := by
  rw [needs, if_neg (by simpa using h)]
  simp [needsIn, userSetup]

/-- the statements of the setup chain are there if the chain has blocks -/
theorem setupText_isEmpty (hadm : ∀ action ∈ chainActions program.setup 1, action.Admissible board) :
    (program.setupText indent).isEmpty = program.setup.isEmpty := by
  cases hsetup : program.setup with
  | nil => simp [setupText, hsetup, chainCodeText_nil]
  | cons b rest =>
    have hfirst : ∀ action ∈ b.actions .statement 1, action.Admissible board := fun action ha =>
      hadm action (List.mem_flatMap.2 ⟨b, by rw [hsetup]; exact List.mem_cons_self, ha⟩)
    obtain ⟨-, k, hk, hshape, -⟩ := Block.refusal?_eq_none_iff.1 (Block.refusal?_of_admissible hfirst)
    have hne := Block.code_ne_empty hk hshape indent 0
    simp [setupText, hsetup, chainCodeText_cons, hne]

/-- a run that gets through contributes what its program needs, but for blanks at the end -/
theorem needs_of_actions (hadm : ∀ action ∈ program.actions board indent, action.Admissible board) :
    ((program.actions board indent).filterMap Action.need?).map Need.trimmed = program.needs indent := by
  have hchain {chain : List Block} (h : ∀ action ∈ chainActions chain 1, action ∈ program.actions board indent) :
      ((chainActions chain 1).filterMap Action.need?).map Need.trimmed = chain.flatMap Block.needs := by
    have hneeds : (chainActions chain 1).filterMap Action.need? = chain.flatMap Block.needs :=
      Block.needs_of_chainActions fun c hc => c.needs_of_actions fun action ha =>
        hadm action (h action (List.mem_flatMap.2 ⟨c, hc, ha⟩))
    have htrimmed : ∀ need ∈ chain.flatMap Block.needs, need.trimmed = id need := by
      intro need hn
      obtain ⟨c, -, hc⟩ := List.mem_flatMap.1 hn
      exact c.trimmed_of_mem_needs need hc
    rw [hneeds, List.map_congr_left htrimmed, List.map_id]
  have hsetup : ∀ action ∈ chainActions program.setup 1, action ∈ program.actions board indent := by
    intro action ha
    exact List.mem_cons_of_mem _ (List.mem_append_left _ ha)
  have hmain : ∀ action ∈ chainActions program.main 1, action ∈ program.actions board indent := by
    intro action ha
    exact List.mem_cons_of_mem _ (List.mem_append_right _ (List.mem_append_right _ ha))
  have huser : (((program.setupNeeds indent).map contribute).filterMap Action.need?).map Need.trimmed =
      if program.setup.isEmpty then [] else [userSetup (Text.trimEnd (program.setupText indent))] := by
    rw [setupNeeds, setupText_isEmpty fun action ha => hadm action (hsetup action ha)]
    split <;> rfl
  have hactions : (program.actions board indent).filterMap Action.need? =
      (chainActions program.setup 1 ++ ((program.setupNeeds indent).map contribute ++
        chainActions program.main 1)).filterMap Action.need? := rfl
  rw [hactions, List.filterMap_append, List.filterMap_append, List.map_append, List.map_append, hchain hsetup, huser,
    hchain hmain]
  rfl

end Program

/-! ## The registry of a run -/

theorem Pass.contributed_noted (p : Pass) (need : Need) : (p.contributed need).Noted need := by
  rcases contributed_cases p need with ⟨-, -, heq⟩ | ⟨-, e, he, -, heq⟩
  · rw [heq]
    exact noted_noted.2 (.inl rfl)
  · rw [heq]
    exact noted_noted.2 (.inl he)

theorem noted_of_performAll {actions : List Action} {p q : Pass} {u : Unit} (h : performAll actions p = .ok u q)
    {need : Need} (hn : need ∈ actions.filterMap Action.need?) : q.Noted need := by
  induction actions generalizing p with
  | nil => cases hn
  | cons action rest ih =>
    rw [performAll_cons] at h
    cases hp : action.perform p with
    | error e r => rw [hp] at h; cases h
    | ok u r =>
      rw [hp] at h
      change performAll rest r = _ at h
      obtain ⟨doer, hmem, hneed⟩ := List.mem_filterMap.1 hn
      rcases List.mem_cons.1 hmem with rfl | hmem
      · -- it is noted when it is made, and notes stay
        have hmade : r.Noted need := by
          cases doer <;> cases hneed
          cases hp
          exact p.contributed_noted need
        obtain ⟨e, he, hneed⟩ := hmade
        have hkeeps := performAll_keeps rest r
        rw [h] at hkeeps
        exact ⟨e, hkeeps.notes e he, hneed⟩
      · exact ih h (List.mem_filterMap.2 ⟨doer, hmem, hneed⟩)

namespace Registry

def ofNeeds (needs : List Need) : Registry :=
  let pieces (s : Section) := (firstPerKey (needsIn s needs)).map Need.piece
  ⟨pieces .includes, pieces .declarations, pieces .setup, pieces .body⟩

theorem stored_ofNeeds (needs : List Need) (s : Section) :
    (ofNeeds needs).stored s = (firstPerKey (needsIn s needs)).map Need.piece := by
  cases s <;> rfl

theorem ext_stored {r r' : Registry} (h : ∀ s, r.stored s = r'.stored s) : r = r' := by
  obtain ⟨includes, declarations, setup, body⟩ := r
  obtain ⟨includes', declarations', setup', body'⟩ := r'
  cases h .includes
  cases h .declarations
  cases h .setup
  cases h .body
  rfl

/-- contributions to a fresh registry leave the first one under each key in a section -/
theorem stored_foldl_add_fresh (needs : List Need) (s : Section) :
    (needs.foldl add {}).stored s = (firstPerKey (needsIn s needs)).map Need.fragment := by
  have hnone : ({} : Registry).stored s = [] := by cases s <;> rfl
  have hfree : ({} : Registry).free s = fun _ => true := by
    funext need
    rw [free, hnone]
    rfl
  rw [stored_foldl_add, hnone, hfree, List.filter_true, List.nil_append]

theorem foldl_add_eq_ofNeeds (needs : List Need) : needs.foldl add {} = ofNeeds (needs.map Need.trimmed) := by
  refine ext_stored fun s => ?_
  have hin : needsIn s (needs.map Need.trimmed) = (needsIn s needs).map Need.trimmed := by
    rw [needsIn, List.filter_map]
    rfl
  rw [stored_foldl_add_fresh, stored_ofNeeds, hin, @firstPerKey_map Need.trimmed fun _ => rfl, List.map_map]
  rfl

theorem fragments_ofNeeds (needs : List Need) (s : Section) :
    (ofNeeds needs).fragments s = (byRank (firstPerKey (needsIn s needs))).map Need.piece := by
  rw [fragments, stored_ofNeeds, byRank, List.filter_map, List.filter_map, List.map_append]
  rfl

theorem render_ofNeeds (needs : List Need) (s : Section) :
    (ofNeeds needs).render s = "\n".intercalate ((byRank (firstPerKey (needsIn s needs))).map Need.text) := by
  rw [render, fragments_ofNeeds, List.map_map]
  rfl

end Registry

section

variable {program : Program} {board : Board} {indent : Nat} {sketch : String} {p : Pass}

/-- a run that gets through does everything it is to do, and ends in the layout -/
theorem runProgram_ok (h : runProgram Table.builtin program { board, indent } = .ok sketch p) :
    ∃ q, performAll (program.actions board indent) (program.start board indent) = .ok () q ∧
      p.registry = q.registry ∧ sketch = q.registry.assemble indent (program.mainText indent) ∧ q.Keeps p := by
  rw [runProgram_eq] at h
  have hframe := performAll_frame (program.actions board indent) (program.start board indent)
  cases hact : performAll (program.actions board indent) (program.start board indent) with
  | error e q => rw [hact] at h; cases h
  | ok u q =>
    rw [hact] at h hframe
    have hindent : q.indent = indent := hframe.indent
    cases h
    refine ⟨q, rfl, rfl, by rw [hindent], ?_⟩
    exact (Pass.noted_keeps q _).trans (Pass.noted_keeps _ _)

/-- the contributions of a run that gets through are what its program needs -/
theorem needs_eq_contributions (h : runProgram Table.builtin program { board, indent } = .ok sketch p) :
    program.needs indent = ((program.actions board indent).filterMap Action.need?).map Need.trimmed := by
  obtain ⟨q, hact, -⟩ := runProgram_ok h
  exact (Program.needs_of_actions (performAll_admissible hact)).symm

theorem runProgram_registry (h : runProgram Table.builtin program { board, indent } = .ok sketch p) :
    p.registry = Registry.ofNeeds (program.needs indent) := by
  obtain ⟨q, hact, hregistry, -⟩ := runProgram_ok h
  rw [hregistry, registry_performAll hact, needs_eq_contributions h]
  exact Registry.foldl_add_eq_ofNeeds _

/-- a sketch is laid out around the boilerplate that its program needs and the text of the main chain -/
theorem sketch_eq_assemble (h : (program.generate board Table.builtin indent).1 = .ok sketch) :
    sketch = (Registry.ofNeeds (program.needs indent)).assemble indent (program.mainText indent) := by
  unfold Program.generate at h
  cases hrun : runProgram Table.builtin program { board, indent } with
  | error e p => rw [hrun] at h; cases h
  | ok sketch' p =>
    rw [hrun] at h
    cases h
    obtain ⟨q, -, hregistry, hsketch, -⟩ := runProgram_ok hrun
    rw [hsketch, ← hregistry, runProgram_registry hrun]

/-- pieces of boilerplate under one key of a section are the same -/
theorem needs_agree (h : runProgram Table.builtin program { board, indent } = .ok sketch p) {need other : Need}
    (hn : need ∈ program.needs indent) (ho : other ∈ program.needs indent) (hplace : need.place = other.place)
    (hkey : need.key = other.key) : need = other := by
  obtain ⟨q, hact, -, -, hkeeps⟩ := runProgram_ok h
  obtain ⟨-, user, haccounted⟩ := runProgram_accounted program (Accounted.fresh board indent)
  rw [h] at haccounted
  have hnoted {made : Need} (hmade : made ∈ (program.actions board indent).filterMap Action.need?) : p.Noted made := by
    obtain ⟨e, he, hneed⟩ := noted_of_performAll hact hmade
    exact ⟨e, hkeeps.notes e he, hneed⟩
  rw [needs_eq_contributions h] at hn ho
  obtain ⟨made, hmade, rfl⟩ := List.mem_map.1 hn
  obtain ⟨made', hmade', rfl⟩ := List.mem_map.1 ho
  have hsame : made = made' := haccounted.losesNothing.agree made made' (hnoted hmade) (hnoted hmade') hplace hkey
  rw [hsame]

end

/-! ## The sketch -/

/-- where pieces under one key are the same, the first of each key are all of them -/
theorem mem_firstPerKey_iff {s : Section} {need : Need} {needs : List Need}
    (hagree : ∀ x ∈ needs, ∀ y ∈ needs, x.place = y.place → x.key = y.key → x = y) :
    need ∈ firstPerKey (needsIn s needs) ↔ need ∈ needs ∧ need.place = s := by
  rw [← mem_needsIn]
  constructor
  · exact mem_of_mem_firstPerKey
  · intro h
    obtain ⟨first, hfirst, hkey⟩ := exists_mem_firstPerKey h
    obtain ⟨hmem, hplace⟩ := mem_needsIn.1 (mem_of_mem_firstPerKey hfirst)
    obtain ⟨hneed, hs⟩ := mem_needsIn.1 h
    have hsame : first = need := hagree first hmem need hneed (hplace.trans hs.symm) hkey
    rw [← hsame]
    exact hfirst

/-- a piece in its section tells the need it was made of -/
theorem eq_of_piece_eq {need other : Need} (hplace : need.place = other.place) (h : need.piece = other.piece) :
    need = other := by
  cases need
  cases other
  cases hplace
  cases h
  rfl

/-- **A sketch has exactly the boilerplate that its program needs.** Its sections, as they are rendered, are the needs
that belong there, the first one of each key, those that run first before the others; every need is there and nothing
else, under each key once; and the sketch is laid out around them and the statements of the main chain. -/
theorem sketch_of_needs {program : Program} {board : Board} {indent : Nat} {sketch : String} {p : Pass}
    (h : runProgram Table.builtin program { board, indent } = .ok sketch p) :
    (∀ s, p.registry.fragments s = (byRank (firstPerKey (needsIn s (program.needs indent)))).map Need.piece) ∧
    (∀ need, need ∈ program.needs indent ↔ need.piece ∈ p.registry.fragments need.place) ∧
    (∀ s, ((p.registry.fragments s).map (·.key)).Nodup) ∧
    sketch =
      (Registry.ofNeeds (program.needs indent)).assemble indent (String.join (program.mainStatements indent)) := by
  have hregistry := runProgram_registry h
  have hfragments (s : Section) : p.registry.fragments s =
      (byRank (firstPerKey (needsIn s (program.needs indent)))).map Need.piece := by
    rw [hregistry, Registry.fragments_ofNeeds]
  have hmem (s : Section) (need : Need) :
      need ∈ byRank (firstPerKey (needsIn s (program.needs indent))) ↔ need ∈ program.needs indent ∧ need.place = s := by
    rw [(byRank_perm _).mem_iff]
    exact mem_firstPerKey_iff fun x hx y hy => needs_agree h hx hy
  refine ⟨hfragments, ?_, ?_, ?_⟩
  · intro need
    rw [hfragments]
    constructor
    · intro hn
      exact List.mem_map_of_mem ((hmem need.place need).2 ⟨hn, rfl⟩)
    · intro hn
      obtain ⟨other, hother, hpiece⟩ := List.mem_map.1 hn
      obtain ⟨hneeded, hplace⟩ := (hmem need.place other).1 hother
      rw [← eq_of_piece_eq hplace hpiece]
      exact hneeded
  · intro s
    have hkeys : (byRank (firstPerKey (needsIn s (program.needs indent)))).map Need.key =
        (p.registry.fragments s).map (·.key) := by
      rw [hfragments, List.map_map]
      rfl
    rw [← hkeys, ((byRank_perm _).map Need.key).nodup_iff]
    exact firstPerKey_nodup _
  · obtain ⟨q, -, hq, hsketch, -⟩ := runProgram_ok h
    rw [hsketch, ← hq, hregistry, Program.mainText, chainCodeText_eq_join]
    rfl

/-- a program whose two chains share a pin, with a servo that is set up first -/
def sampleSharing : Program where
  board := none
  setup := [⟨"w", "io_digitalwrite", [("PIN", "13")], [], [], default⟩]
  main := [⟨"x", "io_digitalwrite", [("PIN", "13")], [], [], default⟩,
    ⟨"s", "servo_write", [("SERVO_PIN", "9")], [], [], default⟩]
  sourceId := 0

/-- the setup section of its sketch: the servo runs first, the shared pin is set up once -/
theorem sketch_of_needs_sharing :
    ∃ sketch p, runProgram Table.builtin sampleSharing { board := Board.uno, indent := 2 } = .ok sketch p ∧
      p.registry.fragments .setup = [⟨"servo_9", "myServo9.attach(9);", true⟩,
        ⟨"io_13", "pinMode(13, OUTPUT);", false⟩, ⟨"user_setup", "digitalWrite(13, LOW);", false⟩] := by
  have hrun : (result? (runProgram Table.builtin sampleSharing { board := Board.uno, indent := 2 })).isSome = true := by
    decide +kernel
  obtain ⟨sketch, hsketch⟩ := Option.isSome_iff_exists.1 hrun
  obtain ⟨p, hp⟩ := result?_eq_some hsketch
  refine ⟨sketch, p, hp, ?_⟩
  rw [(sketch_of_needs hp).1 .setup]
  decide +kernel

end BlockSketch
