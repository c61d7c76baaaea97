/-
What a run does not see of the texts in a program.

A text block says whatever is in its field `TEXT`; `Program.muted` is the program without these fields. Two programs that
are the same but for what their text blocks say are the same when muted. No generator but the one of text blocks looks
at what they say, so a run of one does what a run of the other does, until the texts are put into the sketch.

Results:
- `actions_muted`: the walk through a muted block does the same things as the walk through the block;
- `failure?_muted`, `generate_error_of_muted`: the runs of a program and of the muted program fail in the same way or not
  at all;
- `mem_textBlocks_iff`: `Program.textBlocks` lists the text blocks that a run comes to;
- `textBlocks_subperm_blocks`: none of them more often than it stands in the program.
-/
import BlockSketch.Proofs.Entering
import BlockSketch.Proofs.Success

namespace BlockSketch

open BlockSketch.Action

/-! ## Muted blocks -/

namespace Block

mutual
/-- the block without what the text blocks in it say -/
def muted : Block → Block
  | ⟨id, kind, fields, inputs, statements, span⟩ =>
    ⟨id, kind, if kind = "text" then fields.filter (fun field => field.1 != "TEXT") else fields, mutedInputs inputs,
      mutedStatements statements, span⟩

def mutedInputs : List (String × Block) → List (String × Block)
  | [] => []
  | (slot, block) :: rest => (slot, muted block) :: mutedInputs rest

def mutedStatements : List (String × List Block) → List (String × List Block)
  | [] => []
  | (slot, chain) :: rest => (slot, mutedChain chain) :: mutedStatements rest

def mutedChain : List Block → List Block
  | [] => []
  | block :: rest => muted block :: mutedChain rest
end

theorem muted_eq (b : Block) : b.muted = ⟨b.id, b.kind,
    if b.kind = "text" then b.fields.filter (fun field => field.1 != "TEXT") else b.fields, mutedInputs b.inputs,
    mutedStatements b.statements, b.span⟩ := by
  obtain ⟨id, kind, fields, inputs, statements, span⟩ := b
  rw [muted]

@[simp] theorem muted_id (b : Block) : b.muted.id = b.id := by rw [muted_eq]

@[simp] theorem muted_kind (b : Block) : b.muted.kind = b.kind := by rw [muted_eq]

@[simp] theorem muted_span (b : Block) : b.muted.span = b.span := by rw [muted_eq]

theorem mutedChain_eq_map (chain : List Block) : mutedChain chain = chain.map muted := by
  induction chain with
  | nil => rw [mutedChain]; rfl
  | cons b rest ih => rw [mutedChain, ih]; rfl

theorem lookup_mutedInputs (inputs : List (String × Block)) (slot : String) :
    (mutedInputs inputs).lookup slot = (inputs.lookup slot).map muted := by
  induction inputs with
  | nil => rw [mutedInputs]; rfl
  | cons entry rest ih =>
    obtain ⟨name, b⟩ := entry
    rw [mutedInputs, List.lookup_cons, List.lookup_cons]
    cases slot == name with
    | true => rfl
    | false => exact ih

theorem lookup_mutedStatements (statements : List (String × List Block)) (slot : String) :
    (mutedStatements statements).lookup slot = (statements.lookup slot).map (List.map muted) := by
  induction statements with
  | nil => rw [mutedStatements]; rfl
  | cons entry rest ih =>
    obtain ⟨name, chain⟩ := entry
    rw [mutedStatements, List.lookup_cons, List.lookup_cons, mutedChain_eq_map]
    cases slot == name with
    | true => rfl
    | false => exact ih

@[simp] theorem muted_input? (b : Block) (slot : String) : b.muted.input? slot = (b.input? slot).map muted := by
  rw [muted_eq]
  exact lookup_mutedInputs b.inputs slot

@[simp] theorem muted_statement (b : Block) (slot : String) : b.muted.statement slot = (b.statement slot).map muted := by
  rw [muted_eq]
  simp only [statement, lookup_mutedStatements]
  cases b.statements.lookup slot with
  | none => rfl
  | some chain => rfl

@[simp] theorem muted_hasStatement (b : Block) (slot : String) : b.muted.hasStatement slot = b.hasStatement slot := by
  rw [muted_eq]
  simp [hasStatement, lookup_mutedStatements]

theorem length_mutedInputs (inputs : List (String × Block)) : (mutedInputs inputs).length = inputs.length := by
  induction inputs with
  | nil => rw [mutedInputs]
  | cons entry rest ih => rw [mutedInputs, List.length_cons, List.length_cons, ih]

theorem length_mutedStatements (statements : List (String × List Block)) :
    (mutedStatements statements).length = statements.length := by
  induction statements with
  | nil => rw [mutedStatements]
  | cons entry rest ih => rw [mutedStatements, List.length_cons, List.length_cons, ih]

@[simp] theorem muted_kind? (b : Block) : b.muted.kind? = b.kind? := by
  rw [kind?, muted_kind, kind?]

/-- only text blocks lose anything -/
theorem muted_field? {b : Block} {k : Kind} (hk : b.kind? = some k) (hne : k ≠ .text) (name : String) :
    b.muted.field? name = b.field? name := by
  have hkind : b.kind ≠ "text" := by
    intro h
    rw [kind?, h] at hk
    cases hk
    exact hne rfl
  rw [muted_eq]
  simp [field?, hkind]

theorem muted_branchCount (b : Block) : Library.branchCount b.muted = Library.branchCount b := by
  have hbranch : Library.hasBranch b.muted = Library.hasBranch b := by
    funext n
    simp [Library.hasBranch]
  have hlength : b.muted.inputs.length + b.muted.statements.length = b.inputs.length + b.statements.length := by
    rw [muted_eq]
    simp only [length_mutedInputs, length_mutedStatements]
  rw [Library.branchCount, Library.branchCount, hbranch, hlength]

variable {b : Block} {k : Kind}

theorem muted_word (hk : b.kind? = some k) : k.word b.muted = k.word b := by
  by_cases hne : k = .text
  · subst hne
    rfl
  · simp [Kind.word, Library.field?, muted_field? hk hne]

theorem muted_fault? (hk : b.kind? = some k) : k.fault? b.muted = k.fault? b := by
  by_cases hne : k = .text
  · subst hne
    rfl
  · simp [Kind.fault?, Library.field?, muted_field? hk hne]

@[simp] theorem muted_refusal? (b : Block) (shape : Shape) (level : Nat) :
    b.muted.refusal? shape level = b.refusal? shape level := by
  unfold refusal?
  rw [muted_kind?, muted_kind]
  cases hk : b.kind? with
  | none => rfl
  | some k => simp [muted_fault? hk]

@[simp] theorem muted_requests (b : Block) : b.muted.requests = b.requests := by
  unfold requests
  rw [muted_kind?]
  cases hk : b.kind? with
  | none => rfl
  | some k =>
    simp only [Option.elim_some, muted_word hk]
    cases k with
    | controlsIf => simp [Kind.requests, muted_branchCount]
    | _ => rfl

@[simp] theorem muted_pinUse? (b : Block) : b.muted.pinUse? = b.pinUse? := by
  unfold pinUse?
  rw [muted_kind?]
  cases hk : b.kind? with
  | none => rfl
  | some k => simp [muted_word hk]

@[simp] theorem muted_ownNeeds (b : Block) : b.muted.ownNeeds = b.ownNeeds := by
  unfold ownNeeds
  rw [muted_kind?]
  cases hk : b.kind? with
  | none => rfl
  | some k => simp [muted_word hk]

end Block

/-! ## The walk does the same things -/

/-- the action on behalf of the muted block -/
def Action.muted : Action → Action
  | .claim b use => .claim b.muted use
  | .fail b fault => .fail b.muted fault
  | action => action

theorem perform_muted (action : Action) (p : Pass) : action.muted.perform p = action.perform p := by
  cases action with
  | claim b use =>
    have hclaim : Pass.claimOf b.muted use = Pass.claimOf b use := by simp [Pass.claimOf]
    have hfailure (fault : Fault) : Gen.claimFailure p b.muted use.pin fault = Gen.claimFailure p b use.pin fault := by
      simp [Gen.claimFailure, Failure.atBlock]
    rw [Action.muted, perform_claim, perform_claim, hclaim]
    simp only [hfailure]
  | fail b fault => simp [Action.muted, perform_fail, Failure.atBlock]
  | _ => rfl

theorem performAll_muted (actions : List Action) (p : Pass) :
    performAll (actions.map Action.muted) p = performAll actions p := by
  induction actions generalizing p with
  | nil => rfl
  | cons action rest ih => simp only [List.map_cons, performAll_cons, perform_muted, ih]

/-- the walk through a muted block does what the walk through the block does -/
theorem Block.actions_muted (b : Block) (shape : Shape) (level : Nat) :
    b.muted.actions shape level = (b.actions shape level).map Action.muted := by
  induction b using Block.induct generalizing shape level with
  | step b hv hs =>
    have hopening : b.muted.opening shape = (b.opening shape).map Action.muted := by
      cases shape with
      | value => rfl
      | statement => simp [opening, Action.muted]
    have hown : b.muted.ownActions = b.ownActions.map Action.muted := by
      simp [ownActions, Function.comp_def, Action.muted]
    have hrequest : Request.actions b.muted level = fun request => (request.actions b level).map Action.muted := by
      funext request
      cases request with
      | value slot required default =>
        simp only [Request.actions, muted_input?]
        cases hc : b.input? slot with
        | none => rfl
        | some c => exact hv slot c hc .value (level + 1)
      | chain slot =>
        simp only [Request.actions, muted_statement, chainActions, List.flatMap_map, List.map_flatMap]
        exact List.flatMap_congr fun c hc => hs slot c hc .statement (level + 1)
      | counter => rfl
    rw [actions_eq, actions_eq, List.map_append, hopening, muted_refusal?]
    cases b.refusal? shape level with
    | some fault => rfl
    | none => simp only [muted_requests, List.map_append, List.map_flatMap, hrequest, hown]

theorem chainActions_muted (chain : List Block) (level : Nat) :
    chainActions (chain.map Block.muted) level = (chainActions chain level).map Action.muted := by
  simp only [chainActions, List.flatMap_map, List.map_flatMap, Block.actions_muted]

/-! ## Runs fail in the same way -/

/-- two states agree in what decides whether an action fails, and how -/
structure Pass.SameChances (p p' : Pass) : Prop where
  board : p'.board = p.board
  sourceId : p'.sourceId = p.sourceId
  pins : p'.pins = p.pins

theorem perform_sameChances {p p' : Pass} (h : p.SameChances p') (action : Action) :
    failure? (action.perform p') = failure? (action.perform p) ∧
      (afterwards (action.perform p)).SameChances (afterwards (action.perform p')) := by
  cases action with
  | note e => exact ⟨rfl, h.board, h.sourceId, h.pins⟩
  | contribute need => exact ⟨rfl, h.board, h.sourceId, h.pins⟩
  | count => exact ⟨rfl, h.board, h.sourceId, h.pins⟩
  | fail b fault => exact ⟨by simp [perform_fail, failure?, h.sourceId], h⟩
  | claim b use =>
    rw [perform_claim, perform_claim, h.board, h.pins]
    have hfailure (fault : Fault) : Gen.claimFailure p' b use.pin fault = Gen.claimFailure p b use.pin fault := by
      simp only [Gen.claimFailure, h.sourceId, h.pins]
    cases p.pins.claim p.board (Pass.claimOf b use) with
    | ok pins => exact ⟨rfl, rfl, h.sourceId, rfl⟩
    | error fault => exact ⟨by simp [failure?, hfailure], h⟩

theorem performAll_sameChances {p p' : Pass} (h : p.SameChances p') (actions : List Action) :
    failure? (performAll actions p') = failure? (performAll actions p) := by
  induction actions generalizing p p' with
  | nil => rfl
  | cons action rest ih =>
    obtain ⟨hfailure, hafter⟩ := perform_sameChances h action
    rw [performAll_cons, performAll_cons]
    cases hp : action.perform p with
    | ok u q =>
      cases hp' : action.perform p' with
      | ok u' q' =>
        rw [hp, hp'] at hafter
        exact ih hafter
      | error e' q' => rw [hp, hp'] at hfailure; cases hfailure
    | error e q =>
      cases hp' : action.perform p' with
      | ok u' q' => rw [hp, hp'] at hfailure; cases hfailure
      | error e' q' => rw [hp, hp'] at hfailure; exact hfailure

/-- contributions do not fail, and change nobody's chances -/
theorem performAll_contributions (needs : List Need) (p : Pass) :
    ∃ q, performAll (needs.map contribute) p = .ok () q ∧ p.SameChances q := by
  induction needs generalizing p with
  | nil => exact ⟨p, rfl, rfl, rfl, rfl⟩
  | cons need rest ih =>
    obtain ⟨q, hq, hchances⟩ := ih (p.contributed need)
    refine ⟨q, ?_, hchances.board, hchances.sourceId, hchances.pins⟩
    rw [List.map_cons, performAll_cons, perform_contribute]
    exact hq

namespace Program

/-- the program without what its text blocks say -/
def muted (program : Program) : Program :=
  ⟨program.board, program.setup.map Block.muted, program.main.map Block.muted, program.sourceId⟩

end Program

/-- contributions do not come into whether the actions after them fail -/
theorem failure?_contributions (needs needs' : List Need) (actions : List Action) (p : Pass) :
    failure? (performAll (needs.map contribute ++ actions) p) =
      failure? (performAll (needs'.map contribute ++ actions) p) := by
  obtain ⟨q, hq, hchances⟩ := performAll_contributions needs p
  obtain ⟨q', hq', hchances'⟩ := performAll_contributions needs' p
  rw [performAll_append, performAll_append, hq, hq']
  exact (performAll_sameChances hchances actions).trans (performAll_sameChances hchances' actions).symm

theorem failure?_muted (program : Program) (board : Board) (indent : Nat) :
    failure? (performAll (program.muted.actions board indent) (program.muted.start board indent)) =
      failure? (performAll (program.actions board indent) (program.start board indent)) := by
  -- the setup statements are contributed between the chains, and their text is another
  have hmain (needs needs' : List Need) (q : Pass) :
      failure? (performAll (needs.map contribute ++ (chainActions program.main 1).map Action.muted) q) =
        failure? (performAll (needs'.map contribute ++ chainActions program.main 1) q) := by
    rw [failure?_contributions needs needs', performAll_append, performAll_append]
    simp only [performAll_muted]
  simp only [Program.actions, Program.muted, performAll_cons, perform_note, Program.start]
  rw [performAll_append, performAll_append, chainActions_muted, performAll_muted, chainActions_muted]
  cases performAll (chainActions program.setup 1) _ with
  | error e q => rfl
  | ok u q => exact hmain _ _ q

theorem failure?_eq_some_iff {α : Type} {r : EStateM.Result Failure Pass α} {e : Failure} :
    failure? r = some e ↔ ∃ q, r = .error e q := by
  cases r with
  | ok a q => simp [failure?]
  | error e' q => simp [failure?]

/-- **What text blocks say does not decide how a run fails**, or whether it does. -/
theorem generate_error_of_muted {program program' : Program} (h : program'.muted = program.muted) (board : Board)
    (indent : Nat) (e : Failure) :
    (program'.generate board Table.builtin indent).1 = .error e ↔
      (program.generate board Table.builtin indent).1 = .error e := by
  rw [generate_eq_error_iff, generate_eq_error_iff, ← failure?_eq_some_iff, ← failure?_eq_some_iff,
    ← failure?_muted program', ← failure?_muted program, h]

/-! ## The text blocks that a run comes to -/

/-- the text blocks that the walk through a block comes to, in the order in which they stand in its code -/
def Block.textBlocks : Block → List Block :=
  fold fun b values chains =>
    if b.kind = "text" then [b]
    else b.requests.flatMap fun request =>
      match request with
      | .value slot _ _ => (values slot).getD []
      | .chain slot => (chains slot).flatten
      | .counter => []

def Request.textBlocks (b : Block) : Request → List Block
  | .value slot _ _ => (b.input? slot).elim [] Block.textBlocks
  | .chain slot => (b.statement slot).flatMap Block.textBlocks
  | .counter => []

theorem Block.textBlocks_eq (b : Block) :
    b.textBlocks = if b.kind = "text" then [b] else b.requests.flatMap (Request.textBlocks b) := by
  rw [textBlocks, fold_eq]
  congr 1
  refine List.flatMap_congr fun request _ => ?_
  cases request with
  | value slot required default =>
    simp only [Request.textBlocks]
    cases b.input? slot with
    | none => rfl
    | some c => rfl
  | chain slot => simp only [Request.textBlocks, List.flatMap_def, textBlocks]
  | counter => rfl

/-- the text blocks that a run comes to, in the order in which they stand in the sketch -/
def Program.textBlocks (program : Program) : List Block :=
  program.setup.flatMap Block.textBlocks ++ program.main.flatMap Block.textBlocks

theorem mem_request_textBlocks {b c : Block} {request : Request} :
    c ∈ request.textBlocks b ↔ ∃ slot d, request.slot? = some slot ∧ d ∈ b.inside slot ∧ c ∈ d.textBlocks := by
  cases request with
  | value slot required default =>
    simp only [Request.textBlocks, Request.slot?, Option.some.injEq, Block.inside]
    cases hd : b.input? slot with
    | none => simp [hd]
    | some d => simp [hd]
  | chain slot => simp [Request.textBlocks, Request.slot?, Block.inside]
  | counter => simp [Request.textBlocks, Request.slot?]

variable {program : Program} {shape : Shape} {level : Nat} {b : Block}

theorem walked_of_mem_textBlocks (h : Walked program shape level b) {c : Block} (hc : c ∈ b.textBlocks) :
    c.kind = "text" ∧ ∃ shape level, Walked program shape level c := by
  induction b using Block.induct generalizing shape level with
  | step b hv hs =>
    rw [Block.textBlocks_eq] at hc
    split at hc
    · rename_i htext
      cases List.mem_singleton.1 hc
      exact ⟨htext, shape, level, h⟩
    · obtain ⟨request, hrequest, hc⟩ := List.mem_flatMap.1 hc
      obtain ⟨slot, d, hslot, hd, hc⟩ := mem_request_textBlocks.1 hc
      cases hk : b.kind? with
      | none => simp [Block.requests, hk] at hrequest
      | some k =>
        rw [Block.requests_of_kind hk] at hrequest
        have hwalked := Walked.inside h (kind?_eq_some_iff.1 hk) (looksInto_of_request hrequest hslot) hd
        obtain ⟨slotShape, name⟩ := slot
        cases slotShape with
        | value => exact hv name d (Option.mem_toList.1 hd) hwalked hc
        | statement => exact hs name d hd hwalked hc

theorem textBlocks_subset_of_walked (h : Walked program shape level b) :
    ∀ c ∈ b.textBlocks, c ∈ program.textBlocks := by
  induction h with
  | setup hb => exact fun c hc => List.mem_append_left _ (List.mem_flatMap.2 ⟨_, hb, hc⟩)
  | main hb => exact fun c hc => List.mem_append_right _ (List.mem_flatMap.2 ⟨_, hb, hc⟩)
  | @inside b d k shape level slot hb hk hslot hd ih =>
    intro c hc
    have hkind : b.kind ≠ "text" := by
      intro htext
      have hkind? := kind?_eq_some_iff.2 hk
      rw [Block.kind?, htext] at hkind?
      cases hkind?
      cases hslot
    obtain ⟨request, hrequest, hs⟩ := request_of_looksInto (k.word b) hslot hd
    rw [← Block.requests_of_kind (kind?_eq_some_iff.2 hk)] at hrequest
    apply ih
    rw [Block.textBlocks_eq, if_neg hkind]
    exact List.mem_flatMap.2 ⟨request, hrequest, mem_request_textBlocks.2 ⟨slot, d, hs, hd, hc⟩⟩

theorem mem_textBlocks_iff : b ∈ program.textBlocks ↔ b.kind = "text" ∧ ∃ shape level, Walked program shape level b := by
  constructor
  · intro h
    rcases List.mem_append.1 h with h | h
    · obtain ⟨top, htop, hb⟩ := List.mem_flatMap.1 h
      exact walked_of_mem_textBlocks (.setup htop) hb
    · obtain ⟨top, htop, hb⟩ := List.mem_flatMap.1 h
      exact walked_of_mem_textBlocks (.main htop) hb
  · rintro ⟨htext, shape, level, hwalked⟩
    apply textBlocks_subset_of_walked hwalked
    rw [Block.textBlocks_eq, if_pos htext]
    exact List.mem_singleton.2 rfl

/-! ## No text block is come to twice -/

theorem subperm_flatMap {α β : Type} {xs : List α} {f g : α → List β} (h : ∀ x ∈ xs, (f x).Subperm (g x)) :
    (xs.flatMap f).Subperm (xs.flatMap g) := by
  induction xs with
  | nil => simp
  | cons x rest ih =>
    rw [List.flatMap_cons, List.flatMap_cons]
    exact (h x List.mem_cons_self).append (ih fun y hy => h y (List.mem_cons_of_mem x hy))

/-- what is looked up under different keys stands in different places -/
theorem subperm_lookups {α β γ : Type} [DecidableEq α] (f : β → List γ) (entries : List (α × List β)) {keys : List α}
    (h : keys.Nodup) :
    (keys.flatMap fun key => ((entries.lookup key).getD []).flatMap f).Subperm
      (entries.flatMap fun entry => entry.2.flatMap f) := by
  induction entries generalizing keys with
  | nil => simp
  | cons entry rest ih =>
    obtain ⟨name, xs⟩ := entry
    have hother {key : α} (hne : key ≠ name) : ((name, xs) :: rest).lookup key = rest.lookup key := by
      rw [List.lookup_cons, beq_false_of_ne hne]
    rw [List.flatMap_cons]
    by_cases hname : name ∈ keys
    · have hrest : ((keys.erase name).flatMap fun key => ((((name, xs) :: rest).lookup key).getD []).flatMap f) =
          (keys.erase name).flatMap fun key => ((rest.lookup key).getD []).flatMap f :=
        List.flatMap_congr fun key hkey => by rw [hother (h.mem_erase_iff.1 hkey).1]
      have hfirst : (((name, xs) :: rest).lookup name).getD [] = xs := by simp
      refine ((List.perm_cons_erase hname).flatMap_right _).subperm.trans ?_
      rw [List.flatMap_cons, hfirst, hrest]
      exact (List.Subperm.refl _).append (ih (h.erase name))
    · have hrest : (keys.flatMap fun key => ((((name, xs) :: rest).lookup key).getD []).flatMap f) =
          keys.flatMap fun key => ((rest.lookup key).getD []).flatMap f :=
        List.flatMap_congr fun key hkey => by rw [hother fun heq => hname (heq ▸ hkey)]
      rw [hrest]
      exact (ih h).trans (List.sublist_append_right _ _).subperm

def branchSlots (n : Nat) : List Slot := [⟨.value, "IF" ++ toString n⟩, ⟨.statement, "DO" ++ toString n⟩]

theorem branchSlots_disjoint {n m : Nat} (h : n ≠ m) : (branchSlots n).Disjoint (branchSlots m) := by
  intro slot hn hm
  simp only [branchSlots, List.mem_cons, List.not_mem_nil, or_false] at hn hm
  rcases hn with rfl | rfl
  · rcases hm with hm | hm
    · exact h (numbered_injective (congrArg Slot.name hm))
    · cases congrArg Slot.shape hm
  · rcases hm with hm | hm
    · cases congrArg Slot.shape hm
    · exact h (numbered_injective (congrArg Slot.name hm))

/-- no kind looks into a slot twice -/
theorem Kind.slots_nodup (k : Kind) (b : Block) (word : String) :
    ((k.requests b word).filterMap Request.slot?).Nodup := by
  cases k with
  | controlsIf =>
    have hbranches : ((List.range (Library.branchCount b)).flatMap branchSlots).Nodup := by
      refine List.nodup_flatMap.2 ⟨fun n _ => by simp [branchSlots], ?_⟩
      exact List.nodup_range.imp fun hne => branchSlots_disjoint hne
    have hlast : (⟨.statement, "ELSE"⟩ : Slot) ∉ (List.range (Library.branchCount b)).flatMap branchSlots := by
      intro hmem
      obtain ⟨n, -, hn⟩ := List.mem_flatMap.1 hmem
      have hname : "ELSE" = "DO" ++ toString n := by simpa [branchSlots] using hn
      have hchars := congrArg String.toList hname
      simp [String.toList_append] at hchars
    have hslots : (Kind.branchRequests (List.range (Library.branchCount b)) (b.hasStatement "ELSE")).filterMap
        Request.slot? = (List.range (Library.branchCount b)).flatMap branchSlots ++
          if b.hasStatement "ELSE" then [⟨.statement, "ELSE"⟩] else [] := by
      rw [Kind.branchRequests, List.filterMap_append, List.filterMap_flatMap]
      cases b.hasStatement "ELSE" with
      | true => rfl
      | false => rfl
    rw [Kind.requests, hslots]
    cases b.hasStatement "ELSE" with
    | true => exact List.nodup_append'.2 ⟨hbranches, List.nodup_singleton _, by simpa using hlast⟩
    | false => simpa using hbranches
  | _ => simp [Kind.requests, Request.slot?, List.filterMap_cons]

namespace Block

/-- everything that hangs in the slots of a block -/
def contents (b : Block) : List (Slot × List Block) :=
  b.inputs.map (fun entry => (⟨.value, entry.1⟩, [entry.2])) ++
    b.statements.map fun entry => (⟨.statement, entry.1⟩, entry.2)

theorem flatMap_contents (b : Block) :
    b.contents.flatMap (fun entry => entry.2.flatMap all) = allInputs b.inputs ++ allStatements b.statements := by
  have hchain (chain : List Block) : chain.flatMap all = allChain chain := by
    induction chain with
    | nil => rw [allChain]; rfl
    | cons c rest ih => rw [allChain, List.flatMap_cons, ih]
  have hinputs (inputs : List (String × Block)) : inputs.flatMap (fun entry => all entry.2) = allInputs inputs := by
    induction inputs with
    | nil => rw [allInputs]; rfl
    | cons entry rest ih => rw [allInputs, List.flatMap_cons, ih]
  have hstatements (statements : List (String × List Block)) :
      statements.flatMap (fun entry => allChain entry.2) = allStatements statements := by
    induction statements with
    | nil => rw [allStatements]; rfl
    | cons entry rest ih => rw [allStatements, List.flatMap_cons, ih]
  simp [contents, List.flatMap_append, List.flatMap_map, hchain, hinputs, hstatements, allChain]

theorem lookup_contents (b : Block) (slot : Slot) : (b.contents.lookup slot).getD [] = b.inside slot := by
  have htagged {β : Type} (f : β → List Block) (shape : Shape) (entries : List (String × β)) :
      (entries.map fun entry => ((⟨shape, entry.1⟩ : Slot), f entry.2)).lookup slot =
        if slot.shape = shape then (entries.lookup slot.name).map f else none := by
    induction entries with
    | nil => simp
    | cons entry rest ih =>
      obtain ⟨name, x⟩ := entry
      rw [List.map_cons, List.lookup_cons, List.lookup_cons, ih]
      obtain ⟨slotShape, slotName⟩ := slot
      by_cases hshape : slotShape = shape
      · by_cases hname : slotName = name
        · simp [hshape, hname]
        · have hslot : ((⟨shape, slotName⟩ : Slot) == ⟨shape, name⟩) = false := by simpa using hname
          have hbeq : (slotName == name) = false := beq_false_of_ne hname
          simp [hshape, hslot, hbeq]
      · have hslot : ((⟨slotShape, slotName⟩ : Slot) == ⟨shape, name⟩) = false := by simp [hshape]
        simp [hshape, hslot]
  rw [contents, List.lookup_append, htagged (fun c => [c]), htagged (fun chain => chain)]
  obtain ⟨shape, name⟩ := slot
  cases shape with
  | value => cases hc : b.inputs.lookup name <;> simp [inside, input?, hc]
  | statement => simp [inside, statement]

/-- the text blocks that a walk comes to are among the blocks of its block, none more often than it stands there -/
theorem textBlocks_subperm (b : Block) : b.textBlocks.Subperm b.all := by
  induction b using Block.induct with
  | step b hv hs =>
    rw [textBlocks_eq]
    split
    · exact List.singleton_subperm_iff.2 b.mem_all_self
    · have hinside (slot : Slot) : ∀ c ∈ b.inside slot, c.textBlocks.Subperm c.all := by
        intro c hc
        obtain ⟨shape, name⟩ := slot
        cases shape with
        | value => exact hv name c (Option.mem_toList.1 hc)
        | statement => exact hs name c hc
      have hslots (requests : List Request) : requests.flatMap (Request.textBlocks b) =
          (requests.filterMap Request.slot?).flatMap fun slot => (b.inside slot).flatMap textBlocks := by
        induction requests with
        | nil => rfl
        | cons request rest ih =>
          rw [List.flatMap_cons, ih]
          cases request with
          | value slot required default =>
            cases hc : b.input? slot <;> simp [Request.textBlocks, Request.slot?, inside, hc]
          | chain slot => simp [Request.textBlocks, Request.slot?, inside]
          | counter => simp [Request.textBlocks, Request.slot?, List.filterMap_cons]
      have hnodup : (b.requests.filterMap Request.slot?).Nodup := by
        cases hk : b.kind? with
        | none => simp [requests, hk]
        | some k => rw [requests_of_kind hk]; exact k.slots_nodup b (k.word b)
      rw [hslots, all_eq, ← flatMap_contents]
      refine List.Subperm.trans ?_ (List.sublist_cons_self b _).subperm
      refine (subperm_flatMap fun slot _ => subperm_flatMap (hinside slot)).trans ?_
      simp only [← lookup_contents]
      exact subperm_lookups all b.contents hnodup

end Block

/-- no text block is come to more often than it stands in the program -/
theorem textBlocks_subperm_blocks (program : Program) : program.textBlocks.Subperm program.blocks := by
  have hchain (chain : List Block) : (chain.flatMap Block.textBlocks).Subperm (Block.allChain chain) := by
    induction chain with
    | nil => simp
    | cons b rest ih =>
      rw [List.flatMap_cons, Block.allChain]
      exact b.textBlocks_subperm.append ih
  exact (hchain program.setup).append (hchain program.main)

end BlockSketch
