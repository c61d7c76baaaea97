/-
Who is to blame when there is no sketch.

A run does the actions of its program one after the other and stops at the first that fails. Only two kinds of action
can: a block that cannot stand where it stands, and a claim on a pin. Both are done on behalf of one walked block, and
that block is the one the failure names. A claim that fails because the pin has another role names a second block as
well; the pin table keeps the first claim on every pin, so that block is the first that claimed it.

Results:
- `performAll_error`: a list of actions fails at one of them, after all before it have succeeded;
- `owned_of_walked`: what can fail in the walk of a block is done by a walked block, on its own behalf;
- `get?_performAll`: the table has the first claim made on each pin;
- `failure_blames_block`: the block that a failure names is there, is the only one of its id, and has the fault.
-/
import BlockSketch.Proofs.Success
import BlockSketch.Proofs.Visits

namespace BlockSketch

open BlockSketch.Action

/-! ## Where a list of actions fails -/

/-- a failure and the state it leaves behind: the block cannot stand where it stands, or cannot have its pin -/
theorem perform_error {action : Action} {p q : Pass} {e : Failure} (h : action.perform p = .error e q) :
    q = p ∧ ((∃ b fault, action = fail b fault ∧ e = ⟨fault, some b.id, some b.span, p.sourceId, none⟩) ∨
      ∃ b use, action = claim b use ∧
        (p.board.supports use.pin use.role = false ∧
            e = ⟨.capability use.pin use.role p.board.name, some b.id, some b.span, p.sourceId, none⟩ ∨
          ∃ existing, p.pins.get? use.pin = some existing ∧ existing.role ≠ use.role ∧
            e = ⟨.pinConflict use.pin existing.role existing.purpose use.role use.purpose, some b.id, some b.span,
              p.sourceId, existing.claimant.map fun first =>
                ⟨first.blockId, first.span, "pin " ++ use.pin ++ " first reserved here"⟩⟩)) := by
  cases action with
  | note _ => rw [perform_note] at h; cases h
  | contribute need => rw [perform_contribute] at h; cases h
  | count => rw [perform_count] at h; cases h
  | fail b fault =>
    rw [perform_fail] at h
    cases h
    exact ⟨rfl, .inl ⟨b, fault, rfl, rfl⟩⟩
  | claim b use =>
    rw [perform_claim] at h
    rcases p.pins.claim_cases p.board (Pass.claimOf b use) with
      ⟨heligible, hclaim⟩ | ⟨-, ⟨-, hclaim⟩ | ⟨first, hfirst, ⟨-, hclaim⟩ | ⟨hrole, hclaim⟩⟩⟩ <;>
      rw [hclaim] at h <;> cases h
    · rw [← Board.supports_iff, Bool.not_eq_true] at heligible
      exact ⟨rfl, .inr ⟨b, use, rfl, .inl ⟨heligible, rfl⟩⟩⟩
    · have hget : p.pins.get? use.pin = some first := hfirst
      refine ⟨rfl, .inr ⟨b, use, rfl, .inr ⟨first, hget, hrole, ?_⟩⟩⟩
      simp only [Gen.claimFailure, hget, Option.bind_some]
      cases first.claimant with
      | none => rfl
      | some claimant => rfl

/-- actions fail at one of them, after those before it have succeeded -/
theorem performAll_error {actions : List Action} {p q : Pass} {e : Failure} (h : performAll actions p = .error e q) :
    ∃ done action rest, actions = done ++ action :: rest ∧ performAll done p = .ok () q ∧
      action.perform q = .error e q := by
  induction actions generalizing p with
  | nil => cases h
  | cons action rest ih =>
    rw [performAll_cons] at h
    cases hp : action.perform p with
    | ok u r =>
      rw [hp] at h
      obtain ⟨done, failing, others, rfl, hdone, hfailing⟩ := ih h
      refine ⟨action :: done, failing, others, rfl, ?_, hfailing⟩
      rw [performAll_cons, hp]
      exact hdone
    | error e' r =>
      rw [hp] at h
      cases h
      obtain ⟨rfl, -⟩ := perform_error hp
      exact ⟨[], action, rest, rfl, rfl, hp⟩

/-! ## The first claim on a pin -/

/-- the claim that an action makes, and the block it makes it for -/
def Action.claimed? : Action → Option (Block × PinUse)
  | .claim b use => some (b, use)
  | _ => none

/-- the first claim on a pin among those that actions make -/
def firstClaim? (actions : List Action) (pin : String) : Option (Block × PinUse) :=
  (actions.filterMap Action.claimed?).find? fun c => c.2.pin == pin

theorem get?_claim {t t' : PinTable} {board : Board} {c : Claim} (h : t.claim board c = .ok t') (pin : String) :
    t'.get? pin = (t.get? pin).or (if c.pin = pin then some c else none) := by
  rcases t.claim_ok_cases h with ⟨-, rfl⟩ | ⟨first, hfirst, -, rfl⟩
  · by_cases hpin : c.pin = pin
    · simp [PinTable.get?, List.find?_append, hpin]
    · simp [PinTable.get?, List.find?_append, hpin]
  · -- the claim on record stays there
    by_cases hpin : c.pin = pin
    · subst hpin
      simp [hfirst]
    · simp [hpin]

/-- after actions that succeeded a pin has the claim it had, or else the first that was made -/
theorem get?_performAll {actions : List Action} {p q : Pass} {u : Unit} (h : performAll actions p = .ok u q)
    (pin : String) :
    q.pins.get? pin = (p.pins.get? pin).or ((firstClaim? actions pin).map fun c => Pass.claimOf c.1 c.2) := by
  induction actions generalizing p with
  | nil => cases h; simp [firstClaim?]
  | cons action rest ih =>
    rw [performAll_cons] at h
    cases hp : action.perform p with
    | error e r => rw [hp] at h; cases h
    | ok u r =>
      rw [hp] at h
      rw [ih h]
      cases action with
      | note e => rw [perform_note] at hp; cases hp; rfl
      | contribute need => rw [perform_contribute] at hp; cases hp; rfl
      | count => rw [perform_count] at hp; cases hp; rfl
      | fail b fault => rw [perform_fail] at hp; cases hp
      | claim b use =>
        obtain ⟨pins, hclaim, rfl⟩ := perform_claim_ok hp
        rw [get?_claim hclaim pin, Option.or_assoc]
        congr 1
        by_cases hpin : use.pin = pin
        · simp [firstClaim?, Action.claimed?, Pass.claimOf, hpin]
        · simp [firstClaim?, Action.claimed?, Pass.claimOf, hpin]

theorem mem_of_firstClaim? {actions : List Action} {pin : String} {b : Block} {use : PinUse}
    (h : firstClaim? actions pin = some (b, use)) : claim b use ∈ actions ∧ use.pin = pin := by
  constructor
  · obtain ⟨action, haction, hclaimed⟩ := List.mem_filterMap.1 (List.mem_of_find?_eq_some h)
    cases action with
    | claim b' use' => cases hclaimed; exact haction
    | _ => cases hclaimed
  · simpa using List.find?_some h

/-! ## Failing on one's own behalf -/

/-- the block cannot stand where it stands and says so, or it can and claims its pin -/
def Block.Owns (b : Block) (shape : Shape) (level : Nat) (action : Action) : Prop :=
  (∃ fault, action = fail b fault ∧ b.refusal? shape level = some fault) ∨
    ∃ use, action = claim b use ∧ b.pinUse? = some use ∧ b.refusal? shape level = none

def Action.Risky : Action → Prop
  | .claim _ _ | .fail _ _ => True
  | _ => False

variable {program : Program} {board : Board} {indent level : Nat} {shape : Shape} {b : Block}

/-- what can fail in the walk of a block is done by a walked block on its own behalf; blocks inside a block that is
refused are not come to, so none lies more than one level too deep -/
theorem owned_of_walked (h : Walked program shape level b) (hlevel : level ≤ Pass.maxDepth + 1) :
    ∀ action ∈ b.actions shape level, action.Risky →
      ∃ shape level c, Walked program shape level c ∧ level ≤ Pass.maxDepth + 1 ∧ c.Owns shape level action := by
  induction b using Block.induct generalizing shape level with
  | step b hv hs =>
    intro action ha hrisky
    cases hrefusal : b.refusal? shape level with
    | some fault =>
      rw [Block.actions_eq, hrefusal] at ha
      rcases List.mem_append.1 ha with hopen | hfail
      · cases shape with
        | value => cases hopen
        | statement => cases List.mem_singleton.1 hopen; cases hrisky
      · exact ⟨shape, level, b, h, hlevel, .inl ⟨fault, List.mem_singleton.1 hfail, hrefusal⟩⟩
    | none =>
      obtain ⟨hdepth, k, hk, -⟩ := Block.refusal?_eq_none_iff.1 hrefusal
      rcases (Block.mem_actions hrefusal).1 ha with hopen | ⟨request, hrequest, ha⟩ | hown
      · cases shape with
        | value => cases hopen
        | statement => cases List.mem_singleton.1 hopen; cases hrisky
      · rcases mem_request_actions.1 ha with ⟨slot, c, hslot, hc, ha⟩ | ⟨-, rfl⟩
        · rw [Block.requests_of_kind hk] at hrequest
          have hwalked := Walked.inside h (kind?_eq_some_iff.1 hk) (looksInto_of_request hrequest hslot) hc
          obtain ⟨slotShape, name⟩ := slot
          cases slotShape with
          | value => exact hv name c (Option.mem_toList.1 hc) hwalked (by omega) action ha hrisky
          | statement => exact hs name c hc hwalked (by omega) action ha hrisky
        · cases hrisky
      · rcases List.mem_append.1 hown with hclaim | hneed
        · obtain ⟨use, hu, rfl⟩ := List.mem_map.1 hclaim
          exact ⟨shape, level, b, h, hlevel, .inr ⟨use, rfl, Option.mem_toList.1 hu, hrefusal⟩⟩
        · obtain ⟨need, -, rfl⟩ := List.mem_map.1 hneed
          cases hrisky

theorem owned_of_mem {action : Action} (h : action ∈ program.actions board indent) (hrisky : action.Risky) :
    ∃ shape level b, Walked program shape level b ∧ level ≤ Pass.maxDepth + 1 ∧ b.Owns shape level action := by
  have hone : 1 ≤ Pass.maxDepth + 1 := by omega
  rcases mem_program_actions.1 h with rfl | ⟨b, hb, ha⟩ | ⟨need, -, rfl⟩ | ⟨b, hb, ha⟩
  · cases hrisky
  · exact owned_of_walked (.setup hb) hone action ha hrisky
  · cases hrisky
  · exact owned_of_walked (.main hb) hone action ha hrisky

/-! ## The block to blame -/

theorem mem_all_of_inside {b c d : Block} {slot : Slot} (hc : c ∈ b.inside slot) (hd : d ∈ c.all) : d ∈ b.all := by
  obtain ⟨shape, name⟩ := slot
  rw [Block.all_eq, List.mem_cons, List.mem_append]
  cases shape with
  | value => exact .inr (.inl (Block.mem_allInputs (Block.mem_of_lookup (Option.mem_toList.1 hc)) hd))
  | statement =>
    have hchain : c ∈ (b.statements.lookup name).getD [] := hc
    cases hl : b.statements.lookup name with
    | none => rw [hl] at hchain; cases hchain
    | some chain =>
      rw [hl] at hchain
      exact .inr (.inr (Block.mem_allStatements (Block.mem_of_lookup hl) hchain hd))

theorem all_subset_of_walked (h : Walked program shape level b) : ∀ c ∈ b.all, c ∈ program.blocks := by
  induction h with
  | setup hb => exact fun c hc => List.mem_append_left _ (Block.mem_allChain hb hc)
  | main hb => exact fun c hc => List.mem_append_right _ (Block.mem_allChain hb hc)
  | inside _ _ _ hc ih => exact fun d hd => ih d (mem_all_of_inside hc hd)

theorem mem_blocks_of_walked (h : Walked program shape level b) : b ∈ program.blocks :=
  all_subset_of_walked h b b.mem_all_self

/-- the type of the block asks for the pin that its field names, without blanks around it, in this role and for this
purpose -/
def Block.AsksFor (b : Block) (pin : String) (role : Role) (purpose : String) : Prop :=
  ∃ (k : Kind) (rule : FieldRule) (raw : String), k.name = b.kind ∧ k.role? = some (role, purpose) ∧
    k.fieldRule? = some rule ∧ b.field? rule.name = some raw ∧ Text.trim raw = pin

def Fault.isConflict : Fault → Bool
  | .pinConflict .. => true
  | _ => false

/-- a block, where it stands, has the fault -/
def Block.AtFault (b : Block) (board : Board) (shape : Shape) (level : Nat) : Fault → Prop
  | .pinConflict pin _ _ role purpose => b.AsksFor pin role purpose
  | .capability pin role name =>
    (∃ purpose, b.AsksFor pin role purpose) ∧ pin ∉ board.eligible role ∧ name = board.name
  | .unknownBlockType kind => kind = b.kind ∧ ∀ k : Kind, k.name ≠ b.kind
  | .missingField kind field => kind = b.kind ∧ ((b.field? field).map Text.trim).getD "" = ""
  | .invalidField kind field value =>
    kind = b.kind ∧ (b.field? field).map Text.trim = some value ∧
      ∃ (k : Kind) (rule : FieldRule), k.name = b.kind ∧ k.fieldRule? = some rule ∧ rule.name = field ∧
        rule.accepts value = false
  | .wrongBlockShape kind expected => kind = b.kind ∧ expected = shape ∧ ∃ k : Kind, k.name = b.kind ∧ k.shape ≠ shape
  | .nestingTooDeep limit => limit = 256 ∧ level = 257

/-- what is wrong with a field is that nothing but blanks is in it, or something that the type does not accept -/
theorem atFault_of_fault? {k : Kind} (hk : k.name = b.kind) {fault : Fault} (h : k.fault? b = some fault) :
    b.AtFault board shape level fault ∧ fault.isConflict = false := by
  unfold Kind.fault? at h
  cases hr : k.fieldRule? with
  | none => rw [hr] at h; cases h
  | some rule =>
    simp only [hr, Library.field?] at h
    cases hf : (b.field? rule.name).map Text.trim with
    | none =>
      rw [hf] at h
      cases h
      exact ⟨⟨rfl, by rw [hf]; rfl⟩, rfl⟩
    | some value =>
      by_cases hempty : value = ""
      · subst hempty
        rw [hf] at h
        cases h
        exact ⟨⟨rfl, by rw [hf]; rfl⟩, rfl⟩
      · have hne : value.isEmpty = false := by simpa using hempty
        cases haccepts : rule.accepts value with
        | true => simp [hf, hne, haccepts] at h
        | false =>
          simp only [hf, hne, haccepts, Bool.false_eq_true, if_false] at h
          cases h
          exact ⟨⟨rfl, hf, k, rule, hk, hr, rfl, haccepts⟩, rfl⟩

theorem atFault_of_refusal (hlevel : level ≤ Pass.maxDepth + 1) {fault : Fault}
    (h : b.refusal? shape level = some fault) : b.AtFault board shape level fault ∧ fault.isConflict = false := by
  unfold Block.refusal? at h
  split at h
  · cases h
    exact ⟨⟨rfl, by unfold Pass.maxDepth at *; omega⟩, rfl⟩
  cases hk : b.kind? with
  | none =>
    rw [hk] at h
    cases h
    refine ⟨⟨rfl, fun k hname => ?_⟩, rfl⟩
    rw [kind?_eq_some_iff.2 hname] at hk
    cases hk
  | some k =>
    have hname := kind?_eq_some_iff.1 hk
    rw [hk] at h
    by_cases hshape : k.shape = shape
    · simp only [if_pos hshape] at h
      exact atFault_of_fault? hname h
    · simp only [if_neg hshape] at h
      cases h
      exact ⟨⟨rfl, rfl, k, hname, hshape⟩, rfl⟩

theorem asksFor_of_pinUse? (hr : b.refusal? shape level = none) {use : PinUse} (hu : b.pinUse? = some use) :
    b.AsksFor use.pin use.role use.purpose := by
  obtain ⟨-, k, hk, -, hfault⟩ := Block.refusal?_eq_none_iff.1 hr
  have huse : k.pinUse? (k.word b) = some use := by simpa [Block.pinUse?, hk] using hu
  obtain ⟨⟨role, purpose⟩, hrole, rfl⟩ := Option.map_eq_some_iff.1 huse
  obtain ⟨rule, hrule⟩ := fieldRule?_of_role? hrole
  obtain ⟨raw, hraw, hne, -⟩ := fault?_eq_none_iff.1 hfault rule hrule
  exact ⟨k, rule, raw, kind?_eq_some_iff.1 hk, hrole, hrule, hraw, (word_of_field hrule hraw hne).symm⟩

/-- The run fails with `e` at the block `b`, after it has done `done`. -/
structure Blamed (program : Program) (board : Board) (indent : Nat) (e : Failure) (shape : Shape) (level : Nat)
    (b : Block) (done : List Action) : Prop where
  /-- the run comes to the block -/
  walked : Walked program shape level b
  /-- everything before has succeeded, and what fails is what the block does on its own behalf -/
  fails : ∃ action rest q, program.actions board indent = done ++ action :: rest ∧ b.Owns shape level action ∧
    performAll done (program.start board indent) = .ok () q ∧ action.perform q = .error e q
  /-- no other block has its id -/
  only : program.blocks.filter (fun c => c.id = b.id) = [b]
  blockId : e.blockId = some b.id
  span : e.span = some b.span
  sourceId : e.sourceId = program.sourceId
  /-- the fault is the fault of this block -/
  fault : b.AtFault board shape level e.fault
  /-- another block has to do with it exactly if the pin is taken -/
  related : e.related.isSome = e.fault.isConflict
  /-- and that block came before, was the first to claim the pin, and did so for the role and the purpose reported -/
  first : ∀ pin existingRole existingPurpose role purpose,
    e.fault = .pinConflict pin existingRole existingPurpose role purpose →
      ∃ shape level first, Walked program shape level first ∧ first.id ≠ b.id ∧
        program.blocks.filter (fun c => c.id = first.id) = [first] ∧
        e.related = some ⟨first.id, first.span, "pin " ++ pin ++ " first reserved here"⟩ ∧
        firstClaim? done pin = some (first, ⟨pin, existingRole, existingPurpose⟩) ∧
        first.AsksFor pin existingRole existingPurpose

theorem walked_of_fail {fault : Fault} (h : fail b fault ∈ program.actions board indent) :
    ∃ shape level, Walked program shape level b ∧ b.Owns shape level (fail b fault) ∧
      b.AtFault board shape level fault ∧ fault.isConflict = false := by
  obtain ⟨shape, level, c, hwalked, hlevel, howns⟩ := owned_of_mem h trivial
  rcases id howns with ⟨fault', heq, hrefusal⟩ | ⟨use, heq, -⟩
  · cases heq
    exact ⟨shape, level, hwalked, howns, atFault_of_refusal hlevel hrefusal⟩
  · cases heq

theorem walked_of_claim {use : PinUse} (h : claim b use ∈ program.actions board indent) :
    ∃ shape level, Walked program shape level b ∧ b.Owns shape level (claim b use) ∧ b.pinUse? = some use ∧
      b.AsksFor use.pin use.role use.purpose := by
  obtain ⟨shape, level, c, hwalked, -, howns⟩ := owned_of_mem h trivial
  rcases id howns with ⟨fault, heq, -⟩ | ⟨use', heq, huse, hrefusal⟩
  · cases heq
  · cases heq
    exact ⟨shape, level, hwalked, howns, huse, asksFor_of_pinUse? hrefusal huse⟩

/-- the claim that a run has on record for a pin is the first that it made, on behalf of a walked block -/
theorem first_of_claim {done rest : List Action} {q : Pass} {u : Unit} {pin : String} {existing : Claim}
    (hactions : program.actions board indent = done ++ rest)
    (hdone : performAll done (program.start board indent) = .ok u q) (h : q.pins.get? pin = some existing) :
    ∃ shape level first, Walked program shape level first ∧
      firstClaim? done pin = some (first, ⟨pin, existing.role, existing.purpose⟩) ∧
      existing.claimant = some ⟨first.id, first.span⟩ ∧
      first.pinUse? = some ⟨pin, existing.role, existing.purpose⟩ ∧
      first.AsksFor pin existing.role existing.purpose := by
  have hget := get?_performAll hdone pin
  rw [h] at hget
  obtain ⟨⟨first, use⟩, hfirst, rfl⟩ := Option.map_eq_some_iff.1 hget.symm
  obtain ⟨hbefore, rfl⟩ := mem_of_firstClaim? hfirst
  have hmem : claim first use ∈ program.actions board indent := hactions ▸ List.mem_append_left _ hbefore
  obtain ⟨shape, level, hwalked, -, huse, hasks⟩ := walked_of_claim hmem
  exact ⟨shape, level, first, hwalked, hfirst, rfl, huse, hasks⟩

/-- **Failures blame the right block.** If the run of a program that a draft became fails, it fails at a walked block,
the failure has the id and the place of that block and of no other, and the fault is a fault of that block. If the block
cannot have its pin because the pin is taken, and only then, the failure names a second block, the one that claimed the
pin first. -/
theorem failure_blames_block {draft : DraftProgram} {sourceId : Nat} {program : Program} {board : Board} {indent : Nat}
    {e : Failure} (hdraft : Program.ofDraft draft sourceId = .ok program)
    (h : (program.generate board Table.builtin indent).1 = .error e) :
    ∃ shape level b done, Blamed program board indent e shape level b done := by
  have hids := ids_nodup hdraft
  have honly {shape : Shape} {level : Nat} {b : Block} (hw : Walked program shape level b) :
      program.blocks.filter (fun c => c.id = b.id) = [b] := filter_id_eq hids (mem_blocks_of_walked hw)
  obtain ⟨q, hrun⟩ := generate_eq_error_iff.1 h
  obtain ⟨done, action, rest, hactions, hdone, hfails⟩ := performAll_error hrun
  have hmem : action ∈ program.actions board indent := by simp [hactions]
  have hframe := performAll_frame done (program.start board indent)
  rw [hdone] at hframe
  have hsource : q.sourceId = program.sourceId := hframe.sourceId
  have hboard : q.board = board := hframe.board
  obtain ⟨-, ⟨b, fault, rfl, rfl⟩ | ⟨b, use, rfl, hclaim⟩⟩ := perform_error hfails
  · -- the block cannot stand where it stands
    obtain ⟨shape, level, hwalked, howns, hfault, hconflict⟩ := walked_of_fail hmem
    refine ⟨shape, level, b, done, hwalked, ⟨_, rest, q, hactions, howns, hdone, hfails⟩, honly hwalked, rfl, rfl,
      hsource, hfault, hconflict.symm, ?_⟩
    intro pin existingRole existingPurpose role purpose heq
    cases heq
    cases hconflict
  · obtain ⟨shape, level, hwalked, howns, huse, hasks⟩ := walked_of_claim hmem
    rcases hclaim with ⟨hsupports, rfl⟩ | ⟨existing, hexisting, hrole, rfl⟩
    · -- the board does not let the pin play the role
      rw [hboard] at hsupports
      have hineligible : use.pin ∉ board.eligible use.role := by
        intro heligible
        rw [Board.supports, List.contains_iff_mem.2 heligible] at hsupports
        cases hsupports
      refine ⟨shape, level, b, done, hwalked, ⟨_, rest, q, hactions, howns, hdone, hfails⟩, honly hwalked, rfl, rfl,
        hsource, ⟨⟨_, hasks⟩, hineligible, by rw [hboard]⟩, rfl, ?_⟩
      intro pin existingRole existingPurpose role purpose heq
      cases heq
    · -- the pin is taken; were it by a block of the same id, it would be by the same block, for the same role
      obtain ⟨shape', level', first, hwalked', hfirst, hclaimant, huse', hasks'⟩ :=
        first_of_claim hactions hdone hexisting
      have hne : first.id ≠ b.id := by
        intro hid
        have hsame := List.inj_on_of_nodup_map hids (mem_blocks_of_walked hwalked') (mem_blocks_of_walked hwalked) hid
        rw [hsame, huse] at huse'
        exact hrole (congrArg PinUse.role (Option.some.inj huse')).symm
      rw [hclaimant] at hfails ⊢
      refine ⟨shape, level, b, done, hwalked, ⟨_, rest, q, hactions, howns, hdone, hfails⟩, honly hwalked, rfl, rfl,
        hsource, hasks, rfl, ?_⟩
      intro pin existingRole existingPurpose role purpose heq
      cases heq
      exact ⟨shape', level', first, hwalked', hne, honly hwalked', rfl, hfirst, hasks'⟩

/-- a servo moved in a loop of the setup chain, and its pin dimmed in the main chain -/
def samplePinDraft : DraftProgram :=
  ⟨none, [⟨none, ⟨⟨0, 1⟩, "controls_repeat_ext"⟩, [], [],
      [("DO", [⟨none, ⟨⟨2, 3⟩, "servo_write"⟩, [("SERVO_PIN", ⟨⟨4, 5⟩, .integer ⟨4, 5⟩ 9⟩)], [], []⟩])]⟩],
    [⟨some ⟨⟨6, 7⟩, "dim"⟩, ⟨⟨8, 9⟩, "io_analogwrite"⟩, [("PIN", ⟨⟨10, 11⟩, .string ⟨10, 11⟩ " 9 "⟩)], [], []⟩]⟩

def samplePinProgram : Program :=
  ⟨none, [⟨"controls_repeat_ext#1", "controls_repeat_ext", [], [],
      [("DO", [⟨"servo_write#1", "servo_write", [("SERVO_PIN", "9")], [], [], ⟨2, 3⟩⟩])], ⟨0, 1⟩⟩],
    [⟨"dim", "io_analogwrite", [("PIN", " 9 ")], [], [], ⟨8, 9⟩⟩], 7⟩

def samplePinFailure : Failure :=
  ⟨.pinConflict "9" .servo "Servo Write" .pwm "Analogue Write", some "dim", some ⟨8, 9⟩, 7,
    some ⟨"servo_write#1", ⟨2, 3⟩, "pin 9 first reserved here"⟩⟩

/-- the block that dims the pin is blamed, and the one in the loop is named beside it -/
theorem failure_blames_block_shared_pin :
    Program.ofDraft samplePinDraft 7 = .ok samplePinProgram ∧
      (samplePinProgram.generate Board.uno Table.builtin 2).1 = .error samplePinFailure ∧
      ∃ shape level b done, Blamed samplePinProgram Board.uno 2 samplePinFailure shape level b done := by
  have hdraft : Program.ofDraft samplePinDraft 7 = .ok samplePinProgram := by rfl
  have hrun : (samplePinProgram.generate Board.uno Table.builtin 2).1 = .error samplePinFailure := by decide +kernel
  exact ⟨hdraft, hrun, failure_blames_block hdraft hrun⟩

end BlockSketch
