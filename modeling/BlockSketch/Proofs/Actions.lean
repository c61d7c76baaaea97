/-
What a walk can do to a pass, one thing at a time.

A walk takes notes, claims pins, contributes boilerplate, counts loops and fails; nothing else. An `Action` is one of
these, `performAll` does a list of them and stops at the first that fails. `Performs x … actions result` says that a
step `x` of a pass does exactly `actions`, with the same outcome and the same state afterwards, and gives `result` when
all of them succeed; it composes along `>>=` (`performs_bind`).

Results:
- `perform_frame`, `performAll_frame`: board, indentation, source and depth are what they were, whatever the outcome;
- `performAll_atDepth`: what is done does not depend on the depth at which it is done;
- `performAll_blamed`: every failure blames a block;
- `claim_cases`: what can come of a claim on a pin;
- `claim_ok_iff`, `roleOf?_claim`: when a claim on a pin succeeds, and which roles the pins have then;
- `performAll_ok_iff`: a list of actions succeeds if nothing is against any of them and their pins are compatible;
- `performs_pure`, `performs_bind`, `performs_descend`, `performs_blaming`: how steps are put together.
-/
import BlockSketch.Proofs.Kinds

namespace BlockSketch

/-- the name that loop counters are made from -/
def counterBase : String := "count"

/-- one thing that a walk does to a pass -/
inductive Action where
  | note (e : Event)
  | claim (block : Block) (use : PinUse)
  | contribute (need : Need)
  | count
  | fail (block : Block) (fault : Fault)

namespace Action

def perform : Action → Gen Unit
  | .note e => Gen.note e
  | .claim block use => PinUse.claim block (some use)
  | .contribute need => Need.contributeAll [need]
  | .count => modify (·.countUse counterBase)
  | .fail block fault => fun p => .error (({ fault } : Failure).atBlock block p.sourceId) p

/-- do things one after the other until one fails -/
def performAll : List Action → Gen Unit
  | [] => return
  | action :: rest => do
    action.perform
    performAll rest

end Action

open BlockSketch.Action

/-! ## What one action does -/

namespace Pass

def contributed (p : Pass) (need : Need) : Pass :=
  let (stored, registry) := p.registry.contribute need.place need.key need.text need.runFirst
  { p with registry }.noted
    (if stored then .fragmentStored need.place need.key need.text need.runFirst
      else .fragmentPresent need.place need.key need.text need.runFirst)

/-- the claim that goes on record when a block uses a pin -/
def claimOf (block : Block) (use : PinUse) : Claim :=
  ⟨use.pin, use.role, use.purpose, some ⟨block.id, block.span⟩⟩

def atDepth (p : Pass) (depth : Nat) : Pass := { p with depth }

/-- two states agree in what no action changes -/
structure SameFrame (p q : Pass) : Prop where
  board : q.board = p.board
  indent : q.indent = p.indent
  sourceId : q.sourceId = p.sourceId
  depth : q.depth = p.depth

theorem SameFrame.refl (p : Pass) : SameFrame p p := ⟨rfl, rfl, rfl, rfl⟩

theorem SameFrame.trans {p q r : Pass} (h1 : SameFrame p q) (h2 : SameFrame q r) : SameFrame p r :=
  ⟨h2.board.trans h1.board, h2.indent.trans h1.indent, h2.sourceId.trans h1.sourceId, h2.depth.trans h1.depth⟩

end Pass

/-- the state that a step leaves behind, whatever its outcome -/
def afterwards {α : Type} : EStateM.Result Failure Pass α → Pass
  | .ok _ q => q
  | .error _ q => q

/-- the result of a step, if it gave one -/
def result? {α : Type} : EStateM.Result Failure Pass α → Option α
  | .ok a _ => some a
  | .error _ _ => none

def failure? {α : Type} : EStateM.Result Failure Pass α → Option Failure
  | .ok _ _ => none
  | .error e _ => some e

theorem result?_eq_some {α : Type} {r : EStateM.Result Failure Pass α} {a : α} (h : result? r = some a) :
    ∃ q, r = .ok a q := by
  cases r with
  | ok a' q => cases h; exact ⟨q, rfl⟩
  | error e q => cases h

theorem perform_note (e : Event) (p : Pass) : (note e).perform p = .ok () (p.noted e) := rfl

theorem perform_count (p : Pass) : count.perform p = .ok () (p.countUse counterBase) := rfl

theorem perform_contribute (need : Need) (p : Pass) : (contribute need).perform p = .ok () (p.contributed need) := rfl

theorem perform_fail (block : Block) (fault : Fault) (p : Pass) :
    (fail block fault).perform p = .error (({ fault } : Failure).atBlock block p.sourceId) p := rfl

theorem perform_claim (block : Block) (use : PinUse) (p : Pass) :
    (claim block use).perform p =
      match p.pins.claim p.board (Pass.claimOf block use) with
      | .ok pins => .ok () { p with pins }
      | .error fault => .error (Gen.claimFailure p block use.pin fault) p := by
  have hclaim : (claim block use).perform p =
      (match p.pins.claim p.board (Pass.claimOf block use) with
        | .ok pins => set { p with pins }
        | .error fault => throw (Gen.claimFailure p block use.pin fault) : Gen Unit) p := rfl
  rw [hclaim]
  cases p.pins.claim p.board (Pass.claimOf block use) with
  | ok pins => rfl
  | error fault => rfl

theorem perform_claim_ok {block : Block} {use : PinUse} {p q : Pass} {u : Unit}
    (h : (claim block use).perform p = .ok u q) :
    ∃ pins, p.pins.claim p.board (Pass.claimOf block use) = .ok pins ∧ q = { p with pins } := by
  rw [perform_claim] at h
  cases hc : p.pins.claim p.board (Pass.claimOf block use) with
  | ok pins => rw [hc] at h; cases h; exact ⟨pins, rfl, rfl⟩
  | error fault => rw [hc] at h; cases h

/-- a claim leaves the new pin table behind, or nothing at all -/
theorem afterwards_claim (block : Block) (use : PinUse) (p : Pass) :
    (∃ pins, p.pins.claim p.board (Pass.claimOf block use) = .ok pins ∧
      afterwards ((claim block use).perform p) = { p with pins }) ∨ afterwards ((claim block use).perform p) = p := by
  rw [perform_claim]
  cases p.pins.claim p.board (Pass.claimOf block use) with
  | ok pins => exact .inl ⟨pins, rfl, rfl⟩
  | error fault => exact .inr rfl

theorem performAll_cons (action : Action) (rest : List Action) (p : Pass) :
    performAll (action :: rest) p =
      match action.perform p with
      | .ok _ q => performAll rest q
      | .error e q => .error e q := by
  rw [performAll]
  simp only [bind, EStateM.bind]
  cases action.perform p with
  | ok u q => rfl
  | error e q => rfl

theorem performAll_append (xs ys : List Action) (p : Pass) :
    performAll (xs ++ ys) p =
      match performAll xs p with
      | .ok _ q => performAll ys q
      | .error e q => .error e q := by
  induction xs generalizing p with
  | nil => rfl
  | cons action rest ih =>
    rw [List.cons_append, performAll_cons, performAll_cons]
    cases action.perform p with
    | ok u q => exact ih q
    | error e q => rfl

/-- what every action does to the state, lists of actions do, if it can be chained -/
theorem performAll_relates {R : Pass → Pass → Prop} (hrefl : ∀ p, R p p) (htrans : ∀ p q r, R p q → R q r → R p r)
    (hone : ∀ (action : Action) (p : Pass), R p (afterwards (action.perform p))) (actions : List Action) (p : Pass) :
    R p (afterwards (performAll actions p)) := by
  induction actions generalizing p with
  | nil => exact hrefl p
  | cons action rest ih =>
    have hfirst := hone action p
    rw [performAll_cons]
    cases hp : action.perform p with
    | ok u q => rw [hp] at hfirst; exact htrans p q _ hfirst (ih q)
    | error e q => rw [hp] at hfirst; exact hfirst

/-! ## What no action changes -/

theorem perform_frame (action : Action) (p : Pass) : Pass.SameFrame p (afterwards (action.perform p)) := by
  cases action with
  | note e => exact ⟨rfl, rfl, rfl, rfl⟩
  | contribute need => exact ⟨rfl, rfl, rfl, rfl⟩
  | count => exact ⟨rfl, rfl, rfl, rfl⟩
  | fail block fault => exact ⟨rfl, rfl, rfl, rfl⟩
  | claim block use =>
    rcases afterwards_claim block use p with ⟨pins, -, heq⟩ | heq
    · rw [heq]
      exact ⟨rfl, rfl, rfl, rfl⟩
    · rw [heq]
      exact Pass.SameFrame.refl p

theorem performAll_frame (actions : List Action) (p : Pass) :
    Pass.SameFrame p (afterwards (performAll actions p)) :=
  performAll_relates Pass.SameFrame.refl (fun _ _ _ => Pass.SameFrame.trans) perform_frame actions p

/-- the same outcome with the state at another depth -/
def resultAtDepth (depth : Nat) : EStateM.Result Failure Pass Unit → EStateM.Result Failure Pass Unit
  | .ok u q => .ok u (q.atDepth depth)
  | .error e q => .error e (q.atDepth depth)

theorem perform_atDepth (action : Action) (p : Pass) (depth : Nat) :
    action.perform (p.atDepth depth) = resultAtDepth depth (action.perform p) := by
  cases action with
  | note e => rfl
  | contribute need => rfl
  | count => rfl
  | fail block fault => rfl
  | claim block use =>
    rw [perform_claim, perform_claim]
    simp only [Pass.atDepth]
    cases p.pins.claim p.board (Pass.claimOf block use) with
    | ok pins => rfl
    | error fault => rfl

theorem performAll_atDepth (actions : List Action) (p : Pass) (depth : Nat) :
    performAll actions (p.atDepth depth) = resultAtDepth depth (performAll actions p) := by
  induction actions generalizing p with
  | nil => rfl
  | cons action rest ih =>
    rw [performAll_cons, performAll_cons, perform_atDepth]
    cases action.perform p with
    | ok u q => exact ih q
    | error e q => rfl

/-! ## Failures -/

theorem claimFailure_blamed (p : Pass) (block : Block) (pin : String) (fault : Fault) :
    (Gen.claimFailure p block pin fault).blockId = some block.id := by
  unfold Gen.claimFailure
  split <;> rfl

theorem perform_blamed {action : Action} {p q : Pass} {e : Failure} (h : action.perform p = .error e q) :
    ∃ block : Block, e.blockId = some block.id := by
  cases action with
  | note _ => rw [perform_note] at h; cases h
  | contribute need => rw [perform_contribute] at h; cases h
  | count => rw [perform_count] at h; cases h
  | fail block fault => rw [perform_fail] at h; cases h; exact ⟨block, rfl⟩
  | claim block use =>
    rw [perform_claim] at h
    cases hc : p.pins.claim p.board (Pass.claimOf block use) with
    | ok pins => rw [hc] at h; cases h
    | error fault =>
      rw [hc] at h
      cases h
      exact ⟨block, claimFailure_blamed p block use.pin fault⟩

theorem performAll_blamed {actions : List Action} {p q : Pass} {e : Failure}
    (h : performAll actions p = .error e q) : ∃ block : Block, e.blockId = some block.id := by
  induction actions generalizing p with
  | nil => cases h
  | cons action rest ih =>
    rw [performAll_cons] at h
    cases ha : action.perform p with
    | ok u r => rw [ha] at h; exact ih h
    | error e' r => rw [ha] at h; cases h; exact perform_blamed ha

/-! ## Pins -/

def PinTable.roleOf? (t : PinTable) (pin : String) : Option Role := (t.get? pin).map (·.role)

theorem Board.supports_iff {board : Board} {pin : String} {role : Role} :
    board.supports pin role = true ↔ pin ∈ board.eligible role := List.contains_iff_mem

/-- **What can come of a claim**: the board cannot do it, the pin is free, it is shared, or it has another role. -/
theorem PinTable.claim_cases (t : PinTable) (board : Board) (c : Claim) :
    (c.pin ∉ board.eligible c.role ∧ t.claim board c = .error (.capability c.pin c.role board.name)) ∨
    (c.pin ∈ board.eligible c.role ∧
      ((t.get? c.pin = none ∧ t.claim board c = .ok ⟨t.claims ++ [c]⟩) ∨
      ∃ first, t.get? c.pin = some first ∧
        ((first.role = c.role ∧ t.claim board c = .ok t) ∨
        (first.role ≠ c.role ∧
          t.claim board c = .error (.pinConflict c.pin first.role first.purpose c.role c.purpose))))) := by
  unfold claim
  by_cases heligible : c.pin ∈ board.eligible c.role
  · right
    simp only [Board.supports_iff.2 heligible, Bool.not_true, Bool.false_eq_true, if_false]
    refine ⟨heligible, ?_⟩
    cases t.get? c.pin with
    | none => exact .inl ⟨rfl, rfl⟩
    | some first =>
      by_cases hrole : first.role = c.role
      · exact .inr ⟨first, rfl, .inl ⟨hrole, if_pos hrole⟩⟩
      · exact .inr ⟨first, rfl, .inr ⟨hrole, if_neg hrole⟩⟩
  · left
    have hunsupported : board.supports c.pin c.role = false := by
      rw [← Bool.not_eq_true, Board.supports_iff]
      exact heligible
    simp [heligible, hunsupported]

theorem PinTable.claim_ok_cases {t t' : PinTable} {board : Board} {c : Claim} (h : t.claim board c = .ok t') :
    (t.get? c.pin = none ∧ t' = ⟨t.claims ++ [c]⟩) ∨
      ∃ first, t.get? c.pin = some first ∧ first.role = c.role ∧ t' = t := by
  rcases t.claim_cases board c with
    ⟨-, hclaim⟩ | ⟨-, ⟨hfree, hclaim⟩ | ⟨first, hfirst, ⟨hrole, hclaim⟩ | ⟨-, hclaim⟩⟩⟩ <;>
    rw [hclaim] at h <;> cases h
  · exact .inl ⟨hfree, rfl⟩
  · exact .inr ⟨first, hfirst, hrole, rfl⟩

theorem claim_ok_iff {t : PinTable} {board : Board} {c : Claim} :
    (∃ t', t.claim board c = .ok t') ↔
      board.supports c.pin c.role = true ∧ ∀ role, t.roleOf? c.pin = some role → role = c.role := by
  rw [Board.supports_iff, PinTable.roleOf?]
  rcases t.claim_cases board c with
    ⟨heligible, hclaim⟩ | ⟨heligible, ⟨hfree, hclaim⟩ | ⟨first, hfirst, ⟨hrole, hclaim⟩ | ⟨hrole, hclaim⟩⟩⟩
  · simp [hclaim, heligible]
  · simp [hclaim, heligible, hfree]
  · simp [hclaim, heligible, hfirst, hrole]
  · simp [hclaim, hfirst, hrole]

theorem roleOf?_claim {t t' : PinTable} {board : Board} {c : Claim} (h : t.claim board c = .ok t') (pin : String) :
    t'.roleOf? pin = if c.pin = pin then some c.role else t.roleOf? pin := by
  by_cases hpin : c.pin = pin
  · subst hpin
    rcases t.claim_ok_cases h with ⟨hfree, rfl⟩ | ⟨first, hfirst, hrole, rfl⟩
    · have hnone : t.claims.find? (fun x => x.pin == c.pin) = none := hfree
      simp [PinTable.roleOf?, PinTable.get?, List.find?_append, hnone]
    · simp [PinTable.roleOf?, hfirst, hrole]
  · rcases t.claim_ok_cases h with ⟨-, rfl⟩ | ⟨first, -, -, rfl⟩
    · simp [PinTable.roleOf?, PinTable.get?, List.find?_append, hpin]
    · simp [hpin]

/-! ## What success shows -/

/-- nothing about the action itself is against it on a board -/
def Action.Admissible (board : Board) : Action → Prop
  | .claim _ use => board.supports use.pin use.role = true
  | .fail _ _ => False
  | _ => True

def Action.use? : Action → Option PinUse
  | .claim _ use => some use
  | _ => none

/-- an action succeeds if it is admissible and its pin is free or claimed for the same role -/
theorem perform_ok_iff {action : Action} {p : Pass} :
    (∃ q, action.perform p = .ok () q) ↔
      action.Admissible p.board ∧
        ∀ use, action.use? = some use → ∀ role, p.pins.roleOf? use.pin = some role → role = use.role := by
  cases action with
  | note e => simp [perform_note, Action.Admissible, Action.use?]
  | contribute need => simp [perform_contribute, Action.Admissible, Action.use?]
  | count => simp [perform_count, Action.Admissible, Action.use?]
  | fail block fault => simp [perform_fail, Action.Admissible]
  | claim block use =>
    have hiff := @claim_ok_iff p.pins p.board (Pass.claimOf block use)
    rw [perform_claim]
    simp only [Action.Admissible, Action.use?, Option.some.injEq, forall_eq']
    refine Iff.trans ?_ hiff
    cases p.pins.claim p.board (Pass.claimOf block use) with
    | ok pins => simp
    | error fault => simp

theorem roleOf?_perform {action : Action} {p q : Pass} {u : Unit} (h : action.perform p = .ok u q) (pin : String) :
    q.pins.roleOf? pin = match action.use? with
      | some use => if use.pin = pin then some use.role else p.pins.roleOf? pin
      | none => p.pins.roleOf? pin := by
  cases action with
  | note e => rw [perform_note] at h; cases h; rfl
  | contribute need => rw [perform_contribute] at h; cases h; rfl
  | count => rw [perform_count] at h; cases h; rfl
  | fail block fault => rw [perform_fail] at h; cases h
  | claim block use =>
    obtain ⟨pins, hc, rfl⟩ := perform_claim_ok h
    exact roleOf?_claim hc pin

/-- nobody claims a pin for two roles, counting those who claimed before -/
structure Compatible (roleOf? : String → Option Role) (uses : List PinUse) : Prop where
  before : ∀ use ∈ uses, ∀ role, roleOf? use.pin = some role → role = use.role
  together : ∀ use ∈ uses, ∀ other ∈ uses, use.pin = other.pin → use.role = other.role

theorem compatible_cons_iff {roleOf? : String → Option Role} {use : PinUse} {uses : List PinUse} :
    Compatible roleOf? (use :: uses) ↔
      (∀ role, roleOf? use.pin = some role → role = use.role) ∧
        Compatible (fun pin => if use.pin = pin then some use.role else roleOf? pin) uses := by
  constructor
  · intro h
    refine ⟨h.before use List.mem_cons_self, ?_, ?_⟩
    · intro other hother role hrole
      split at hrole
      · rename_i hpin
        cases hrole
        exact h.together use List.mem_cons_self other (List.mem_cons_of_mem use hother) hpin
      · exact h.before other (List.mem_cons_of_mem use hother) role hrole
    · intro x hx y hy
      exact h.together x (List.mem_cons_of_mem use hx) y (List.mem_cons_of_mem use hy)
  · rintro ⟨hfirst, hrest⟩
    -- whoever comes later agrees with the first, because the first is on record by then
    have hagree (other : PinUse) (ho : other ∈ uses) (hpin : use.pin = other.pin) : use.role = other.role :=
      hrest.before other ho use.role (if_pos hpin)
    refine ⟨?_, ?_⟩
    · intro other hother role hrole
      rcases List.mem_cons.1 hother with rfl | hother
      · exact hfirst role hrole
      · by_cases hpin : use.pin = other.pin
        · rw [← hpin] at hrole
          exact (hfirst role hrole).trans (hagree other hother hpin)
        · exact hrest.before other hother role ((if_neg hpin).trans hrole)
    · intro x hx y hy hpin
      rcases List.mem_cons.1 hx with rfl | hx'
      · rcases List.mem_cons.1 hy with rfl | hy'
        · rfl
        · exact hagree y hy' hpin
      · rcases List.mem_cons.1 hy with rfl | hy'
        · exact (hagree x hx' hpin.symm).symm
        · exact hrest.together x hx' y hy' hpin

/-- **When a list of actions succeeds**: nothing is against any of them, and the pins they claim are compatible. -/
theorem performAll_ok_iff {actions : List Action} {p : Pass} :
    (∃ q, performAll actions p = .ok () q) ↔
      (∀ action ∈ actions, action.Admissible p.board) ∧ Compatible p.pins.roleOf? (actions.filterMap Action.use?) := by
  induction actions generalizing p with
  | nil => exact ⟨fun _ => ⟨by simp, ⟨by simp, by simp⟩⟩, fun _ => ⟨p, rfl⟩⟩
  | cons action rest ih =>
    have hsplit : (∃ q, performAll (action :: rest) p = .ok () q) ↔
        ∃ r, action.perform p = .ok () r ∧ ∃ q, performAll rest r = .ok () q := by
      rw [performAll_cons]
      cases action.perform p with
      | ok u r => simp
      | error e r => simp
    have hcompatible {r : Pass} (hr : action.perform p = .ok () r) :
        Compatible p.pins.roleOf? ((action :: rest).filterMap Action.use?) ↔
          (∀ use, action.use? = some use → ∀ role, p.pins.roleOf? use.pin = some role → role = use.role) ∧
            Compatible r.pins.roleOf? (rest.filterMap Action.use?) := by
      have hroles : r.pins.roleOf? = fun pin => match action.use? with
          | some use => if use.pin = pin then some use.role else p.pins.roleOf? pin
          | none => p.pins.roleOf? pin := funext (roleOf?_perform hr)
      rw [hroles, List.filterMap_cons]
      cases action.use? with
      | none => simp
      | some use => simpa using compatible_cons_iff
    have hboard {r : Pass} (hr : action.perform p = .ok () r) : r.board = p.board := by
      have hf := perform_frame action p
      rw [hr] at hf
      exact hf.board
    rw [hsplit, List.forall_mem_cons]
    constructor
    · rintro ⟨r, hr, hq⟩
      obtain ⟨hadmissible, hrest⟩ := ih.1 hq
      obtain ⟨hfirst, hfree⟩ := perform_ok_iff.1 ⟨r, hr⟩
      rw [hboard hr] at hadmissible
      exact ⟨⟨hfirst, hadmissible⟩, (hcompatible hr).2 ⟨hfree, hrest⟩⟩
    · rintro ⟨⟨hfirst, hadmissible⟩, hall⟩
      have hfree (use : PinUse) (hu : action.use? = some use) :
          ∀ role, p.pins.roleOf? use.pin = some role → role = use.role :=
        hall.before use (List.mem_filterMap.2 ⟨action, List.mem_cons_self, hu⟩)
      obtain ⟨r, hr⟩ := perform_ok_iff.2 ⟨hfirst, hfree⟩
      refine ⟨r, hr, ih.2 ⟨?_, ((hcompatible hr).1 hall).2⟩⟩
      rw [hboard hr]
      exact hadmissible

theorem performAll_admissible {actions : List Action} {p q : Pass} {u : Unit} (h : performAll actions p = .ok u q) :
    ∀ action ∈ actions, action.Admissible p.board :=
  (performAll_ok_iff.1 ⟨q, h⟩).1

/-! ## Steps that do a list of actions -/

/-- what of a state shows in the code: the width of a level, the depth, and the number of loops so far -/
structure Pass.Sees (p : Pass) (indent depth loops : Nat) : Prop where
  indent : p.indent = indent
  depth : p.depth = depth
  loops : p.uses counterBase = loops

/-- from every state that sees `indent`, `depth` and `loops`, the step does `actions`, with their outcome and their state
afterwards; if they all succeed it gives `result` and leaves `loops'` loops counted -/
def Performs {α : Type} (x : Gen α) (indent depth loops : Nat) (actions : List Action) (result : α) (loops' : Nat) :
    Prop :=
  ∀ p : Pass, p.Sees indent depth loops →
    match performAll actions p with
    | .ok _ q => x p = .ok result q ∧ q.Sees indent depth loops'
    | .error e q => x p = .error e q

variable {α β : Type} {indent depth loops loops' loops'' : Nat}

theorem performs_pure (a : α) : Performs (pure a : Gen α) indent depth loops [] a loops :=
  fun _ hp => ⟨rfl, hp⟩

theorem performs_bind {x : Gen α} {g : α → Gen β} {xs ys : List Action} {a : α} {b : β}
    (hx : Performs x indent depth loops xs a loops') (hg : Performs (g a) indent depth loops' ys b loops'') :
    Performs (x >>= g) indent depth loops (xs ++ ys) b loops'' := by
  intro p hp
  have h1 := hx p hp
  rw [performAll_append]
  cases h : performAll xs p with
  | error e q =>
    rw [h] at h1
    show EStateM.bind x g p = _
    simp only [EStateM.bind, h1]
  | ok u q =>
    rw [h] at h1
    have h2 := hg q h1.2
    have hb : (x >>= g) p = g a q := by
      show EStateM.bind x g p = _
      simp only [EStateM.bind, h1.1]
    simp only [hb]
    exact h2

/-- a step that only changes the result -/
theorem performs_map {x : Gen α} {actions : List Action} {a : α} (f : α → β)
    (hx : Performs x indent depth loops actions a loops') :
    Performs (do return f (← x)) indent depth loops actions (f a) loops' := by
  have h := performs_bind (g := fun a => pure (f a)) hx (performs_pure (f a))
  rwa [List.append_nil] at h

/-- going one level down changes nothing but the depth at which things are done -/
theorem performs_descend {x : Gen α} {actions : List Action} {a : α} (hd : depth < Pass.maxDepth)
    (hx : Performs x indent (depth + 1) loops actions a loops') :
    Performs (Gen.descend x) indent depth loops actions a loops' := by
  intro p hp
  have h1 := hx (p.atDepth (depth + 1)) ⟨hp.indent, rfl, hp.loops⟩
  have hframe := performAll_frame actions p
  have hdepth : p.depth = depth := hp.depth
  have hrun : Gen.descend x p =
      match x (p.atDepth (depth + 1)) with
      | .ok a q => .ok a { q with depth := q.depth - 1 }
      | .error e q => .error e { q with depth := q.depth - 1 } := by
    unfold Gen.descend
    rw [if_neg (by omega), ← hdepth]
    rfl
  rw [performAll_atDepth] at h1
  rw [hrun]
  cases h : performAll actions p with
  | ok u q =>
    rw [h] at h1 hframe
    obtain ⟨hrun1, hsees⟩ := h1
    have hq : q.depth = depth := hframe.depth.trans hdepth
    rw [hrun1]
    refine ⟨?_, hsees.indent, hq, hsees.loops⟩
    simp only [Pass.atDepth, Nat.add_sub_cancel, ← hq]
  | error e q =>
    rw [h] at h1 hframe
    have hq : q.depth = depth := hframe.depth.trans hdepth
    simp only [resultAtDepth] at h1
    rw [h1]
    simp only [Pass.atDepth, Nat.add_sub_cancel, ← hq]

/-- failures of actions blame a block already, so nobody else is blamed -/
theorem performs_blaming {x : Gen α} {actions : List Action} {a : α} (block : Block)
    (hx : Performs x indent depth loops actions a loops') :
    Performs (Gen.blaming block x) indent depth loops actions a loops' := by
  intro p hp
  have h1 := hx p hp
  unfold Gen.blaming
  cases h : performAll actions p with
  | ok u q =>
    rw [h] at h1
    rw [h1.1]
    exact ⟨rfl, h1.2⟩
  | error e q =>
    rw [h] at h1
    obtain ⟨culprit, hc⟩ := performAll_blamed h
    simp only [h1]
    simp [Failure.atBlock, hc]

/-- a failure without a block, raised one level down, is the action that fails on behalf of the block -/
theorem performs_fail (block : Block) (fault : Fault) (a : α) (hd : depth < Pass.maxDepth) :
    Performs (Gen.blaming block (Gen.descend (Gen.fail fault : Gen α))) indent depth loops [.fail block fault] a
      loops' := by
  intro p hp
  have hdepth : ¬ Pass.maxDepth ≤ p.depth := by rw [hp.depth]; omega
  have h : performAll [.fail block fault] p = .error (({ fault } : Failure).atBlock block p.sourceId) p := rfl
  rw [h]
  unfold Gen.blaming Gen.descend
  rw [if_neg hdepth]
  rfl

/-- too deep down, nothing is done but to fail -/
theorem performs_too_deep (block : Block) (x : Gen α) (a : α) (hd : Pass.maxDepth ≤ depth) :
    Performs (Gen.blaming block (Gen.descend x)) indent depth loops
      [.fail block (.nestingTooDeep Pass.maxDepth)] a loops' := by
  intro p hp
  have hdepth : Pass.maxDepth ≤ p.depth := by rw [hp.depth]; exact hd
  have h : performAll [.fail block (.nestingTooDeep Pass.maxDepth)] p =
      .error (({ fault := .nestingTooDeep Pass.maxDepth } : Failure).atBlock block p.sourceId) p := rfl
  rw [h]
  unfold Gen.blaming Gen.descend
  rw [if_pos hdepth]

end BlockSketch
