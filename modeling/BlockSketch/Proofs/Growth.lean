/-
A pass only gains, and it comes back to the depth it started from.

A generator can fail at many places: at a field, at an operand far down in one of its slots, at its pin. Whatever was
contributed and claimed up to there stays, and nothing else happens to the state: fragments and claims are added at the
end of their lists, counters go up, and the depth is the one before the step, since every level that was entered has been
left again. This is so from every state, not only from those that a run comes through.

Results:
- `perform_grows`, `performAll_grows`: a state grows with each action, and with a list of them up to the one that fails;
- `Performs.grows`: whatever does a list of actions lets the state grow;
- `steps_only_add`: every way into the walk lets the state grow, whether it succeeds or fails, and so do many in a row.
-/
import BlockSketch.Proofs.Deduplication
import BlockSketch.Proofs.Visits

namespace BlockSketch

open BlockSketch.Action

/-! ## Growth -/

/-- a state has come from another one by additions only: to each section, to the claims and to the counts of names, with
all else as it was -/
structure Pass.Grows (p q : Pass) : Prop extends Pass.SameFrame p q where
  fragments : ∀ s, p.registry.stored s <+: q.registry.stored s
  claims : p.pins.claims <+: q.pins.claims
  names : ∀ base, p.uses base ≤ q.uses base

theorem Pass.Grows.refl (p : Pass) : p.Grows p :=
  ⟨.refl p, fun _ => List.prefix_refl _, List.prefix_refl _, fun _ => Nat.le_refl _⟩

theorem Pass.Grows.trans {p q r : Pass} (h1 : p.Grows q) (h2 : q.Grows r) : p.Grows r :=
  ⟨h1.toSameFrame.trans h2.toSameFrame, fun s => (h1.fragments s).trans (h2.fragments s), h1.claims.trans h2.claims,
    fun base => Nat.le_trans (h1.names base) (h2.names base)⟩

/-! ## Actions -/

/-- a contribution adds a fragment to the end of its section, or nothing -/
theorem Registry.stored_prefix_contribute (r : Registry) (s t : Section) (key text : String) (runFirst : Bool) :
    r.stored t <+: (r.contribute s key text runFirst).2.stored t := by
  rw [stored_contribute]
  split
  · exact List.prefix_append _ _
  · exact List.prefix_refl _

/-- a claim that succeeds adds itself to the end of the table, or nothing -/
theorem PinTable.claims_prefix_claim {t t' : PinTable} {board : Board} {c : Claim} (h : t.claim board c = .ok t') :
    t.claims <+: t'.claims := by
  rcases t.claim_ok_cases h with ⟨-, rfl⟩ | ⟨first, -, -, rfl⟩
  · exact List.prefix_append _ _
  · exact List.prefix_refl _

theorem uses_countUse_of_ne (p : Pass) {base other : String} (h : other ≠ base) :
    (p.countUse base).uses other = p.uses other := by
  have hbeq : (other == base) = false := by simpa using h
  simp [Pass.uses, Pass.countUse, List.lookup_cons, hbeq, lookup_filter_ne h]

theorem uses_le_countUse (p : Pass) (base other : String) : p.uses other ≤ (p.countUse base).uses other := by
  by_cases h : other = base
  · rw [h, uses_countUse]
    omega
  · exact Nat.le_of_eq (uses_countUse_of_ne p h).symm

theorem perform_grows (action : Action) (p : Pass) : p.Grows (afterwards (action.perform p)) := by
  have hsame := Pass.Grows.refl p
  cases action with
  | note e => exact ⟨perform_frame (note e) p, hsame.fragments, hsame.claims, hsame.names⟩
  | contribute need =>
    refine ⟨perform_frame (contribute need) p, fun s => ?_, hsame.claims, hsame.names⟩
    exact p.registry.stored_prefix_contribute need.place s need.key need.text need.runFirst
  | count => exact ⟨perform_frame count p, hsame.fragments, hsame.claims, uses_le_countUse p counterBase⟩
  | fail block fault => exact hsame
  | claim block use =>
    rcases afterwards_claim block use p with ⟨pins, hclaim, heq⟩ | heq
    · rw [heq]
      exact ⟨⟨rfl, rfl, rfl, rfl⟩, hsame.fragments, PinTable.claims_prefix_claim hclaim, hsame.names⟩
    · rw [heq]
      exact hsame

theorem performAll_grows (actions : List Action) (p : Pass) : p.Grows (afterwards (performAll actions p)) :=
  performAll_relates Pass.Grows.refl (fun _ _ _ => Pass.Grows.trans) perform_grows actions p

/-! ## Steps -/

theorem Performs.grows {α : Type} {x : Gen α} {p : Pass} {actions : List Action} {result : α} {loops : Nat}
    (h : Performs x p.indent p.depth (p.uses counterBase) actions result loops) : p.Grows (afterwards (x p)) := by
  rw [h.afterwards_eq ⟨rfl, rfl, rfl⟩]
  exact performAll_grows actions p

theorem Request.grows (request : Request) (b : Block) (p : Pass) :
    p.Grows (afterwards (request.ask (b.slots Table.builtin) p)) :=
  (performs_request (fun _ c _ => c.walkedAsListed) (fun _ c _ => c.walkedAsListed) request).grows

theorem Step.grows (step : Step) (p : Pass) : p.Grows (step.after p) := by
  cases step with
  | value b => exact (valueCode_performs b _ _ _).grows
  | chain blocks => exact (chainCode_performs blocks _ _ _).grows
  | statement b slot => exact (Request.chain slot).grows b p

/-- **A pass only gains.** From every state, generating an expression, the value or the statements in a slot of a block, or
a chain leaves a state that has grown, whatever comes of it: the depth is the one before, the fragments of each section
and the claims on pins are those before and then new ones, and no name counts for less. So do steps in a row, some of
which may fail: the last has the levels to go down that the first had. -/
theorem steps_only_add (p : Pass) :
    (∀ b, p.Grows (afterwards (valueCode Table.builtin b p))) ∧
    (∀ (b : Block) slot required default,
      p.Grows (afterwards ((b.slots Table.builtin).valueOr slot required default p))) ∧
    (∀ (b : Block) slot, p.Grows (afterwards ((b.slots Table.builtin).body slot p))) ∧
    (∀ chain, p.Grows (afterwards (chainCode Table.builtin chain p))) ∧
    ∀ steps : List Step, p.Grows (steps.foldl Step.after p) := by
  refine ⟨fun b => (Step.value b).grows p, fun b slot required default => ?_, fun b slot => (Step.statement b slot).grows p,
    fun chain => (Step.chain chain).grows p, fun steps => ?_⟩
  · exact (Request.value slot required default).grows b p
  · induction steps generalizing p with
    | nil => exact .refl p
    | cons step rest ih => exact (step.grows p).trans (ih (step.after p))

-- the body of the loop fails at its second statement, one level down: the servo before it stays and the loop counts
example :
    let p := Pass.reached Board.uno 2 [.chain [⟨"r", "controls_repeat_ext", [], [], [("DO",
      [⟨"s", "servo_write", [("SERVO_PIN", "9")], [], [], default⟩, ⟨"x", "nothing", [], [], [], default⟩])], default⟩]]
    p.depth = 0 ∧ p.pins.claims.map Claim.pin = ["9"] ∧ p.uses "count" = 1 := by
  decide +kernel

end BlockSketch
