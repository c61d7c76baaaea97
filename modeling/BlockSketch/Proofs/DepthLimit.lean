/-
How deep blocks may lie.

`Block.route` is the way a walk takes through a block if nothing bounds its depth: the blocks it comes to, each with its
level, and what it does in between. The level counts the slots that a block lies in, so the links of a chain do not
count. A pass keeps a depth of its own and lets nobody below level 256; it looks at the depth of a block before it looks
at anything else about it. So a walk fails for depth exactly if it can follow the way up to a block at level 257, and
that block is to blame, whatever its type.

Results:
- `mem_route_iff`: a walk comes to the blocks that lie in the slots that generators look into, at their level;
- `route_sameEffect`: the walk of a pass is the way without a bound, with a failure at every block that lies too deep;
- `route_gradual`: a walk goes down one level at a time;
- `ReachesTooDeep.failure`, `reached_of_failure`: a walk fails for depth where it first comes to a block below the limit;
- `nesting_bound_exact`: every walk from depth 0 does, also after steps that failed.
-/
import BlockSketch.Proofs.Blame
import BlockSketch.Proofs.Repetition

namespace BlockSketch

open BlockSketch.Action

/-! ## The way of a walk -/

/-- a stop on the way of a walk: a block that is to be of a shape and lies at a level, or something that is done -/
inductive Stop where
  | block (shape : Shape) (level : Nat) (b : Block)
  | act (action : Action)

namespace Stop

def action? : Stop → Option Action
  | .block _ _ _ => none
  | .act action => some action

/-- what a pass does at a stop: it fails at a block that lies too deep -/
def bounded : Stop → List Action
  | .block _ level b => if Pass.maxDepth < level then [fail b (.nestingTooDeep Pass.maxDepth)] else []
  | .act action => [action]

end Stop

open BlockSketch.Stop

namespace Block

/-- why a block cannot stand where it stands, however deep that is -/
def objection? (b : Block) (shape : Shape) : Option Fault :=
  match b.kind? with
  | none => some (.unknownBlockType b.kind)
  | some k => if k.shape = shape then k.fault? b else some (.wrongBlockShape b.kind shape)

/-- the way through a block at `level` that is to be of `shape`, if no block lies too deep -/
def route : Block → Shape → Nat → List Stop :=
  fold fun b values chains shape level =>
    (b.opening shape).map act ++ block shape level b ::
      match b.objection? shape with
      | some fault => [act (fail b fault)]
      | none =>
        b.requests.flatMap (fun request =>
          match request with
          | .value slot _ _ => (values slot).elim [] fun child => child .value (level + 1)
          | .chain slot => (chains slot).flatMap fun child => child .statement (level + 1)
          | .counter => [act count]) ++ b.ownActions.map act

theorem refusal?_eq (b : Block) (shape : Shape) (level : Nat) :
    b.refusal? shape level =
      if Pass.maxDepth < level then some (.nestingTooDeep Pass.maxDepth) else b.objection? shape := rfl

end Block

/-- the way through blocks that stand side by side at level 1 -/
def wayThrough (shape : Shape) (roots : List Block) : List Stop := roots.flatMap fun root => root.route shape 1

/-- the way of a request, asked by a block that stands at `level` -/
def Request.route (b : Block) (level : Nat) (request : Request) : List Stop :=
  match request.slot? with
  | some slot => (b.inside slot).flatMap fun c => c.route slot.shape (level + 1)
  | none => [act count]

theorem Block.route_eq (b : Block) (shape : Shape) (level : Nat) :
    b.route shape level = (b.opening shape).map act ++ block shape level b ::
      match b.objection? shape with
      | some fault => [act (fail b fault)]
      | none => b.requests.flatMap (Request.route b level) ++ b.ownActions.map act := by
  rw [route, fold_eq]
  congr 2
  cases b.objection? shape with
  | some fault => rfl
  | none =>
    simp only
    congr 1
    refine List.flatMap_congr fun request _ => ?_
    cases request with
    | value slot required default =>
      simp only [Request.route, Request.slot?, inside]
      cases b.input? slot with
      | none => rfl
      | some c => simp [route]
    | chain slot => simp [Request.route, Request.slot?, inside, List.flatMap_map, route]
    | counter => rfl

theorem Block.mem_route {b : Block} {shape : Shape} {level : Nat} {stop : Stop} :
    stop ∈ b.route shape level ↔
      stop = block shape level b ∨ (∃ action ∈ b.opening shape, stop = act action) ∨
        (∃ fault, b.objection? shape = some fault ∧ stop = act (fail b fault)) ∨
        b.objection? shape = none ∧
          ((∃ request ∈ b.requests, stop ∈ request.route b level) ∨ ∃ action ∈ b.ownActions, stop = act action) := by
  rw [route_eq]
  cases b.objection? shape with
  | some fault =>
    simp only [List.mem_append, List.mem_map, List.mem_cons, List.not_mem_nil, or_false, Option.some.injEq,
      reduceCtorEq, false_and]
    grind
  | none =>
    simp only [List.mem_append, List.mem_map, List.mem_cons, List.mem_flatMap, reduceCtorEq, false_and, exists_false,
      false_or, true_and]
    grind

theorem mem_request_route {b : Block} {level : Nat} {request : Request} {stop : Stop} :
    stop ∈ request.route b level ↔
      (∃ slot c, request.slot? = some slot ∧ c ∈ b.inside slot ∧ stop ∈ c.route slot.shape (level + 1)) ∨
        request.slot? = none ∧ stop = act count := by
  unfold Request.route
  cases request.slot? with
  | none => simp
  | some slot => simp

/-! ## Levels -/

/-- the blocks that a walk comes to from a root that is to be of a shape, if no block lies too deep: the root at level 1,
and one level further down what lies in the slots that the generator of such a block looks into, if nothing but its depth
can be said against the block -/
inductive Lies (root : Block) (shape : Shape) : Shape → Nat → Block → Prop where
  | root : Lies root shape shape 1 root
  | inside {b c : Block} {k : Kind} {own : Shape} {level : Nat} {slot : Slot} (hb : Lies root shape own level b)
    (hright : b.objection? own = none) (hk : k.name = b.kind) (hslot : k.LooksInto b slot) (hc : c ∈ b.inside slot) :
    Lies root shape slot.shape (level + 1) c

theorem route_inside {b c : Block} {k : Kind} {shape : Shape} {level : Nat} {slot : Slot}
    (hright : b.objection? shape = none) (hk : k.name = b.kind) (hslot : k.LooksInto b slot) (hc : c ∈ b.inside slot)
    {stop : Stop} (h : stop ∈ c.route slot.shape (level + 1)) : stop ∈ b.route shape level := by
  obtain ⟨request, hrequest, hs⟩ := request_of_looksInto (k.word b) hslot hc
  rw [← Block.requests_of_kind (kind?_eq_some_iff.2 hk)] at hrequest
  exact Block.mem_route.2 (.inr (.inr (.inr ⟨hright, .inl ⟨request, hrequest,
    mem_request_route.2 (.inl ⟨slot, c, hs, hc, h⟩)⟩⟩)))

theorem lies_of_mem_route {root b : Block} {shape own : Shape} {level : Nat} (h : Lies root shape own level b)
    {s : Shape} {l : Nat} {c : Block} (hmem : block s l c ∈ b.route own level) : Lies root shape s l c := by
  induction b using Block.induct generalizing own level with
  | step b hv hs =>
    rcases Block.mem_route.1 hmem with heq | ⟨action, -, heq⟩ | ⟨fault, -, heq⟩ |
      ⟨hright, ⟨request, hrequest, hmem⟩ | ⟨action, -, heq⟩⟩
    · cases heq; exact h
    · cases heq
    · cases heq
    · rcases mem_request_route.1 hmem with ⟨slot, d, hslot, hd, hmem⟩ | ⟨-, heq⟩
      · -- the block can be asked for something, so its type is known
        cases hk : b.kind? with
        | none => rw [Block.requests, hk] at hrequest; cases hrequest
        | some k =>
          rw [Block.requests_of_kind hk] at hrequest
          have hlies := Lies.inside h hright (kind?_eq_some_iff.1 hk) (looksInto_of_request hrequest hslot) hd
          obtain ⟨slotShape, name⟩ := slot
          cases slotShape with
          | value => exact hv name d (Option.mem_toList.1 hd) hlies hmem
          | statement => exact hs name d hd hlies hmem
      · cases heq
    · cases heq

/-- a walk comes to the blocks that lie in the slots that generators look into, each at its level -/
theorem mem_route_iff {root : Block} {shape s : Shape} {l : Nat} {c : Block} :
    block s l c ∈ root.route shape 1 ↔ Lies root shape s l c := by
  constructor
  · exact lies_of_mem_route .root
  · intro h
    have hpart : ∀ stop ∈ c.route s l, stop ∈ root.route shape 1 := by
      induction h with
      | root => exact fun stop hstop => hstop
      | inside _ hright hk hslot hc ih => exact fun stop hstop => ih stop (route_inside hright hk hslot hc hstop)
    exact hpart _ (Block.mem_route.2 (.inl rfl))

/-! ## The walk of a pass -/

/-- two lists of actions have the same outcome in every state -/
def SameEffect (xs ys : List Action) : Prop := ∀ p, performAll xs p = performAll ys p

theorem SameEffect.refl (xs : List Action) : SameEffect xs xs := fun _ => rfl

theorem SameEffect.append {xs ys xs' ys' : List Action} (h : SameEffect xs ys) (h' : SameEffect xs' ys') :
    SameEffect (xs ++ xs') (ys ++ ys') := by
  intro p
  rw [performAll_append, performAll_append, h p]
  cases performAll ys p with
  | ok u q => exact h' q
  | error e q => rfl

theorem SameEffect.flatMap {α : Type} {f g : α → List Action} {xs : List α} (h : ∀ x ∈ xs, SameEffect (f x) (g x)) :
    SameEffect (xs.flatMap f) (xs.flatMap g) := by
  induction xs with
  | nil => exact .refl []
  | cons x rest ih =>
    rw [List.flatMap_cons, List.flatMap_cons]
    exact (h x List.mem_cons_self).append (ih fun y hy => h y (List.mem_cons_of_mem x hy))

/-- nothing is done after a failure -/
theorem SameEffect.fail (b : Block) (fault : Fault) (rest : List Action) :
    SameEffect [Action.fail b fault] (Action.fail b fault :: rest) := by
  intro p
  rw [performAll_cons, performAll_cons, perform_fail]

theorem bounded_map_act (actions : List Action) : (actions.map act).flatMap bounded = actions := by
  rw [List.flatMap_map]
  exact List.flatMap_singleton' actions

/-- what a request does is what the blocks in its slot do, one after the other -/
theorem Request.actions_eq (b : Block) (level : Nat) (request : Request) :
    request.actions b level =
      match request.slot? with
      | some slot => (b.inside slot).flatMap fun c => c.actions slot.shape (level + 1)
      | none => [count] := by
  cases request with
  | value slot required default =>
    simp only [Request.actions, Request.slot?, Block.inside]
    cases b.input? slot with
    | none => rfl
    | some c => simp
  | chain slot => rfl
  | counter => rfl

/-- the walk of a pass through a slot is the way through it, if that is so for the blocks in the slot -/
theorem request_sameEffect {b : Block} {level : Nat} (request : Request)
    (h : ∀ slot c, c ∈ b.inside slot →
      SameEffect (c.actions slot.shape (level + 1)) ((c.route slot.shape (level + 1)).flatMap bounded)) :
    SameEffect (request.actions b level) ((request.route b level).flatMap bounded) := by
  rw [Request.actions_eq, Request.route]
  cases request.slot? with
  | none => exact .refl [count]
  | some slot =>
    simp only [List.flatMap_assoc]
    exact .flatMap fun c hc => h slot c hc

/-- the walk of a pass through a block is the way through it, with a failure at each block that lies too deep -/
theorem Block.route_sameEffect (b : Block) (shape : Shape) (level : Nat) :
    SameEffect (b.actions shape level) ((b.route shape level).flatMap bounded) := by
  induction b using Block.induct generalizing shape level with
  | step b hv hs =>
    rw [actions_eq, route_eq, List.flatMap_append, bounded_map_act, List.flatMap_cons, refusal?_eq]
    refine (SameEffect.refl _).append ?_
    by_cases hdeep : Pass.maxDepth < level
    · simp only [bounded, if_pos hdeep]
      exact .fail b _ _
    · simp only [bounded, if_neg hdeep, List.nil_append]
      cases b.objection? shape with
      | some fault => exact .refl _
      | none =>
        simp only
        rw [List.flatMap_append, bounded_map_act, List.flatMap_assoc]
        refine SameEffect.append (.flatMap fun request _ => request_sameEffect request ?_) (.refl _)
        rintro ⟨slotShape, name⟩ c hc
        cases slotShape with
        | value => exact hv name c (Option.mem_toList.1 hc) .value (level + 1)
        | statement => exact hs name c hc .statement (level + 1)

/-! ## One level at a time -/

/-- the first block of a way lies at most at level `m + 1`, and each later one at most one level below what came before -/
def Gradual (m : Nat) : List Stop → Prop
  | [] => True
  | .act _ :: rest => Gradual m rest
  | .block _ level _ :: rest => level ≤ m + 1 ∧ Gradual (max m level) rest

theorem Gradual.mono {m n : Nat} {stops : List Stop} (h : Gradual m stops) (hmn : m ≤ n) : Gradual n stops := by
  induction stops generalizing m n with
  | nil => trivial
  | cons stop rest ih =>
    cases stop with
    | act action => exact ih h hmn
    | block shape level b =>
      obtain ⟨hlevel, hrest⟩ := h
      exact ⟨by omega, ih hrest (by omega)⟩

theorem Gradual.append {m : Nat} {xs ys : List Stop} (h : Gradual m xs) (h' : Gradual m ys) : Gradual m (xs ++ ys) := by
  induction xs generalizing m with
  | nil => exact h'
  | cons stop rest ih =>
    cases stop with
    | act action => exact ih h h'
    | block shape level b => exact ⟨h.1, ih h.2 (h'.mono (by omega))⟩

theorem Gradual.flatMap {α : Type} {m : Nat} {f : α → List Stop} {xs : List α} (h : ∀ x ∈ xs, Gradual m (f x)) :
    Gradual m (xs.flatMap f) := by
  induction xs with
  | nil => trivial
  | cons x rest ih =>
    rw [List.flatMap_cons]
    exact (h x List.mem_cons_self).append (ih fun y hy => h y (List.mem_cons_of_mem x hy))

theorem gradual_map_act (m : Nat) (actions : List Action) : Gradual m (actions.map act) := by
  induction actions with
  | nil => trivial
  | cons action rest ih => exact ih

/-- a walk goes down one level at a time -/
theorem Block.route_gradual (b : Block) (shape : Shape) (level : Nat) : Gradual level (b.route shape (level + 1)) := by
  induction b using Block.induct generalizing shape level with
  | step b hv hs =>
    rw [route_eq]
    refine (gradual_map_act level _).append ⟨Nat.le_refl _, ?_⟩
    rw [Nat.max_eq_right (Nat.le_succ level)]
    cases b.objection? shape with
    | some fault => trivial
    | none =>
      refine Gradual.append (.flatMap fun request _ => ?_) (gradual_map_act _ _)
      unfold Request.route
      cases request.slot? with
      | none => trivial
      | some slot =>
        refine .flatMap fun c hc => ?_
        obtain ⟨slotShape, name⟩ := slot
        cases slotShape with
        | value => exact hv name c (Option.mem_toList.1 hc) .value (level + 1)
        | statement => exact hs name c hc .statement (level + 1)

/-- a block below the limit lies just below it, if no block before it on the way lies below the limit -/
theorem Gradual.level_le {m limit : Nat} {done rest : List Stop} {shape : Shape} {level : Nat} {b : Block}
    (h : Gradual m (done ++ block shape level b :: rest)) (hm : m ≤ limit)
    (hdone : ∀ s l c, block s l c ∈ done → l ≤ limit) : level ≤ limit + 1 := by
  induction done generalizing m with
  | nil => exact Nat.le_trans h.1 (by omega)
  | cons stop others ih =>
    have hothers : ∀ s l c, block s l c ∈ others → l ≤ limit :=
      fun s l c hmem => hdone s l c (List.mem_cons_of_mem stop hmem)
    cases stop with
    | act action => exact ih h hm hothers
    | block s l c =>
      have hl := hdone s l c List.mem_cons_self
      exact ih h.2 (by omega) hothers

/-! ## Where a way fails for depth -/

def Fault.isDepth : Fault → Bool
  | .nestingTooDeep _ => true
  | _ => false

/-- a walk gets to a block at level 257: all that is done before succeeds, and no block before lies below level 256 -/
def ReachesTooDeep (stops : List Stop) (p : Pass) (b : Block) (q : Pass) : Prop :=
  ∃ done shape rest, stops = done ++ block shape 257 b :: rest ∧ (∀ s l c, block s l c ∈ done → l ≤ 256) ∧
    performAll (done.filterMap action?) p = .ok () q

/-- where no block lies too deep, a pass does what there is to do -/
theorem bounded_of_shallow {stops : List Stop} (h : ∀ s l c, block s l c ∈ stops → l ≤ Pass.maxDepth) :
    stops.flatMap bounded = stops.filterMap action? := by
  induction stops with
  | nil => rfl
  | cons stop rest ih =>
    have hrest := ih fun s l c hmem => h s l c (List.mem_cons_of_mem stop hmem)
    cases stop with
    | act action => rw [List.flatMap_cons, hrest]; rfl
    | block s l c =>
      have hlevel : ¬ Pass.maxDepth < l := Nat.not_lt.2 (h s l c List.mem_cons_self)
      rw [List.flatMap_cons, hrest, bounded, if_neg hlevel]
      rfl

/-- the block that a walk gets to at level 257 is to blame, whatever its type -/
theorem ReachesTooDeep.failure {stops : List Stop} {p q : Pass} {b : Block} (h : ReachesTooDeep stops p b q) :
    performAll (stops.flatMap bounded) p =
      .error ⟨.nestingTooDeep 256, some b.id, some b.span, p.sourceId, none⟩ q := by
  obtain ⟨done, shape, rest, rfl, hshallow, hdone⟩ := h
  have hframe := performAll_frame (done.filterMap action?) p
  rw [hdone] at hframe
  have hsource : q.sourceId = p.sourceId := hframe.sourceId
  rw [List.flatMap_append, List.flatMap_cons, performAll_append, bounded_of_shallow hshallow, hdone]
  simp only [bounded, if_pos (show Pass.maxDepth < 257 by decide)]
  rw [List.singleton_append, performAll_cons, perform_fail, ← hsource]
  rfl

theorem perform_error_isDepth {action : Action} {p q : Pass} {e : Failure} (h : action.perform p = .error e q)
    (hdepth : e.fault.isDepth = true) : ∃ b fault, action = fail b fault ∧ fault.isDepth = true := by
  obtain ⟨-, ⟨b, fault, rfl, rfl⟩ | ⟨b, use, rfl, ⟨-, rfl⟩ | ⟨existing, -, -, rfl⟩⟩⟩ := perform_error h
  · exact ⟨b, fault, rfl, hdepth⟩
  · cases hdepth
  · cases hdepth

/-- a walk that fails for depth has come to a block that lies too deep, and to none before -/
theorem reached_of_failure {stops : List Stop} (hplain : ∀ b fault, act (fail b fault) ∈ stops → fault.isDepth = false)
    {p q : Pass} {e : Failure} (h : performAll (stops.flatMap bounded) p = .error e q)
    (hdepth : e.fault.isDepth = true) :
    ∃ done shape level b rest, stops = done ++ block shape level b :: rest ∧ Pass.maxDepth < level ∧
      (∀ s l c, block s l c ∈ done → l ≤ Pass.maxDepth) ∧ performAll (done.filterMap action?) p = .ok () q := by
  induction stops generalizing p with
  | nil => cases h
  | cons stop rest ih =>
    have hrest : ∀ b fault, act (fail b fault) ∈ rest → fault.isDepth = false :=
      fun b fault hmem => hplain b fault (List.mem_cons_of_mem stop hmem)
    rw [List.flatMap_cons] at h
    cases stop with
    | act action =>
      simp only [bounded, List.singleton_append] at h
      rw [performAll_cons] at h
      cases hp : action.perform p with
      | ok u r =>
        rw [hp] at h
        obtain ⟨done, shape, level, b, others, rfl, hlevel, hshallow, hdone⟩ := ih hrest h
        refine ⟨act action :: done, shape, level, b, others, rfl, hlevel, ?_, ?_⟩
        · intro s l c hmem
          rcases List.mem_cons.1 hmem with heq | hmem
          · cases heq
          · exact hshallow s l c hmem
        · rw [List.filterMap_cons_some (f := action?) rfl, performAll_cons, hp]
          exact hdone
      | error e' r =>
        -- nothing that is done on the way fails for depth
        rw [hp] at h
        cases h
        obtain ⟨b, fault, rfl, hfault⟩ := perform_error_isDepth hp hdepth
        rw [hplain b fault List.mem_cons_self] at hfault
        cases hfault
    | block shape level b =>
      by_cases hdeep : Pass.maxDepth < level
      · simp only [bounded, if_pos hdeep] at h
        rw [List.singleton_append, performAll_cons, perform_fail] at h
        cases h
        refine ⟨[], shape, level, b, rest, rfl, hdeep, ?_, rfl⟩
        intro s l c hmem
        cases hmem
      · simp only [bounded, if_neg hdeep, List.nil_append] at h
        obtain ⟨done, shape', level', b', others, rfl, hlevel, hshallow, hdone⟩ := ih hrest h
        refine ⟨block shape level b :: done, shape', level', b', others, rfl, hlevel, ?_, hdone⟩
        intro s l c hmem
        rcases List.mem_cons.1 hmem with heq | hmem
        · cases heq; exact Nat.not_lt.1 hdeep
        · exact hshallow s l c hmem

theorem Block.objection?_isDepth {b : Block} {shape : Shape} {fault : Fault} (h : b.objection? shape = some fault) :
    fault.isDepth = false := by
  unfold objection? at h
  cases hk : b.kind? with
  | none => rw [hk] at h; cases h; rfl
  | some k =>
    simp only [hk] at h
    split at h
    · have hfault : b.AtFault Board.uno shape 0 fault := (atFault_of_fault? (kind?_eq_some_iff.1 hk) h).1
      cases fault with
      | nestingTooDeep limit => exact absurd hfault.2 (by decide)
      | _ => rfl
    · cases h; rfl

theorem Block.route_plain {b c : Block} {shape : Shape} {level : Nat} {fault : Fault}
    (h : act (fail c fault) ∈ b.route shape level) : fault.isDepth = false := by
  induction b using Block.induct generalizing shape level with
  | step b hv hs =>
    rcases mem_route.1 h with heq | ⟨action, hopen, heq⟩ | ⟨other, hobjection, heq⟩ |
      ⟨-, ⟨request, -, hmem⟩ | ⟨action, hown, heq⟩⟩
    · cases heq
    · cases heq
      cases shape with
      | value => cases hopen
      | statement => cases List.mem_singleton.1 hopen
    · cases heq
      exact objection?_isDepth hobjection
    · rcases mem_request_route.1 hmem with ⟨⟨slotShape, name⟩, d, -, hd, hmem⟩ | ⟨-, heq⟩
      · cases slotShape with
        | value => exact hv name d (Option.mem_toList.1 hd) hmem
        | statement => exact hs name d hd hmem
      · cases heq
    · cases heq
      rcases List.mem_append.1 hown with hclaim | hneed
      · obtain ⟨use, -, heq⟩ := List.mem_map.1 hclaim
        cases heq
      · obtain ⟨need, -, heq⟩ := List.mem_map.1 hneed
        cases heq

/-! ## Walks of a pass -/

def outcomeFault? {α : Type} (outcome : EStateM.Result Failure Pass α) : Option Fault := (failure? outcome).map (·.fault)

/-- the bound on a walk through blocks at level 1, which has an outcome -/
structure BoundIsExact {α : Type} (shape : Shape) (roots : List Block) (p : Pass)
    (outcome : EStateM.Result Failure Pass α) : Prop where
  /-- it fails for depth exactly if it gets to a block at level 257 -/
  fails_iff : outcomeFault? outcome = some (.nestingTooDeep 256) ↔ ∃ b q, ReachesTooDeep (wayThrough shape roots) p b q
  /-- that block is to blame, of whatever type and shape it is -/
  blamed : ∀ b q, ReachesTooDeep (wayThrough shape roots) p b q →
    outcome = .error ⟨.nestingTooDeep 256, some b.id, some b.span, p.sourceId, none⟩ q
  /-- it never does if all blocks that a walk can come to lie at level 256 or above -/
  shallow : (∀ root ∈ roots, ∀ s l c, Lies root shape s l c → l ≤ 256) →
    ∀ limit, outcomeFault? outcome ≠ some (.nestingTooDeep limit)

theorem wayThrough_sameEffect (shape : Shape) (roots : List Block) :
    SameEffect (roots.flatMap fun root => root.actions shape 1) ((wayThrough shape roots).flatMap bounded) := by
  rw [wayThrough, List.flatMap_assoc]
  exact .flatMap fun root _ => root.route_sameEffect shape 1

/-- a walk through blocks at level 1 that fails for depth gets to a block at level 257 -/
theorem reachesTooDeep_of_failure {shape : Shape} {roots : List Block} {p q : Pass} {e : Failure}
    (h : performAll ((wayThrough shape roots).flatMap bounded) p = .error e q) (hdepth : e.fault.isDepth = true) :
    ∃ b, ReachesTooDeep (wayThrough shape roots) p b q := by
  have hplain : ∀ b fault, act (fail b fault) ∈ wayThrough shape roots → fault.isDepth = false := by
    intro b fault hmem
    obtain ⟨root, -, hmem⟩ := List.mem_flatMap.1 hmem
    exact Block.route_plain hmem
  obtain ⟨done, own, level, b, rest, heq, hlevel, hshallow, hdone⟩ := reached_of_failure hplain h hdepth
  have hgradual : Gradual 0 (wayThrough shape roots) := .flatMap fun root _ => root.route_gradual shape 0
  rw [heq] at hgradual
  have hexact : level = 257 := by
    have hle := hgradual.level_le (Nat.zero_le _) hshallow
    simp only [Pass.maxDepth] at hle hlevel
    omega
  subst hexact
  exact ⟨b, done, own, rest, heq, hshallow, hdone⟩

/-- what does the actions of a walk from depth 0 has the bound of the walk -/
theorem Performs.boundIsExact {α : Type} {x : Gen α} {p : Pass} {shape : Shape} {roots : List Block} {result : α}
    {loops : Nat} (h : Performs x p.indent 0 (p.uses counterBase) (roots.flatMap fun root => root.actions shape 1)
      result loops) (hp : p.depth = 0) : BoundIsExact shape roots p (x p) := by
  have hrun := h p ⟨rfl, hp, rfl⟩
  rw [wayThrough_sameEffect] at hrun
  have hfails : ∀ b q, ReachesTooDeep (wayThrough shape roots) p b q →
      x p = .error ⟨.nestingTooDeep 256, some b.id, some b.span, p.sourceId, none⟩ q := by
    intro b q hreaches
    rw [hreaches.failure] at hrun
    exact hrun
  have hreaches : ∀ limit, outcomeFault? (x p) = some (.nestingTooDeep limit) →
      ∃ b q, ReachesTooDeep (wayThrough shape roots) p b q := by
    intro limit hx
    cases hperform : performAll ((wayThrough shape roots).flatMap bounded) p with
    | ok u q =>
      rw [hperform] at hrun
      rw [hrun.1] at hx
      cases hx
    | error e q =>
      rw [hperform] at hrun
      rw [hrun] at hx
      have hfault : e.fault = .nestingTooDeep limit := Option.some.inj hx
      obtain ⟨b, hb⟩ := reachesTooDeep_of_failure hperform (by rw [hfault]; rfl)
      exact ⟨b, q, hb⟩
  refine ⟨⟨hreaches 256, ?_⟩, hfails, ?_⟩
  · rintro ⟨b, q, hb⟩
    rw [hfails b q hb]
    rfl
  · intro hshallow limit hx
    obtain ⟨b, q, done, own, rest, heq, -⟩ := hreaches limit hx
    have hmem : block own 257 b ∈ wayThrough shape roots := by
      rw [heq]
      exact List.mem_append_right _ List.mem_cons_self
    obtain ⟨root, hroot, hmem⟩ := List.mem_flatMap.1 hmem
    have hlevel := hshallow root hroot own 257 b (mem_route_iff.1 hmem)
    omega

/-- **The bound on nesting is exact.** In a pass at depth 0, and after any steps from there, which may have failed,
generating an expression, the value or the statements in a slot of a block, or a chain fails for depth exactly if the walk
gets to a block at level 257 with nothing going wrong before. That block is to blame, even if its type is unknown or of
the wrong shape. Where all blocks that a walk can come to lie at levels up to 256 it never happens, so it does not along a
chain of blocks with nothing in their slots, however long. -/
theorem nesting_bound_exact (start : Pass) (hstart : start.depth = 0) (steps : List Step) :
    let p := steps.foldl Step.after start
    p.depth = 0 ∧
    (∀ root, BoundIsExact .value [root] p (valueCode Table.builtin root p)) ∧
    (∀ (b : Block) slot required default, BoundIsExact .value (b.inside ⟨.value, slot⟩) p
      ((b.slots Table.builtin).valueOr slot required default p)) ∧
    (∀ (b : Block) slot, BoundIsExact .statement (b.inside ⟨.statement, slot⟩) p
      ((b.slots Table.builtin).body slot p)) ∧
    (∀ chain, BoundIsExact .statement chain p (chainCode Table.builtin chain p)) ∧
    ∀ chain : List Block, (∀ c ∈ chain, ∀ slot, c.inside slot = []) →
      ∀ limit, outcomeFault? (chainCode Table.builtin chain p) ≠ some (.nestingTooDeep limit) := by
  intro p
  have hdepth : p.depth = 0 := (Step.later steps start).2.depth.trans hstart
  have hchain (chain : List Block) : BoundIsExact .statement chain p (chainCode Table.builtin chain p) :=
    (chainCode_performs chain p.indent 0 (p.uses counterBase)).boundIsExact hdepth
  have hrequest (b : Block) (request : Request) :
      Performs (request.ask (b.slots Table.builtin)) p.indent 0 (p.uses counterBase) (request.actions b 0) _ _ :=
    performs_request (fun _ c _ => c.walkedAsListed) (fun _ c _ => c.walkedAsListed) request
  refine ⟨hdepth, ?_, ?_, ?_, hchain, ?_⟩
  · intro root
    have hwalk := valueCode_performs root p.indent 0 (p.uses counterBase)
    rw [← List.flatMap_singleton (fun c : Block => c.actions .value 1) root] at hwalk
    exact hwalk.boundIsExact hdepth
  · intro b slot required default
    have hwalk := hrequest b (.value slot required default)
    rw [Request.actions_eq] at hwalk
    exact hwalk.boundIsExact hdepth
  · intro b slot
    exact (hrequest b (.chain slot)).boundIsExact hdepth
  · intro chain hflat
    refine (hchain chain).shallow ?_
    intro root hroot s l c hlies
    -- nothing lies in a slot of a block of the chain, so the root is the only block
    have honly : l = 1 ∧ c = root := by
      induction hlies with
      | root => exact ⟨rfl, rfl⟩
      | inside _ _ _ _ hc ih =>
        rw [ih.2, hflat root hroot] at hc
        cases hc
    omega

/-- negations in one another around a block of a type that nobody knows -/
def sampleTower : Nat → Block
  | 0 => ⟨"x", "nothing", [], [], [], default⟩
  | n + 1 => ⟨"n", "logic_negate", [], [("BOOL", sampleTower n)], [], default⟩

/-- with 256 negations around it the block lies at level 257 and is refused for that, the second time as well; with one
less it is refused for its type -/
theorem nesting_bound_exact_tower :
    let start : Pass := { board := Board.uno, indent := 2 }
    let p := [Step.value (sampleTower 256)].foldl Step.after start
    start.depth = 0 ∧ p.depth = 0 ∧
      (∃ b q, ReachesTooDeep (wayThrough .value [sampleTower 256]) p b q ∧ b.id = "x") ∧
      ¬ ∃ b q, ReachesTooDeep (wayThrough .value [sampleTower 255]) p b q := by
  intro start p
  obtain ⟨hdepth, hvalue, -⟩ := nesting_bound_exact start rfl [.value (sampleTower 256)]
  refine ⟨rfl, hdepth, ?_, ?_⟩
  · have hfails : outcomeFault? (valueCode Table.builtin (sampleTower 256) p) = some (.nestingTooDeep 256) := by
      decide +kernel
    obtain ⟨b, q, hb⟩ := (hvalue (sampleTower 256)).fails_iff.1 hfails
    have hblamed : (failure? (valueCode Table.builtin (sampleTower 256) p)).bind (·.blockId) = some "x" := by
      decide +kernel
    rw [(hvalue (sampleTower 256)).blamed b q hb] at hblamed
    exact ⟨b, q, hb, Option.some.inj hblamed⟩
  · rw [← (hvalue (sampleTower 255)).fails_iff]
    have hother : outcomeFault? (valueCode Table.builtin (sampleTower 255) p) = some (.unknownBlockType "nothing") := by
      decide +kernel
    intro hfails
    exact absurd (hother.symm.trans hfails) (by decide)

end BlockSketch
