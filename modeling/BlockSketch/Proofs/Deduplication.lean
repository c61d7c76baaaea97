/-
Nothing is lost when a contribution is ignored.

A section keeps the first fragment under a key and ignores the later ones, whatever their text. That is harmless, because
two contributions under one key are always the same: the key of a pin's boilerplate tells the pin, the pin table holds
one role for the pin, and the role tells the text. So what a pass has on record about a pin vouches for what it has
stored under the pin's keys.

Results:
- `needUnder?_of_vouched`: where a contribution goes and its key tell which contribution it is, given the roles of pins;
- `perform_accounted`, `performAll_accounted`: all that is noted and stored is vouched for, action by action;
- `Block.claimedFirst`: a block claims its pin before it contributes what the pin needs;
- `ignored_contributions_agree`: an ignored contribution is the one that is stored, in every state that steps lead to and
  in whole runs.
-/
import BlockSketch.Board.Builtin
import BlockSketch.Proofs.Walk

namespace BlockSketch

open BlockSketch.Action

/-! ## Who vouches for a contribution -/

/-- a piece of boilerplate belongs to the robot kit, or to the role for which its pin is claimed -/
def Vouched (roleOf? : String → Option Role) (need : Need) : Prop :=
  need ∈ robotNeeds ∨ ∃ pin role, roleOf? pin = some role ∧ need ∈ role.needs pin

theorem Vouched.mono {roleOf? roleOf?' : String → Option Role} {need : Need} (h : Vouched roleOf? need)
    (hroles : ∀ pin role, roleOf? pin = some role → roleOf?' pin = some role) : Vouched roleOf?' need := by
  rcases h with h | ⟨pin, role, hrole, h⟩
  · exact .inl h
  · exact .inr ⟨pin, role, hroles pin role hrole, h⟩

def keyPin? (key : String) : Option String :=
  match key.toList with
  | 'i' :: 'o' :: '_' :: pin => some (String.ofList pin)
  | 's' :: 'e' :: 'r' :: 'v' :: 'o' :: '_' :: pin => some (String.ofList pin)
  | 's' :: 'e' :: 'r' :: 'i' :: 'a' :: 'l' :: '_' :: pin => some (String.ofList pin)
  | _ => none

/-- the piece of boilerplate that can stand under a key of a section -/
def needUnder? (roleOf? : String → Option Role) (place : Section) (key : String) : Option Need :=
  let candidates := match keyPin? key with
    | some pin => (roleOf? pin).elim [] fun role => role.needs pin
    | none => ⟨.includes, "servo", "#include <Servo.h>", false⟩ :: robotNeeds
  candidates.find? fun need => need.place == place && need.key == key

theorem keyPin?_io (pin : String) : keyPin? ("io_" ++ pin) = some pin := by simp [keyPin?]

theorem keyPin?_servo (pin : String) : keyPin? ("servo_" ++ pin) = some pin := by simp [keyPin?]

theorem keyPin?_serial (pin : String) : keyPin? ("serial_" ++ pin) = some pin := by simp [keyPin?]

/-- the section and the key of a vouched contribution tell which one it is -/
theorem needUnder?_of_vouched {roleOf? : String → Option Role} {need : Need} (h : Vouched roleOf? need) :
    needUnder? roleOf? need.place need.key = some need := by
  rcases h with h | ⟨pin, role, hrole, h⟩
  · simp only [robotNeeds, List.mem_cons, List.not_mem_nil, or_false] at h
    rcases h with rfl | rfl | rfl | rfl <;> simp [needUnder?, keyPin?, robotNeeds]
  · cases role <;> simp only [Role.needs, List.mem_cons, List.not_mem_nil, or_false] at h
    case servo =>
      rcases h with rfl | rfl | rfl
      · simp [needUnder?, keyPin?]
      · simp [needUnder?, keyPin?_servo, hrole, Role.needs]
      · simp [needUnder?, keyPin?_servo, hrole, Role.needs]
    all_goals subst h; simp [needUnder?, keyPin?_io, keyPin?_serial, hrole, Role.needs]

theorem needUnder?_user (roleOf? : String → Option Role) : needUnder? roleOf? .setup "user_setup" = none := by
  simp [needUnder?, keyPin?, robotNeeds]

theorem trimEnd_append (s : String) {ending : String} {last : Char} (hlast : ending.toList.getLast? = some last)
    (hc : Text.isBlank last = false) : Text.trimEnd (s ++ ending) = s ++ ending := by
  have hend : (s ++ ending).toList.getLast? = some last := by simp [String.toList_append, List.getLast?_append, hlast]
  obtain ⟨before, hsplit⟩ := List.getLast?_eq_some_iff.1 hend
  rw [Text.trimEnd, hsplit, Text.dropBlankEnd]
  simp only [List.reverse_append, List.reverse_cons, List.reverse_nil, List.nil_append, List.singleton_append,
    List.dropWhile_cons, hc]
  simp [← hsplit]

/-- vouched contributions have no blanks at their end, so they are stored as they are -/
theorem Vouched.trimEnd_text {roleOf? : String → Option Role} {need : Need} (h : Vouched roleOf? need) :
    Text.trimEnd need.text = need.text := by
  rcases h with h | ⟨pin, role, -, h⟩
  · simp only [robotNeeds, List.mem_cons, List.not_mem_nil, or_false] at h
    rcases h with rfl | rfl | rfl | rfl <;> decide
  · cases role <;> simp only [Role.needs, List.mem_cons, List.not_mem_nil, or_false] at h
    case servo =>
      rcases h with rfl | rfl | rfl
      · decide
      · exact trimEnd_append _ rfl rfl
      · exact trimEnd_append _ rfl rfl
    all_goals subst h; exact trimEnd_append _ rfl rfl

/-! ## What a contribution does to the records -/

def Event.need? : Event → Option Need
  | .fragmentStored place key text runFirst => some ⟨place, key, text, runFirst⟩
  | .fragmentPresent place key text runFirst => some ⟨place, key, text, runFirst⟩
  | _ => none

/-- the note that a contribution was ignored -/
def Need.ignored (need : Need) : Event := .fragmentPresent need.place need.key need.text need.runFirst

def Need.fragment (need : Need) : Fragment := ⟨need.key, Text.trimEnd need.text, need.runFirst⟩

theorem Registry.get?_push (r : Registry) (s t : Section) (f : Fragment) (key : String) :
    (r.push s f).get? t key =
      if s = t then (r.get? t key).or (if f.key = key then some f else none) else r.get? t key := by
  unfold Registry.get?
  rw [Registry.stored_push]
  split
  · rw [List.find?_append, List.find?_singleton]
    by_cases hkey : f.key = key
    · simp [hkey]
    · simp [hkey]
  · rfl

namespace Pass

/-- a contribution was made, whether it was stored or ignored -/
def Noted (p : Pass) (need : Need) : Prop := ∃ e ∈ p.journal, e.need? = some need

/-- what is on record stays on record -/
structure Keeps (p q : Pass) : Prop where
  fragments : ∀ s key f, p.registry.get? s key = some f → q.registry.get? s key = some f
  notes : ∀ e ∈ p.journal, e ∈ q.journal
  roles : ∀ pin role, p.pins.roleOf? pin = some role → q.pins.roleOf? pin = some role

theorem Keeps.refl (p : Pass) : p.Keeps p :=
  ⟨fun _ _ _ h => h, fun _ h => h, fun _ _ h => h⟩

theorem Keeps.trans {p q r : Pass} (h1 : p.Keeps q) (h2 : q.Keeps r) : p.Keeps r where
  fragments := fun s key f h => h2.fragments s key f (h1.fragments s key f h)
  notes := fun e h => h2.notes e (h1.notes e h)
  roles := fun pin role h => h2.roles pin role (h1.roles pin role h)

theorem noted_noted {p : Pass} {e : Event} {need : Need} :
    (p.noted e).Noted need ↔ e.need? = some need ∨ p.Noted need := by
  simp [Noted, noted]

theorem noted_keeps (p : Pass) (e : Event) : p.Keeps (p.noted e) :=
  ⟨fun _ _ _ h => h, fun _ h => List.mem_cons_of_mem _ h, fun _ _ h => h⟩

variable {p : Pass} {need : Need}

/-- a contribution either finds its key taken, and is ignored, or is stored at the end of its section -/
theorem contributed_cases (p : Pass) (need : Need) :
    (∃ f, p.registry.get? need.place need.key = some f ∧ p.contributed need = p.noted need.ignored) ∨
      (p.registry.get? need.place need.key = none ∧
        ∃ e : Event, e.need? = some need ∧ (∀ other : Need, e ≠ other.ignored) ∧
          p.contributed need = { p with registry := p.registry.push need.place need.fragment }.noted e) := by
  cases h : p.registry.get? need.place need.key with
  | some f =>
    refine .inl ⟨f, rfl, ?_⟩
    simp [contributed, Registry.contribute, h, Need.ignored]
  | none =>
    refine .inr ⟨rfl, .fragmentStored need.place need.key need.text need.runFirst, rfl, ?_, ?_⟩
    · intro other hother
      cases hother
    · simp [contributed, Registry.contribute, h, Need.fragment]

theorem contributed_keeps (p : Pass) (need : Need) : p.Keeps (p.contributed need) := by
  rcases contributed_cases p need with ⟨-, -, heq⟩ | ⟨-, e, -, -, heq⟩
  · rw [heq]
    exact noted_keeps p _
  · rw [heq]
    refine ⟨fun s key f h => ?_, fun _ h => List.mem_cons_of_mem _ h, fun _ _ h => h⟩
    show (p.registry.push need.place need.fragment).get? s key = some f
    rw [Registry.get?_push, h]
    simp

end Pass

theorem perform_keeps (action : Action) (p : Pass) : p.Keeps (afterwards (action.perform p)) := by
  cases action with
  | note e => exact Pass.noted_keeps p e
  | contribute need => exact Pass.contributed_keeps p need
  | count => exact ⟨fun _ _ _ h => h, fun _ h => h, fun _ _ h => h⟩
  | fail block fault => exact Pass.Keeps.refl p
  | claim block use =>
    rcases afterwards_claim block use p with ⟨pins, hc, heq⟩ | heq
    · rw [heq]
      refine ⟨fun _ _ _ h => h, fun _ h => h, fun pin role hrole => ?_⟩
      show pins.roleOf? pin = some role
      rw [roleOf?_claim hc]
      split
      · -- the claim succeeded although the pin has a role, so it is the role that was claimed
        rename_i hpin
        rw [← hpin] at hrole
        rw [(claim_ok_iff.1 ⟨pins, hc⟩).2 role hrole]
      · exact hrole
    · rw [heq]
      exact Pass.Keeps.refl p

theorem performAll_keeps (actions : List Action) (p : Pass) : p.Keeps (afterwards (performAll actions p)) :=
  performAll_relates Pass.Keeps.refl (fun _ _ _ => Pass.Keeps.trans) perform_keeps actions p

/-! ## Everything on record is vouched for -/

/-- a contribution is vouched for, or it is that of the setup chain's statements, if they are in already -/
def Explained (user : Option String) (roleOf? : String → Option Role) (need : Need) : Prop :=
  Vouched roleOf? need ∨ ∃ code, user = some code ∧ need = userSetup code

theorem Vouched.ne_user {roleOf? : String → Option Role} {need : Need} (h : Vouched roleOf? need)
    (hplace : need.place = .setup) : need.key ≠ "user_setup" := by
  intro hkey
  have hunder := needUnder?_of_vouched h
  rw [hplace, hkey, needUnder?_user] at hunder
  cases hunder

/-- two explained contributions under one key of a section are the same -/
theorem Explained.unique {user : Option String} {roleOf? : String → Option Role} {need other : Need}
    (h : Explained user roleOf? need) (ho : Explained user roleOf? other) (hplace : need.place = other.place)
    (hkey : need.key = other.key) : need = other := by
  rcases h with hv | ⟨code, hcode, rfl⟩
  · rcases ho with hvo | ⟨code, -, rfl⟩
    · have hunder := needUnder?_of_vouched hv
      rw [hplace, hkey, needUnder?_of_vouched hvo] at hunder
      exact (Option.some.inj hunder).symm
    · exact absurd hkey (hv.ne_user hplace)
  · rcases ho with hvo | ⟨code', hcode', rfl⟩
    · exact absurd hkey.symm (hvo.ne_user hplace.symm)
    · rw [hcode] at hcode'
      cases hcode'
      rfl

/-- every contribution on record is explained, and what was ignored is vouched for and has something stored under its
key -/
structure Accounted (user : Option String) (p : Pass) : Prop where
  noted : ∀ need, p.Noted need → Explained user p.pins.roleOf? need
  ignored : ∀ need : Need, need.ignored ∈ p.journal →
    Vouched p.pins.roleOf? need ∧ ∃ f, p.registry.get? need.place need.key = some f
  stored : ∀ s, ∀ f ∈ p.registry.stored s,
    ∃ need, Explained user p.pins.roleOf? need ∧ need.place = s ∧ need.fragment = f

namespace Accounted

variable {user user' : Option String} {p q : Pass} {need : Need}

theorem fresh (board : Board) (indent : Nat) : Accounted none { board, indent } where
  noted := by
    rintro need ⟨e, he, -⟩
    cases he
  ignored := by
    intro need h
    cases h
  stored := by
    intro s f hf
    cases s <;> cases hf

/-- if what is on record stays, only what is new has to be accounted for -/
theorem of_keeps (h : Accounted user p) (hkeeps : p.Keeps q) (huser : ∀ code, user = some code → user' = some code)
    (hnoted : ∀ need, q.Noted need → Explained user' q.pins.roleOf? need ∨ p.Noted need)
    (hignored : ∀ need : Need, need.ignored ∈ q.journal →
      (Vouched q.pins.roleOf? need ∧ ∃ f, q.registry.get? need.place need.key = some f) ∨ need.ignored ∈ p.journal)
    (hstored : ∀ s, ∀ f ∈ q.registry.stored s,
      (∃ need, Explained user' q.pins.roleOf? need ∧ need.place = s ∧ need.fragment = f) ∨ f ∈ p.registry.stored s) :
    Accounted user' q := by
  have hexplained {need : Need} (he : Explained user p.pins.roleOf? need) : Explained user' q.pins.roleOf? need := by
    rcases he with hv | ⟨code, hcode, hneed⟩
    · exact .inl (hv.mono hkeeps.roles)
    · exact .inr ⟨code, huser code hcode, hneed⟩
  refine ⟨?_, ?_, ?_⟩
  · intro need hn
    rcases hnoted need hn with he | hn
    · exact he
    · exact hexplained (h.noted need hn)
  · intro need hn
    rcases hignored need hn with hv | hn
    · exact hv
    · obtain ⟨hv, f, hf⟩ := h.ignored need hn
      exact ⟨hv.mono hkeeps.roles, f, hkeeps.fragments _ _ f hf⟩
  · intro s f hf
    rcases hstored s f hf with he | hf
    · exact he
    · obtain ⟨need, he, hplace, hfragment⟩ := h.stored s f hf
      exact ⟨need, hexplained he, hplace, hfragment⟩

/-- nothing changes where nothing is noted or stored -/
theorem of_same (h : Accounted user p) (hkeeps : p.Keeps q) (hjournal : q.journal = p.journal)
    (hregistry : q.registry = p.registry) : Accounted user q := by
  refine h.of_keeps hkeeps (fun _ hc => hc) (fun need hn => .inr ?_) (fun need hn => .inr ?_) fun s f hf => .inr ?_
  · obtain ⟨e, he, hneed⟩ := hn
    exact ⟨e, hjournal ▸ he, hneed⟩
  · exact hjournal ▸ hn
  · exact hregistry ▸ hf

theorem note (h : Accounted user p) {e : Event} (he : e.need? = none) : Accounted user (p.noted e) := by
  refine h.of_keeps (Pass.noted_keeps p e) (fun _ hc => hc) ?_ ?_ fun _ _ hf => .inr hf
  · intro need hn
    rcases Pass.noted_noted.1 hn with hn | hn
    · rw [he] at hn
      cases hn
    · exact .inr hn
  · intro need hn
    rcases List.mem_cons.1 hn with rfl | hn
    · cases he
    · exact .inr hn

/-- a contribution whose key is taken is accounted for if it is vouched for -/
theorem ignore (h : Accounted user p) (hv : Vouched p.pins.roleOf? need) {f : Fragment}
    (hf : p.registry.get? need.place need.key = some f) : Accounted user (p.noted need.ignored) := by
  refine h.of_keeps (Pass.noted_keeps p _) (fun _ hc => hc) ?_ ?_ fun _ _ hf => .inr hf
  · intro other hn
    rcases Pass.noted_noted.1 hn with hn | hn
    · cases hn
      exact .inl (.inl hv)
    · exact .inr hn
  · intro other hn
    rcases List.mem_cons.1 hn with hn | hn
    · have hother : other = need := Option.some.inj (congrArg Event.need? hn)
      subst hother
      exact .inl ⟨hv, f, hf⟩
    · exact .inr hn

/-- a contribution that is stored is accounted for if it is explained -/
theorem store (h : Accounted user p) (huser : ∀ code, user = some code → user' = some code)
    (hexplained : Explained user' p.pins.roleOf? need) (hfree : p.registry.get? need.place need.key = none) :
    Accounted user' (p.contributed need) := by
  have hkeeps := Pass.contributed_keeps p need
  rcases Pass.contributed_cases p need with ⟨f, hf, -⟩ | ⟨-, e, he, hplain, heq⟩
  · rw [hfree] at hf
    cases hf
  rw [heq] at hkeeps ⊢
  refine h.of_keeps hkeeps huser ?_ ?_ ?_
  · intro other hn
    rcases Pass.noted_noted.1 hn with hn | hn
    · rw [he] at hn
      cases hn
      exact .inl hexplained
    · exact .inr hn
  · intro other hn
    rcases List.mem_cons.1 hn with hn | hn
    · exact absurd hn.symm (hplain other)
    · exact .inr hn
  · intro s f hf
    have hf' : f ∈ (p.registry.push need.place need.fragment).stored s := hf
    rw [Registry.stored_push] at hf'
    split at hf'
    · rename_i hs
      rcases List.mem_append.1 hf' with hf' | hf'
      · exact .inr hf'
      · exact .inl ⟨need, hexplained, hs, (List.mem_singleton.1 hf').symm⟩
    · exact .inr hf'

theorem contribute (h : Accounted user p) (hv : Vouched p.pins.roleOf? need) : Accounted user (p.contributed need) := by
  rcases Pass.contributed_cases p need with ⟨f, hf, heq⟩ | ⟨hfree, -⟩
  · rw [heq]
    exact h.ignore hv hf
  · exact h.store (fun _ hc => hc) (.inl hv) hfree

end Accounted

/-! ## Claims come before contributions -/

/-- every contribution in a list of actions is vouched for by the time it is made, and nobody else makes notes about
contributions -/
def ClaimedFirst (roleOf? : String → Option Role) : List Action → Prop
  | [] => True
  | .note e :: rest => e.need? = none ∧ ClaimedFirst roleOf? rest
  | .claim _ use :: rest => ClaimedFirst (fun pin => if use.pin = pin then some use.role else roleOf? pin) rest
  | .contribute need :: rest => Vouched roleOf? need ∧ ClaimedFirst roleOf? rest
  | .count :: rest => ClaimedFirst roleOf? rest
  | .fail _ _ :: _ => True

/-- one action of such a list: what it does is accounted for, and the rest of the list is such a list again -/
theorem perform_accounted {user : Option String} {p : Pass} {action : Action} {rest : List Action}
    (h : Accounted user p) (hfirst : ClaimedFirst p.pins.roleOf? (action :: rest)) :
    Accounted user (afterwards (action.perform p)) ∧
      ∀ q, action.perform p = .ok () q → ClaimedFirst q.pins.roleOf? rest := by
  cases action with
  | note e => exact ⟨h.note hfirst.1, fun q hq => by cases hq; exact hfirst.2⟩
  | contribute need => exact ⟨h.contribute hfirst.1, fun q hq => by cases hq; exact hfirst.2⟩
  | count =>
    refine ⟨?_, fun q hq => by cases hq; exact hfirst⟩
    exact h.of_same (perform_keeps .count p) rfl rfl
  | fail block fault => exact ⟨h, fun q hq => by cases hq⟩
  | claim block use =>
    have hkeeps := perform_keeps (claim block use) p
    refine ⟨?_, fun q hq => ?_⟩
    · rcases afterwards_claim block use p with ⟨pins, -, heq⟩ | heq
      · rw [heq] at hkeeps ⊢
        exact h.of_same hkeeps rfl rfl
      · rw [heq]
        exact h
    · have hroles : q.pins.roleOf? = fun pin => if use.pin = pin then some use.role else p.pins.roleOf? pin :=
        funext (roleOf?_perform hq)
      rw [hroles]
      exact hfirst

/-- **All that is noted and stored is accounted for**, whether the actions succeed or one of them fails. -/
theorem performAll_accounted {user : Option String} {p : Pass} {actions : List Action} (h : Accounted user p)
    (hfirst : ClaimedFirst p.pins.roleOf? actions) : Accounted user (afterwards (performAll actions p)) := by
  induction actions generalizing p with
  | nil => exact h
  | cons action rest ih =>
    obtain ⟨hone, hrest⟩ := perform_accounted h hfirst
    rw [performAll_cons]
    cases hp : action.perform p with
    | error e q => rw [hp] at hone; exact hone
    | ok u q => rw [hp] at hone; exact ih hone (hrest q hp)

theorem claimedFirst_append {xs ys : List Action} (hx : ∀ roleOf?, ClaimedFirst roleOf? xs)
    (hy : ∀ roleOf?, ClaimedFirst roleOf? ys) (roleOf? : String → Option Role) : ClaimedFirst roleOf? (xs ++ ys) := by
  -- what the first list claims does not matter to the second, but it changes the roles on the way
  have happend (xs : List Action) : ∀ roleOf?, ClaimedFirst roleOf? xs → ClaimedFirst roleOf? (xs ++ ys) := by
    induction xs with
    | nil => intro roleOf? _; exact hy roleOf?
    | cons action rest ih =>
      intro roleOf? h
      cases action with
      | note e => exact ⟨h.1, ih _ h.2⟩
      | claim block use => exact ih _ h
      | contribute need => exact ⟨h.1, ih _ h.2⟩
      | count => exact ih _ h
      | fail block fault => trivial
  exact happend xs roleOf? (hx roleOf?)

theorem claimedFirst_flatMap {α : Type} {xs : List α} {f : α → List Action}
    (h : ∀ x ∈ xs, ∀ roleOf?, ClaimedFirst roleOf? (f x)) (roleOf? : String → Option Role) :
    ClaimedFirst roleOf? (xs.flatMap f) := by
  induction xs generalizing roleOf? with
  | nil => trivial
  | cons x rest ih =>
    rw [List.flatMap_cons]
    exact claimedFirst_append (h x List.mem_cons_self) (ih fun y hy => h y (List.mem_cons_of_mem x hy)) roleOf?

theorem claimedFirst_contributions {roleOf? : String → Option Role} {needs : List Need}
    (h : ∀ need ∈ needs, Vouched roleOf? need) : ClaimedFirst roleOf? (needs.map contribute) := by
  induction needs with
  | nil => trivial
  | cons need rest ih =>
    exact ⟨h need List.mem_cons_self, ih fun other ho => h other (List.mem_cons_of_mem need ho)⟩

/-- a block needs what its pin needs, or it claims no pin and needs nothing but the robot kit -/
theorem Block.ownNeeds_cases (b : Block) :
    (b.pinUse? = none ∧ ∀ need ∈ b.ownNeeds, need ∈ robotNeeds) ∨
      ∃ use, b.pinUse? = some use ∧ b.ownNeeds = use.role.needs use.pin := by
  unfold ownNeeds pinUse?
  cases b.kind? with
  | none => exact .inl ⟨rfl, fun need hn => by cases hn⟩
  | some k =>
    simp only [Option.elim_some, Option.bind_some, Kind.needs]
    by_cases hrobot : k.isRobot = true
    · have hnone : k.pinUse? (k.word b) = none := by cases k <;> first | rfl | cases hrobot
      rw [if_pos hrobot, hnone]
      exact .inl ⟨rfl, fun need hn => hn⟩
    · rw [if_neg hrobot]
      cases k.pinUse? (k.word b) with
      | none => exact .inl ⟨rfl, fun need hn => by cases hn⟩
      | some use => exact .inr ⟨use, rfl, rfl⟩

theorem Block.ownActions_claimedFirst (b : Block) (roleOf? : String → Option Role) :
    ClaimedFirst roleOf? b.ownActions := by
  unfold ownActions
  rcases b.ownNeeds_cases with ⟨hnone, hrobot⟩ | ⟨use, huse, hneeds⟩
  · rw [hnone]
    exact claimedFirst_contributions fun need hn => .inl (hrobot need hn)
  · rw [huse, hneeds]
    exact claimedFirst_contributions fun need hn => .inr ⟨use.pin, use.role, if_pos rfl, hn⟩

theorem Block.claimedFirst (b : Block) :
    ∀ shape level roleOf?, ClaimedFirst roleOf? (b.actions shape level) := by
  induction b using Block.induct with
  | step b hv hs =>
    intro shape level
    rw [actions_eq]
    refine claimedFirst_append ?_ ?_
    · intro roleOf?
      cases shape with
      | value => trivial
      | statement => exact ⟨rfl, trivial⟩
    · cases b.refusal? shape level with
      | some fault => exact fun _ => trivial
      | none =>
        refine claimedFirst_append (claimedFirst_flatMap fun request _ => ?_) b.ownActions_claimedFirst
        cases request with
        | value slot required default =>
          simp only [Request.actions]
          cases hc : b.input? slot with
          | none => exact fun _ => trivial
          | some c => exact hv slot c hc .value (level + 1)
        | chain slot => exact claimedFirst_flatMap fun c hc => hs slot c hc .statement (level + 1)
        | counter => exact fun _ => trivial

theorem chainActions_claimedFirst (chain : List Block) (level : Nat) (roleOf? : String → Option Role) :
    ClaimedFirst roleOf? (chainActions chain level) :=
  claimedFirst_flatMap (fun b _ => b.claimedFirst .statement level) roleOf?

/-! ## Steps and runs -/

/-- a step of a pass that comes from outside: an expression, a chain, or the chain in a slot of a block -/
inductive Step where
  | value (b : Block)
  | chain (blocks : List Block)
  | statement (b : Block) (slot : String)

/-- the state after a step with the built-in table, whether the step succeeds or fails -/
def Step.after (p : Pass) : Step → Pass
  | .value b => afterwards (valueCode Table.builtin b p)
  | .chain blocks => afterwards (chainCode Table.builtin blocks p)
  | .statement b slot => afterwards ((b.slots Table.builtin).body slot p)

/-- the state that steps lead to from a fresh pass -/
def Pass.reached (board : Board) (indent : Nat) (steps : List Step) : Pass := steps.foldl Step.after { board, indent }

theorem Performs.afterwards_eq {α : Type} {x : Gen α} {indent depth loops loops' : Nat} {actions : List Action}
    {result : α} (h : Performs x indent depth loops actions result loops') {p : Pass} (hp : p.Sees indent depth loops) :
    afterwards (x p) = afterwards (performAll actions p) := by
  have hrun := h p hp
  cases ha : performAll actions p with
  | ok u q => rw [ha] at hrun; rw [hrun.1]; rfl
  | error e q => rw [ha] at hrun; rw [hrun]; rfl

/-- a step does the actions of some blocks -/
theorem Step.after_eq (step : Step) (p : Pass) :
    ∃ actions, step.after p = afterwards (performAll actions p) ∧ ∀ roleOf?, ClaimedFirst roleOf? actions := by
  have hp : p.Sees p.indent p.depth (p.uses counterBase) := ⟨rfl, rfl, rfl⟩
  cases step with
  | value b => exact ⟨_, (valueCode_performs b _ _ _).afterwards_eq hp, b.claimedFirst .value _⟩
  | chain blocks =>
    exact ⟨_, (chainCode_performs blocks _ _ _).afterwards_eq hp, chainActions_claimedFirst blocks _⟩
  | statement b slot =>
    have h := performs_indented (chainCode_performs (b.statement slot) p.indent p.depth (p.uses counterBase))
    exact ⟨_, h.afterwards_eq hp, chainActions_claimedFirst (b.statement slot) _⟩

theorem Step.keeps (step : Step) (p : Pass) : p.Keeps (step.after p) := by
  obtain ⟨actions, heq, -⟩ := step.after_eq p
  rw [heq]
  exact performAll_keeps actions p

theorem Step.accounted (step : Step) {user : Option String} {p : Pass} (h : Accounted user p) :
    Accounted user (step.after p) := by
  obtain ⟨actions, heq, hfirst⟩ := step.after_eq p
  rw [heq]
  exact performAll_accounted h (hfirst _)

theorem Pass.reached_accounted (board : Board) (indent : Nat) (steps : List Step) :
    Accounted none (Pass.reached board indent steps) := by
  have hrun (steps : List Step) : ∀ p, Accounted none p → Accounted none (steps.foldl Step.after p) := by
    induction steps with
    | nil => exact fun p h => h
    | cons step rest ih => exact fun p h => ih _ (step.accounted h)
  exact hrun steps _ (Accounted.fresh board indent)

/-- what holds after the first part if that fails, and after the second part if not, holds after both -/
theorem afterwards_bind {α β : Type} {x : Gen α} {f : α → Gen β} {p : Pass} {P : Pass → Prop}
    (herror : ∀ e q, x p = .error e q → P q) (hok : ∀ a q, x p = .ok a q → P (afterwards (f a q))) :
    P (afterwards ((x >>= f) p)) := by
  show P (afterwards (EStateM.bind x f p))
  unfold EStateM.bind
  cases hx : x p with
  | ok a q => exact hok a q hx
  | error e q => exact herror e q hx

/-- the setup chain's statements are stored: no block contributes under their key -/
theorem Accounted.setup {p : Pass} (h : Accounted none p) (code : String) :
    Accounted (some code) (p.contributed (userSetup code)) := by
  refine h.store (fun _ hc => by cases hc) (.inr ⟨code, rfl, rfl⟩) ?_
  cases hf : p.registry.get? .setup "user_setup" with
  | none => exact hf
  | some f =>
    obtain ⟨need, hneed, hplace, hfragment⟩ := h.stored .setup f (List.mem_of_find?_eq_some hf)
    have hkey : need.key = "user_setup" := by
      rw [show need.key = f.key from congrArg Fragment.key hfragment]
      simpa using List.find?_some hf
    rcases hneed with hv | ⟨code', hcode, -⟩
    · exact absurd hkey (hv.ne_user hplace)
    · cases hcode

/-- a whole run keeps what is on record and accounts for the rest, from whatever state it starts -/
theorem runProgram_accounted (program : Program) {p : Pass} (h : Accounted none p) :
    p.Keeps (afterwards (runProgram Table.builtin program p)) ∧
      ∃ user, Accounted user (afterwards (runProgram Table.builtin program p)) := by
  -- the main chain and the layout, once the setup chain is done with
  have hmain {user : Option String} {q : Pass} (hkeeps : p.Keeps q) (hq : Accounted user q) :
      p.Keeps (afterwards ((chainCode Table.builtin program.main >>= Gen.finish) q)) ∧
        ∃ user, Accounted user (afterwards ((chainCode Table.builtin program.main >>= Gen.finish) q)) := by
    have hkeeps' := hkeeps.trans ((Step.chain program.main).keeps q)
    have hq' := (Step.chain program.main).accounted hq
    refine afterwards_bind (P := fun r => p.Keeps r ∧ ∃ user, Accounted user r) ?_ ?_
    · intro e r hr
      rw [Step.after, hr] at hkeeps' hq'
      exact ⟨hkeeps', user, hq'⟩
    · intro text r hr
      rw [Step.after, hr] at hkeeps' hq'
      exact ⟨(hkeeps'.trans (Pass.noted_keeps r _)).trans (Pass.noted_keeps _ _), user, (hq'.note rfl).note rfl⟩
  let start : Pass := { p with sourceId := program.sourceId }.noted (.passStarted p.board.name)
  have hkeeps : p.Keeps start := ⟨fun _ _ _ hf => hf, fun _ he => List.mem_cons_of_mem _ he, fun _ _ hr => hr⟩
  have hstart : Accounted none start :=
    (h.note rfl).of_same ⟨fun _ _ _ hf => hf, fun _ he => he, fun _ _ hr => hr⟩ rfl rfl
  have hkeeps' := hkeeps.trans ((Step.chain program.setup).keeps start)
  have hsetup := (Step.chain program.setup).accounted hstart
  rw [runProgram_eq_walk]
  simp only [walkProgram, bind_assoc]
  refine afterwards_bind (P := fun r => p.Keeps r ∧ ∃ user, Accounted user r) ?_ ?_
  · intro e q hq
    cases hq
  rintro _ q hq
  cases hq
  refine afterwards_bind (P := fun r => p.Keeps r ∧ ∃ user, Accounted user r) ?_ ?_
  · intro e q hq
    rw [Step.after, hq] at hkeeps' hsetup
    exact ⟨hkeeps', none, hsetup⟩
  intro setup q hq
  rw [Step.after, hq] at hkeeps' hsetup
  cases setup.isEmpty with
  | true => exact hmain hkeeps' hsetup
  | false => exact hmain (hkeeps'.trans (Pass.contributed_keeps q (userSetup setup))) (hsetup.setup setup)

/-! ## Ignored contributions -/

/-- nothing is lost by ignoring contributions whose key is taken -/
structure Pass.LosesNothing (p : Pass) : Prop where
  /-- what was ignored is stored, with its text and its rank -/
  ignored : ∀ place key text runFirst, .fragmentPresent place key text runFirst ∈ p.journal →
    p.registry.get? place key = some ⟨key, text, runFirst⟩
  /-- whatever was contributed under one key of a section was the same -/
  agree : ∀ need other, p.Noted need → p.Noted other → need.place = other.place → need.key = other.key → need = other
  /-- no pin was set up for both directions -/
  modes : ∀ pin runFirst runFirst', ¬ (p.Noted ⟨.setup, "io_" ++ pin, "pinMode(" ++ pin ++ ", INPUT);", runFirst⟩ ∧
    p.Noted ⟨.setup, "io_" ++ pin, "pinMode(" ++ pin ++ ", OUTPUT);", runFirst'⟩)

theorem Accounted.get?_ignored {user : Option String} {p : Pass} {need : Need} (h : Accounted user p)
    (hn : need.ignored ∈ p.journal) :
    p.registry.get? need.place need.key = some ⟨need.key, need.text, need.runFirst⟩ := by
  obtain ⟨hv, f, hf⟩ := h.ignored need hn
  obtain ⟨other, hother, hplace, hfragment⟩ := h.stored need.place f (List.mem_of_find?_eq_some hf)
  have hkey : other.key = need.key := by
    rw [show other.key = f.key from congrArg Fragment.key hfragment]
    simpa using List.find?_some hf
  have hsame : other = need := hother.unique (.inl hv) hplace hkey
  rw [hf, ← hfragment, hsame, Need.fragment, hv.trimEnd_text]

theorem Accounted.losesNothing {user : Option String} {p : Pass} (h : Accounted user p) : p.LosesNothing := by
  have hagree (need other : Need) (hn : p.Noted need) (ho : p.Noted other) (hplace : need.place = other.place)
      (hkey : need.key = other.key) : need = other :=
    (h.noted need hn).unique (h.noted other ho) hplace hkey
  refine ⟨?_, hagree, ?_⟩
  · intro place key text runFirst hn
    exact @get?_ignored user p ⟨place, key, text, runFirst⟩ h hn
  · rintro pin runFirst runFirst' ⟨hinput, houtput⟩
    have htext := congrArg Need.text (hagree _ _ hinput houtput rfl rfl)
    simp [String.append_assoc] at htext

/-- **Ignored contributions are the ones that are stored**: after whatever steps, on whatever board, whether they
succeeded or failed, and after a whole run from there. Further steps and runs keep what is stored, so an ignored
contribution agreed with the stored one when it was ignored. -/
theorem ignored_contributions_agree (board : Board) (indent : Nat) (steps : List Step) :
    (Pass.reached board indent steps).LosesNothing ∧
    (∀ step : Step, (Pass.reached board indent steps).Keeps (step.after (Pass.reached board indent steps)) ∧
      (step.after (Pass.reached board indent steps)).LosesNothing) ∧
    ∀ program : Program,
      (Pass.reached board indent steps).Keeps
        (afterwards (runProgram Table.builtin program (Pass.reached board indent steps))) ∧
      (afterwards (runProgram Table.builtin program (Pass.reached board indent steps))).LosesNothing := by
  have h := Pass.reached_accounted board indent steps
  refine ⟨h.losesNothing, ?_, ?_⟩
  · intro step
    exact ⟨step.keeps _, (step.accounted h).losesNothing⟩
  · intro program
    obtain ⟨hkeeps, user, hrun⟩ := runProgram_accounted program h
    exact ⟨hkeeps, hrun.losesNothing⟩

-- the second of two statements that write to one pin contributes what the first has stored
example :
    .fragmentPresent .setup "io_13" "pinMode(13, OUTPUT);" false ∈
      (Pass.reached Board.uno 2 [.chain [⟨"w", "io_digitalwrite", [("PIN", "13")], [], [], default⟩,
        ⟨"x", "io_digitalwrite", [("PIN", "13")], [], [], default⟩]]).journal := by
  decide +kernel

end BlockSketch
