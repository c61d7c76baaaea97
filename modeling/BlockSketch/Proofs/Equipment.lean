/-
Pins and their boilerplate go together.

A block claims its pin and contributes what the pin needs in separate steps, and a walk can fail at any block. Still the
pin table and the registry never drift apart: nothing can fail between a claim and the contributions that go with it, and
a claim that is refused leaves both alone. So the pin table can be read off the fragments and the other way round, in
every state that steps lead to, whether they succeeded or failed.

Results:
- `Block.preserves`: what a block's own actions, notes and counts keep, a walk keeps, whatever its outcome;
- `ownActions_equipped`: a block leaves every claimed pin with what it needs;
- `role_of_stored`: a fragment under the key of a pin tells the role of the pin;
- `pins_match_fragments`: the claims on pins and the fragments that belong to them determine each other.
-/
import BlockSketch.Proofs.Deduplication

namespace BlockSketch

open BlockSketch.Action

/-! ## What a walk keeps -/

/-- the property of states is kept by the actions, whether they all succeed or one of them fails -/
def Preserves (P : Pass → Prop) (actions : List Action) : Prop := ∀ p, P p → P (afterwards (performAll actions p))

variable {P : Pass → Prop}

theorem preserves_nil : Preserves P [] := fun _ h => h

theorem preserves_append {xs ys : List Action} (hx : Preserves P xs) (hy : Preserves P ys) : Preserves P (xs ++ ys) := by
  intro p h
  have hfirst := hx p h
  rw [performAll_append]
  cases hp : performAll xs p with
  | ok u q => rw [hp] at hfirst; exact hy q hfirst
  | error e q => rw [hp] at hfirst; exact hfirst

theorem preserves_flatMap {α : Type} {xs : List α} {f : α → List Action} (h : ∀ x ∈ xs, Preserves P (f x)) :
    Preserves P (xs.flatMap f) := by
  induction xs with
  | nil => exact preserves_nil
  | cons x rest ih =>
    rw [List.flatMap_cons]
    exact preserves_append (h x List.mem_cons_self) (ih fun y hy => h y (List.mem_cons_of_mem x hy))

/-- what notes, counts and the own actions of blocks keep, the walk through a block keeps -/
theorem Block.preserves (hnote : ∀ p e, P p → P (p.noted e)) (hcount : ∀ p base, P p → P (p.countUse base))
    (hown : ∀ b : Block, Preserves P b.ownActions) (b : Block) :
    ∀ shape level, Preserves P (b.actions shape level) := by
  induction b using Block.induct with
  | step b hv hs =>
    intro shape level
    rw [actions_eq]
    apply preserves_append
    · cases shape with
      | value => exact preserves_nil
      | statement => exact fun p h => hnote p _ h
    · cases b.refusal? shape level with
      | some fault => exact fun p h => h
      | none =>
        refine preserves_append (preserves_flatMap fun request _ => ?_) (hown b)
        cases request with
        | value slot required default =>
          simp only [Request.actions]
          cases hc : b.input? slot with
          | none => exact preserves_nil
          | some c => exact hv slot c hc .value (level + 1)
        | chain slot => exact preserves_flatMap fun c hc => hs slot c hc .statement (level + 1)
        | counter => exact fun p h => hcount p _ h

theorem Step.preserves (h : ∀ (b : Block) shape level, Preserves P (b.actions shape level)) (step : Step) (p : Pass)
    (hp : P p) : P (step.after p) := by
  have hchain (chain : List Block) (level : Nat) : Preserves P (chainActions chain level) :=
    preserves_flatMap fun b _ => h b .statement level
  have hsees : p.Sees p.indent p.depth (p.uses counterBase) := ⟨rfl, rfl, rfl⟩
  cases step with
  | value b =>
    rw [Step.after, (valueCode_performs b _ _ _).afterwards_eq hsees]
    exact h b .value _ p hp
  | chain blocks =>
    rw [Step.after, (chainCode_performs blocks _ _ _).afterwards_eq hsees]
    exact hchain blocks _ p hp
  | statement b slot =>
    have hbody := performs_indented (chainCode_performs (b.statement slot) p.indent p.depth (p.uses counterBase))
    have hafter : Step.after p (.statement b slot) = _ := hbody.afterwards_eq hsees
    rw [hafter]
    exact hchain (b.statement slot) _ p hp

theorem Pass.reached_preserves (h : ∀ (b : Block) shape level, Preserves P (b.actions shape level)) {board : Board}
    {indent : Nat} (hfresh : P { board, indent }) (steps : List Step) : P (Pass.reached board indent steps) := by
  have hrun : ∀ p, P p → P (steps.foldl Step.after p) := by
    induction steps with
    | nil => exact fun p hp => hp
    | cons step rest ih => exact fun p hp => ih _ (step.preserves h p hp)
  exact hrun _ hfresh

/-! ## Every claimed pin has what it needs -/

/-- whatever a claimed pin needs for its role is stored, and no pin is claimed for a bus -/
structure Pass.Equipped (p : Pass) : Prop where
  needs : ∀ pin role, p.pins.roleOf? pin = some role → ∀ need ∈ role.needs pin,
    ∃ f, p.registry.get? need.place need.key = some f
  buses : ∀ c ∈ p.pins.claims, c.role ≠ .i2c ∧ c.role ≠ .spi

theorem Pass.Equipped.fresh (board : Board) (indent : Nat) : Pass.Equipped { board, indent } := by
  constructor
  · intro pin role h
    cases h
  · intro c h
    cases h

theorem Pass.Equipped.of_keeps {p q : Pass} (h : p.Equipped) (hkeeps : p.Keeps q) (hpins : q.pins = p.pins) :
    q.Equipped := by
  constructor
  · intro pin role hrole need hn
    rw [hpins] at hrole
    obtain ⟨f, hf⟩ := h.needs pin role hrole need hn
    exact ⟨f, hkeeps.fragments _ _ f hf⟩
  · rw [hpins]
    exact h.buses

/-- a claim adds itself to the table, or nothing -/
theorem mem_claims_of_claim {t t' : PinTable} {board : Board} {c d : Claim} (h : t.claim board c = .ok t')
    (hd : d ∈ t'.claims) : d ∈ t.claims ∨ d = c := by
  rcases t.claim_ok_cases h with ⟨-, rfl⟩ | ⟨first, -, -, rfl⟩
  · simpa using hd
  · exact .inl hd

theorem Registry.get?_contributed (p : Pass) (need : Need) :
    ∃ f, (p.contributed need).registry.get? need.place need.key = some f := by
  rcases Pass.contributed_cases p need with ⟨f, hf, heq⟩ | ⟨hfree, e, -, -, heq⟩
  · rw [heq]
    exact ⟨f, hf⟩
  · rw [heq]
    refine ⟨need.fragment, ?_⟩
    show (p.registry.push need.place need.fragment).get? need.place need.key = _
    rw [Registry.get?_push, hfree]
    simp [Need.fragment]

/-- contributions never fail: they leave the pins alone and something under each of their keys -/
theorem afterwards_contributions (needs : List Need) (p : Pass) :
    (afterwards (performAll (needs.map contribute) p)).pins = p.pins ∧
      ∀ need ∈ needs, ∃ f, (afterwards (performAll (needs.map contribute) p)).registry.get? need.place need.key =
        some f := by
  induction needs generalizing p with
  | nil => exact ⟨rfl, fun need hn => by cases hn⟩
  | cons first rest ih =>
    have hrun : performAll ((first :: rest).map contribute) p = performAll (rest.map contribute) (p.contributed first) :=
      rfl
    obtain ⟨hpins, hrest⟩ := ih (p.contributed first)
    rw [hrun]
    refine ⟨hpins, fun need hn => ?_⟩
    rcases List.mem_cons.1 hn with rfl | hn
    · obtain ⟨f, hf⟩ := Registry.get?_contributed p need
      exact ⟨f, (performAll_keeps _ _).fragments _ _ f hf⟩
    · exact hrest need hn

/-- the kinds of blocks that claim pins do so for inputs, outputs, servos and serial ports -/
theorem role_of_pinUse? {b : Block} {use : PinUse} (h : b.pinUse? = some use) : use.role ≠ .i2c ∧ use.role ≠ .spi := by
  obtain ⟨k, -, hk⟩ := Option.bind_eq_some_iff.1 h
  obtain ⟨⟨role, purpose⟩, hrole, rfl⟩ := Option.map_eq_some_iff.1 hk
  cases k <;> cases hrole <;> simp

/-- a claim that succeeds and the contributions that go with it -/
theorem claimed_equipped {p : Pass} {b : Block} {use : PinUse} {pins : PinTable} (h : p.Equipped)
    (huse : b.pinUse? = some use) (hc : p.pins.claim p.board (Pass.claimOf b use) = .ok pins) :
    (afterwards (performAll ((use.role.needs use.pin).map contribute) { p with pins })).Equipped := by
  obtain ⟨hsame, hstored⟩ := afterwards_contributions (use.role.needs use.pin) { p with pins }
  have hkeeps := performAll_keeps ((use.role.needs use.pin).map contribute) { p with pins }
  constructor
  · intro pin role hrole need hn
    rw [hsame, roleOf?_claim hc] at hrole
    split at hrole
    · -- the pin that has just been claimed
      rename_i hpin
      cases hrole
      subst hpin
      exact hstored need hn
    · -- a pin that was claimed before
      obtain ⟨f, hf⟩ := h.needs pin role hrole need hn
      exact ⟨f, hkeeps.fragments _ _ f hf⟩
  · rw [hsame]
    intro c hmem
    rcases mem_claims_of_claim hc hmem with hmem | rfl
    · exact h.buses c hmem
    · exact role_of_pinUse? huse

/-- **A block leaves every claimed pin with what it needs**: it is refused its pin and does nothing, or it claims the pin
and contributes everything the pin needs. -/
theorem ownActions_equipped (b : Block) : Preserves Pass.Equipped b.ownActions := by
  intro p h
  unfold Block.ownActions
  rcases b.ownNeeds_cases with ⟨hnone, -⟩ | ⟨use, huse, hneeds⟩
  · rw [hnone]
    exact h.of_keeps (performAll_keeps _ p) (afterwards_contributions b.ownNeeds p).1
  · rw [huse, hneeds]
    show (afterwards (performAll (claim b use :: (use.role.needs use.pin).map contribute) p)).Equipped
    rw [performAll_cons, perform_claim]
    cases hc : p.pins.claim p.board (Pass.claimOf b use) with
    | ok pins => exact claimed_equipped h huse hc
    | error fault => exact h

theorem Block.preserves_equipped (b : Block) (shape : Shape) (level : Nat) :
    Preserves Pass.Equipped (b.actions shape level) := by
  refine Block.preserves ?_ ?_ ownActions_equipped b shape level
  · intro p e h
    exact h.of_keeps (Pass.noted_keeps p e) rfl
  · intro p base h
    exact h.of_keeps ⟨fun _ _ _ hf => hf, fun _ he => he, fun _ _ hr => hr⟩ rfl

/-! ## Every fragment of a pin has its claim -/

/-- a fragment under a key that names a pin is something that the pin needs for the role it is claimed for -/
theorem role_of_stored {user : Option String} {p : Pass} (h : Accounted user p) {place : Section} {key pin : String}
    {f : Fragment} (hkey : keyPin? key = some pin) (hf : p.registry.get? place key = some f) :
    ∃ role, p.pins.roleOf? pin = some role ∧
      ∃ need ∈ role.needs pin, need.place = place ∧ need.key = key ∧ f = ⟨need.key, need.text, need.runFirst⟩ := by
  obtain ⟨need, hneed, hplace, hfragment⟩ := h.stored place f (List.mem_of_find?_eq_some hf)
  have hneedKey : need.key = key := by
    rw [show need.key = f.key from congrArg Fragment.key hfragment]
    simpa using List.find?_some hf
  rcases hneed with hv | ⟨code, -, rfl⟩
  · have hunder := needUnder?_of_vouched hv
    rw [hplace, hneedKey, needUnder?, hkey] at hunder
    have hmem : need ∈ (p.pins.roleOf? pin).elim [] fun role => role.needs pin := List.mem_of_find?_eq_some hunder
    cases hrole : p.pins.roleOf? pin with
    | none => rw [hrole] at hmem; cases hmem
    | some role =>
      rw [hrole] at hmem
      refine ⟨role, rfl, need, hmem, hplace, hneedKey, ?_⟩
      rw [← hfragment, Need.fragment, hv.trimEnd_text]
  · -- the key of the setup chain's statements names no pin
    rw [← hneedKey] at hkey
    simp [userSetup, keyPin?] at hkey

/-- what a claimed pin needs is stored as it is, with its text and its rank -/
theorem stored_of_role {user : Option String} {p : Pass} (h : Accounted user p) (he : p.Equipped) {pin : String}
    {role : Role} (hrole : p.pins.roleOf? pin = some role) {need : Need} (hn : need ∈ role.needs pin) :
    p.registry.get? need.place need.key = some ⟨need.key, need.text, need.runFirst⟩ := by
  obtain ⟨f, hf⟩ := he.needs pin role hrole need hn
  have hv : Vouched p.pins.roleOf? need := .inr ⟨pin, role, hrole, hn⟩
  obtain ⟨other, hother, hplace, hfragment⟩ := h.stored need.place f (List.mem_of_find?_eq_some hf)
  have hkey : other.key = need.key := by
    rw [show other.key = f.key from congrArg Fragment.key hfragment]
    simpa using List.find?_some hf
  have hsame : other = need := hother.unique (.inl hv) hplace hkey
  rw [hf, ← hfragment, hsame, Need.fragment, hv.trimEnd_text]

/-! ## The two records match -/

/-- the claims on pins and the fragments that belong to pins determine each other -/
structure Pass.PinsMatch (p : Pass) : Prop where
  declared : ∀ pin, p.pins.roleOf? pin = some .servo ↔ ∃ f, p.registry.get? .declarations ("servo_" ++ pin) = some f
  attached : ∀ pin, p.pins.roleOf? pin = some .servo ↔
    ∃ text, p.registry.get? .setup ("servo_" ++ pin) = some ⟨"servo_" ++ pin, text, true⟩
  included : ∀ pin, p.pins.roleOf? pin = some .servo → ∃ f, p.registry.get? .includes "servo" = some f
  inputs : ∀ pin, (p.pins.roleOf? pin = some .digitalInput ∨ p.pins.roleOf? pin = some .analogInput) ↔
    ∃ runFirst, p.registry.get? .setup ("io_" ++ pin) =
      some ⟨"io_" ++ pin, "pinMode(" ++ pin ++ ", INPUT);", runFirst⟩
  outputs : ∀ pin, (p.pins.roleOf? pin = some .digitalOutput ∨ p.pins.roleOf? pin = some .pwm) ↔
    ∃ runFirst, p.registry.get? .setup ("io_" ++ pin) =
      some ⟨"io_" ++ pin, "pinMode(" ++ pin ++ ", OUTPUT);", runFirst⟩
  ports : ∀ pin, p.pins.roleOf? pin = some .serial ↔
    ∃ text, p.registry.get? .setup ("serial_" ++ pin) = some ⟨"serial_" ++ pin, text, true⟩
  buses : ∀ c ∈ p.pins.claims, c.role ≠ .i2c ∧ c.role ≠ .spi

theorem servo_of_declaration {role : Role} {pin : String} {need : Need} (h : need ∈ role.needs pin)
    (hplace : need.place = .declarations) : role = .servo := by
  cases role <;> simp only [Role.needs, List.mem_cons, List.not_mem_nil, or_false] at h
  case servo => rfl
  all_goals subst h; cases hplace

/-- the key of a fragment in the setup section tells servos and serial ports from the rest -/
theorem role_of_setupKey {role : Role} {pin : String} {need : Need} (h : need ∈ role.needs pin)
    (hplace : need.place = .setup) :
    (need.key = "servo_" ++ pin → role = .servo) ∧ (need.key = "serial_" ++ pin → role = .serial) := by
  cases role <;> simp only [Role.needs, List.mem_cons, List.not_mem_nil, or_false] at h
  case servo =>
    rcases h with rfl | rfl | rfl
    · cases hplace
    · cases hplace
    · simp [← String.toList_inj]
  all_goals subst h; simp [← String.toList_inj]

def modeText (pin mode : String) : String := "pinMode(" ++ pin ++ ", " ++ mode ++ ");"

/-- the text that sets the mode of a pin tells inputs from outputs -/
theorem role_of_mode {role : Role} {pin : String} {need : Need} (h : need ∈ role.needs pin)
    (hkey : need.key = "io_" ++ pin) :
    (need.text = modeText pin "INPUT" → role = .digitalInput ∨ role = .analogInput) ∧
      (need.text = modeText pin "OUTPUT" → role = .digitalOutput ∨ role = .pwm) := by
  cases role <;> simp only [Role.needs, List.mem_cons, List.not_mem_nil, or_false] at h
  case servo => rcases h with rfl | rfl | rfl <;> simp [← String.toList_inj] at hkey
  case serial => subst h; simp [← String.toList_inj] at hkey
  all_goals subst h; simp [modeText, ← String.toList_inj]

variable {user : Option String} {p : Pass}

/-- the pins of two roles that need the same mode are those whose mode is set -/
theorem modes_match (h : Accounted user p) (he : p.Equipped) {pin mode : String} {r r' : Role}
    (hr : ⟨.setup, "io_" ++ pin, modeText pin mode, false⟩ ∈ r.needs pin)
    (hr' : ⟨.setup, "io_" ++ pin, modeText pin mode, false⟩ ∈ r'.needs pin)
    (honly : ∀ (role : Role) (need : Need), need ∈ role.needs pin → need.key = "io_" ++ pin →
      need.text = modeText pin mode → role = r ∨ role = r') :
    (p.pins.roleOf? pin = some r ∨ p.pins.roleOf? pin = some r') ↔
      ∃ runFirst, p.registry.get? .setup ("io_" ++ pin) = some ⟨"io_" ++ pin, modeText pin mode, runFirst⟩ := by
  constructor
  · rintro (hrole | hrole)
    · exact ⟨false, stored_of_role h he hrole hr⟩
    · exact ⟨false, stored_of_role h he hrole hr'⟩
  · rintro ⟨runFirst, hf⟩
    obtain ⟨role, hrole, need, hn, -, hkey, hfragment⟩ := role_of_stored h (keyPin?_io pin) hf
    have htext : need.text = modeText pin mode := (congrArg Fragment.text hfragment).symm
    rw [hrole]
    rcases honly role need hn hkey htext with rfl | rfl
    · exact .inl rfl
    · exact .inr rfl

theorem servos_match (h : Accounted user p) (he : p.Equipped) (pin : String) :
    (p.pins.roleOf? pin = some .servo ↔ ∃ f, p.registry.get? .declarations ("servo_" ++ pin) = some f) ∧
    (p.pins.roleOf? pin = some .servo ↔
      ∃ text, p.registry.get? .setup ("servo_" ++ pin) = some ⟨"servo_" ++ pin, text, true⟩) ∧
    (p.pins.roleOf? pin = some .servo → ∃ f, p.registry.get? .includes "servo" = some f) := by
  have hneeds (hrole : p.pins.roleOf? pin = some .servo) {need : Need} (hn : need ∈ Role.servo.needs pin) :=
    stored_of_role h he hrole hn
  refine ⟨⟨?_, ?_⟩, ⟨?_, ?_⟩, ?_⟩
  · intro hrole
    exact ⟨_, hneeds hrole (List.mem_cons_of_mem _ List.mem_cons_self)⟩
  · rintro ⟨f, hf⟩
    obtain ⟨role, hrole, need, hn, hplace, -⟩ := role_of_stored h (keyPin?_servo pin) hf
    rw [hrole, servo_of_declaration hn hplace]
  · intro hrole
    exact ⟨_, hneeds hrole (List.mem_cons_of_mem _ (List.mem_cons_of_mem _ List.mem_cons_self))⟩
  · rintro ⟨text, hf⟩
    obtain ⟨role, hrole, need, hn, hplace, hkey, -⟩ := role_of_stored h (keyPin?_servo pin) hf
    rw [hrole, (role_of_setupKey hn hplace).1 hkey]
  · intro hrole
    exact ⟨_, hneeds hrole List.mem_cons_self⟩

theorem ports_match (h : Accounted user p) (he : p.Equipped) (pin : String) :
    p.pins.roleOf? pin = some .serial ↔
      ∃ text, p.registry.get? .setup ("serial_" ++ pin) = some ⟨"serial_" ++ pin, text, true⟩ := by
  constructor
  · intro hrole
    exact ⟨_, stored_of_role h he hrole List.mem_cons_self⟩
  · rintro ⟨text, hf⟩
    obtain ⟨role, hrole, need, hn, hplace, hkey, -⟩ := role_of_stored h (keyPin?_serial pin) hf
    rw [hrole, (role_of_setupKey hn hplace).2 hkey]

theorem Accounted.pinsMatch (h : Accounted user p) (he : p.Equipped) : p.PinsMatch := by
  refine ⟨fun pin => (servos_match h he pin).1, fun pin => (servos_match h he pin).2.1,
    fun pin => (servos_match h he pin).2.2, ?_, ?_, ports_match h he, he.buses⟩
  · intro pin
    have htext : "pinMode(" ++ pin ++ ", INPUT);" = modeText pin "INPUT" := by simp [modeText, String.append_assoc]
    rw [htext]
    refine modes_match h he List.mem_cons_self List.mem_cons_self fun role need hn hkey => ?_
    exact (role_of_mode hn hkey).1
  · intro pin
    have htext : "pinMode(" ++ pin ++ ", OUTPUT);" = modeText pin "OUTPUT" := by simp [modeText, String.append_assoc]
    rw [htext]
    refine modes_match h he List.mem_cons_self List.mem_cons_self fun role need hn hkey => ?_
    exact (role_of_mode hn hkey).2

theorem afterwards_valueOr (b : Block) (slot : String) (required : Order) (default : String) (p : Pass) :
    afterwards ((b.slots Table.builtin).valueOr slot required default p) =
      ((b.input? slot).toList.map Step.value).foldl Step.after p := by
  have hvalue : (b.slots Table.builtin).valueOr slot required default =
      (b.input? slot).elim (pure default) fun c => do return (← valueCode Table.builtin c).embed required := by
    simp only [Slots.valueOr, Block.slots]
    cases b.input? slot with
    | none => rfl
    | some c => rfl
  rw [hvalue]
  cases b.input? slot with
  | none => rfl
  | some c =>
    refine afterwards_bind (P := fun q => q = Step.after p (.value c)) ?_ ?_
    · intro e q hq
      rw [Step.after, hq]
      rfl
    · intro code q hq
      rw [Step.after, hq]
      rfl

/-- **The claims on pins and the fragments of pins determine each other**, after whatever steps, on whatever board,
whether they succeeded or failed. Asking for the value in a slot comes down to such steps as well. -/
theorem pins_match_fragments (board : Board) (indent : Nat) (steps : List Step) :
    (Pass.reached board indent steps).PinsMatch ∧
      ∀ (b : Block) (slot : String) (required : Order) (default : String), ∃ more,
        afterwards ((b.slots Table.builtin).valueOr slot required default (Pass.reached board indent steps)) =
          Pass.reached board indent (steps ++ more) := by
  have haccounted := Pass.reached_accounted board indent steps
  have hequipped : (Pass.reached board indent steps).Equipped :=
    Pass.reached_preserves Block.preserves_equipped (Pass.Equipped.fresh board indent) steps
  refine ⟨haccounted.pinsMatch hequipped, ?_⟩
  intro b slot required default
  refine ⟨(b.input? slot).toList.map Step.value, ?_⟩
  rw [afterwards_valueOr]
  exact List.foldl_append.symm

-- the second statement is refused the pin that the first has claimed, and its own mode is not set
example :
    let p := Pass.reached Board.uno 2 [.chain [⟨"s", "servo_write", [("SERVO_PIN", "9")], [], [], default⟩,
      ⟨"w", "io_digitalwrite", [("PIN", "9")], [], [], default⟩]]
    p.pins.roleOf? "9" = some .servo ∧ p.registry.get? .setup "io_9" = none := by
  decide +kernel

end BlockSketch
