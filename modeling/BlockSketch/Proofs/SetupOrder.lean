/-
The statements of the setup chain come after what gets their pins ready.

The statements of the setup chain are one fragment of the setup section. They are contributed once the chain has been
walked: by then every block in it has contributed what its pin or the robot kit needs, and the first contribution under a
key stays. What the main chain contributes later comes after the statements, or runs first and moves in front of them;
neither comes between a block of the setup chain and what it relies on.

Results:
- `needs_of_walked`: what a walked block needs is among the needs of the chain it was reached from;
- `starter_of_claim`, `starter_of_robot`: a block that claims a pin or uses the robot kit needs what gets it ready;
- `chainCode_of_run`: what the walk through the setup chain gave in a run;
- `setup_follows_starters`: in the setup section, the setup statements are one fragment, and all that gets ready the pins
  and the kit they use stands before it.
-/
import BlockSketch.Proofs.Equipment
import BlockSketch.Proofs.RegistryHistory
import BlockSketch.Proofs.Success

namespace BlockSketch

open BlockSketch.Action

/-! ## What gets pins and the kit ready -/

/-- the fragment that gets a pin ready for its role when the sketch starts; for the buses there is none -/
def Role.starter? (role : Role) (pin : String) : Option Fragment :=
  match role with
  | .servo => some ⟨"servo_" ++ pin, "myServo" ++ pin ++ ".attach(" ++ pin ++ ");", true⟩
  | .digitalInput | .analogInput => some ⟨"io_" ++ pin, modeText pin "INPUT", false⟩
  | .digitalOutput | .pwm => some ⟨"io_" ++ pin, modeText pin "OUTPUT", false⟩
  | .serial => some ⟨"serial_" ++ pin, pin ++ ".begin(9600);", true⟩
  | .i2c | .spi => none

def robotStarter : Fragment := ⟨"idled_Rob", "Rob.Itit();", true⟩

def Block.UsesRobot (b : Block) : Prop := ∃ k : Kind, k.name = b.kind ∧ k.isRobot = true

/-- a pin that is no bus needs a fragment of the setup section for its role -/
theorem Role.starter_of_needs {role : Role} (h : role ≠ .i2c ∧ role ≠ .spi) (pin : String) :
    ∃ need ∈ role.needs pin, need.place = .setup ∧ role.starter? pin = some need.piece := by
  cases role with
  | i2c => exact absurd rfl h.1
  | spi => exact absurd rfl h.2
  | servo => exact ⟨_, List.mem_cons_of_mem _ (List.mem_cons_of_mem _ List.mem_cons_self), rfl, rfl⟩
  | serial => exact ⟨_, List.mem_cons_self, rfl, rfl⟩
  | digitalInput => exact ⟨_, List.mem_cons_self, rfl, rfl⟩
  | digitalOutput => exact ⟨_, List.mem_cons_self, rfl, rfl⟩
  | pwm => exact ⟨_, List.mem_cons_self, rfl, rfl⟩
  | analogInput => exact ⟨_, List.mem_cons_self, rfl, rfl⟩

namespace Block

variable {b : Block} {k : Kind}

/-- a block whose fields are right needs what gets the pin that it claims ready -/
theorem starter_of_claim (hk : k.name = b.kind) (hf : b.FieldsRight k) {pin : String} {role : Role}
    (h : b.Claims pin role) : ∃ need ∈ b.ownNeeds, need.place = .setup ∧ role.starter? pin = some need.piece := by
  obtain ⟨use, huse, rfl, rfl⟩ := (claims_iff hk hf).1 h
  rcases b.ownNeeds_cases with ⟨hnone, -⟩ | ⟨use', huse', hneeds⟩
  · rw [huse] at hnone
    cases hnone
  · rw [huse] at huse'
    cases huse'
    rw [hneeds]
    exact Role.starter_of_needs (role_of_pinUse? huse) use.pin

theorem starter_of_robot (h : b.UsesRobot) :
    ∃ need ∈ b.ownNeeds, need.place = .setup ∧ robotStarter = need.piece := by
  obtain ⟨k, hk, hrobot⟩ := h
  have hneeds : b.ownNeeds = robotNeeds := by
    rw [ownNeeds, kind?_eq_some_iff.2 hk, Option.elim_some, Kind.needs, if_pos hrobot]
  rw [hneeds]
  exact ⟨⟨.setup, "idled_Rob", "Rob.Itit();", true⟩, by decide, rfl, rfl⟩

end Block

/-! ## Blocks reached from the setup chain -/

theorem mem_request_needs {request : Request} {b c : Block} {slot : Slot} {need : Need}
    (hslot : request.slot? = some slot) (hc : c ∈ b.inside slot) (h : need ∈ c.needs) : need ∈ request.needs b := by
  cases request with
  | value name required default =>
    cases hslot
    have hinput : b.input? name = some c := Option.mem_toList.1 hc
    rw [Request.needs, hinput]
    exact h
  | chain name =>
    cases hslot
    exact List.mem_flatMap.2 ⟨c, hc, h⟩
  | counter => cases hslot

/-- the program without its main chain -/
def Program.setupOnly (program : Program) : Program := { program with main := [] }

section

variable {program : Program} {board : Board} {indent level : Nat} {shape : Shape} {b : Block}

/-- what a walked block needs is among the needs of the chain it was reached from -/
theorem needs_of_walked (h : Walked program shape level b) :
    ∀ need ∈ b.needs, need ∈ program.setup.flatMap Block.needs ++ program.main.flatMap Block.needs := by
  induction h with
  | setup hb => exact fun need hn => List.mem_append_left _ (List.mem_flatMap.2 ⟨_, hb, hn⟩)
  | main hb => exact fun need hn => List.mem_append_right _ (List.mem_flatMap.2 ⟨_, hb, hn⟩)
  | @inside b c k shape level slot _ hk hslot hc ih =>
    intro need hn
    obtain ⟨request, hrequest, hs⟩ := request_of_looksInto (k.word b) hslot hc
    rw [← Block.requests_of_kind (kind?_eq_some_iff.2 hk)] at hrequest
    apply ih
    rw [Block.needs_eq]
    exact List.mem_append_left _ (List.mem_flatMap.2 ⟨request, hrequest, mem_request_needs hs hc hn⟩)

theorem walked_of_setupOnly (h : Walked program.setupOnly shape level b) : Walked program shape level b := by
  induction h with
  | setup hb => exact .setup hb
  | main hb => cases hb
  | inside _ hk hslot hc ih => exact .inside ih hk hslot hc

/-- what a block reached from the setup chain needs itself is needed by the setup chain -/
theorem ownNeeds_of_setupOnly (h : Walked program.setupOnly shape level b) {need : Need} (hn : need ∈ b.ownNeeds) :
    need ∈ program.setup.flatMap Block.needs := by
  have hneeds : need ∈ b.needs := by
    rw [Block.needs_eq]
    exact List.mem_append_right _ hn
  rcases List.mem_append.1 (needs_of_walked h need hneeds) with hmem | hmem
  · exact hmem
  · cases hmem

end

/-! ## The setup section of a run -/

section

variable {program : Program} {board : Board} {indent : Nat} {sketch : String} {p : Pass}

/-- the state in which a run comes to the setup chain -/
def Program.opened (program : Program) (board : Board) (indent : Nat) : Pass :=
  (program.start board indent).noted (.passStarted board.name)

/-- in a run that gets through, the walk through the setup chain gives its statements one after the other -/
theorem chainCode_of_run (h : runProgram Table.builtin program { board, indent } = .ok sketch p) :
    ∃ q, chainCode Table.builtin program.setup (program.opened board indent) =
      .ok (String.join (chainStatements indent program.setup 0)) q := by
  obtain ⟨r, hact, -⟩ := runProgram_ok h
  rw [Program.actions, performAll_cons, perform_note] at hact
  change performAll _ (program.opened board indent) = _ at hact
  rw [performAll_append] at hact
  have hwalk := chainCode_performs program.setup indent 0 0 (program.opened board indent) ⟨rfl, rfl, rfl⟩
  cases hsetup : performAll (chainActions program.setup 1) (program.opened board indent) with
  | error e q => rw [hsetup] at hact; cases hact
  | ok u q =>
    rw [hsetup] at hwalk
    rw [← chainCodeText_eq_join]
    exact ⟨q, hwalk.1⟩

/-- what the setup chain needs for the setup section is the first piece under its key there -/
theorem mem_firstPerKey_setup (h : runProgram Table.builtin program { board, indent } = .ok sketch p) {need : Need}
    (hn : need ∈ program.setup.flatMap Block.needs) (hplace : need.place = .setup) :
    need ∈ firstPerKey (needsIn .setup (program.setup.flatMap Block.needs)) := by
  have hall {other : Need} (ho : other ∈ program.setup.flatMap Block.needs) : other ∈ program.needs indent :=
    List.mem_append_left _ ho
  refine (mem_firstPerKey_iff fun x hx y hy => ?_).2 ⟨hn, hplace⟩
  exact needs_agree h (hall hx) (hall hy)

/-- the setup section of a run: what the setup chain needs stands before its statements, and nothing else is under their
key -/
theorem fragments_setup (h : runProgram Table.builtin program { board, indent } = .ok sketch p)
    (hsetup : program.setup ≠ []) :
    ∃ first last : List Need, firstPerKey (needsIn .setup (program.setup.flatMap Block.needs)) ⊆ first ∧
      (∀ need ∈ first ++ last, need.key ≠ "user_setup") ∧
      p.registry.fragments .setup = first.map Need.piece ++
        ⟨"user_setup", Text.trimEnd (program.setupText indent), false⟩ :: last.map Need.piece := by
  have hkeys : ∀ need ∈ needsIn .setup (program.setup.flatMap Block.needs), need.key ≠ "user_setup" :=
    fun _ => Block.key_ne_user
  obtain ⟨first, last, hfirst, hsplit⟩ := byRank_setup hkeys (needsIn .setup (program.main.flatMap Block.needs))
  refine ⟨first, last, hfirst, key_ne_of_around (hsplit (Text.trimEnd (program.setupText indent))), ?_⟩
  rw [runProgram_registry h, Registry.fragments_ofNeeds, Program.needsIn_setup hsetup, hsplit, List.map_append,
    List.map_cons]
  rfl

/-- **Setup statements run after what gets their pins ready.** In the setup section of a sketch, the statements of a setup
chain that is not empty are one fragment, the only one under its key: what the walk through the chain gave, its statements
in a row, without the white space at the end. Whatever block was reached from the setup chain, at any level: the fragment
that gets its pin ready for its role, or the robot kit, stands before. -/
theorem setup_follows_starters (h : runProgram Table.builtin program { board, indent } = .ok sketch p)
    (hsetup : program.setup ≠ []) :
    ∃ before after text,
      p.registry.fragments .setup = before ++ ⟨"user_setup", text, false⟩ :: after ∧
      (∀ f ∈ before ++ after, f.key ≠ "user_setup") ∧
      Text.TrimsTo (String.join (chainStatements indent program.setup 0)) text ∧
      (∃ q, chainCode Table.builtin program.setup (program.opened board indent) =
        .ok (String.join (chainStatements indent program.setup 0)) q) ∧
      sketch = p.registry.assemble indent (program.mainText indent) ∧
      ∀ shape level b, Walked program.setupOnly shape level b →
        (∀ pin role, b.Claims pin role → ∃ f ∈ before, role.starter? pin = some f) ∧
        (b.UsesRobot → robotStarter ∈ before) := by
  obtain ⟨q, hact, hregistry, hsketch, -⟩ := runProgram_ok h
  obtain ⟨first, last, hfirst, hkeys, hfragments⟩ := fragments_setup h hsetup
  have hready {need : Need} (hn : need ∈ program.setup.flatMap Block.needs) (hplace : need.place = .setup) :
      need.piece ∈ first.map Need.piece :=
    List.mem_map_of_mem (hfirst (mem_firstPerKey_setup h hn hplace))
  refine ⟨first.map Need.piece, last.map Need.piece, Text.trimEnd (program.setupText indent), hfragments, ?_, ?_,
    chainCode_of_run h, ?_, ?_⟩
  · intro f hf
    rw [← List.map_append] at hf
    obtain ⟨need, hneed, rfl⟩ := List.mem_map.1 hf
    exact hkeys need hneed
  · rw [← chainCodeText_eq_join]
    exact Text.trimsTo_trimEnd _
  · rw [hsketch, hregistry]
  · intro shape level b hb
    have hsound : program.Sound board := sound_of_succeeds (succeeds_iff_performAll.2 ⟨q, hact⟩)
    constructor
    · intro pin role hclaims
      obtain ⟨k, hk, -⟩ := hsound.shapes shape level b (walked_of_setupOnly hb)
      have hfields := hsound.fields shape level b (walked_of_setupOnly hb) k hk
      obtain ⟨need, hneed, hplace, hstarter⟩ := Block.starter_of_claim hk hfields hclaims
      exact ⟨need.piece, hready (ownNeeds_of_setupOnly hb hneed) hplace, hstarter⟩
    · intro hrobot
      obtain ⟨need, hneed, hplace, hpiece⟩ := Block.starter_of_robot hrobot
      rw [hpiece]
      exact hready (ownNeeds_of_setupOnly hb hneed) hplace

end

/-- a program that drives a servo and asks the robot kit in a conditional of its setup chain; the main chain drives that
servo too and has pins of its own -/
def sampleReadying : Program where
  board := none
  setup := [⟨"c", "controls_if", [], [("IF0", ⟨"t", "touch_sensor", [("PORT", "1")], [], [], default⟩)],
    [("DO0", [⟨"s", "servo_write", [("SERVO_PIN", "9")], [], [], default⟩])], default⟩]
  main := [⟨"x", "io_digitalwrite", [("PIN", "13")], [], [], default⟩,
    ⟨"y", "servo_write", [("SERVO_PIN", "9")], [], [], default⟩,
    ⟨"z", "serial_print", [("SERIAL_ID", "Serial")], [], [], default⟩]
  sourceId := 0

/-- the servo and the kit are ready before the conditional runs -/
theorem setup_follows_starters_nested :
    ∃ sketch p, runProgram Table.builtin sampleReadying { board := Board.uno, indent := 2 } = .ok sketch p ∧
      sampleReadying.setup ≠ [] ∧ ∃ before after text,
        p.registry.fragments .setup = before ++ ⟨"user_setup", text, false⟩ :: after ∧
        ⟨"servo_9", "myServo9.attach(9);", true⟩ ∈ before ∧ ⟨"idled_Rob", "Rob.Itit();", true⟩ ∈ before := by
  have hrun : (result? (runProgram Table.builtin sampleReadying { board := Board.uno, indent := 2 })).isSome = true := by
    decide +kernel
  obtain ⟨sketch, hsketch⟩ := Option.isSome_iff_exists.1 hrun
  obtain ⟨p, hp⟩ := result?_eq_some hsketch
  have hsetup : sampleReadying.setup ≠ [] := List.cons_ne_nil _ _
  obtain ⟨before, after, text, hfragments, -, -, -, -, hready⟩ := setup_follows_starters hp hsetup
  have hbranch (slot : Slot) (h : slot = ⟨.value, "IF0"⟩ ∨ slot = ⟨.statement, "DO0"⟩) :
      Kind.controlsIf.LooksInto (sampleReadying.setup.head hsetup) slot := .inl ⟨0, fun m _ _ => by omega, h⟩
  have hcondition : Walked sampleReadying.setupOnly .statement 1 (sampleReadying.setup.head hsetup) :=
    .setup (List.head_mem hsetup)
  have hservo := hready _ _ _ (.inside hcondition rfl (hbranch _ (.inr rfl)) List.mem_cons_self)
  have htouch := hready _ _ _ (.inside hcondition rfl (hbranch _ (.inl rfl)) List.mem_cons_self)
  obtain ⟨f, hf, hstarter⟩ := hservo.1 "9" .servo ⟨.servoWrite, _, _, "9", rfl, rfl, rfl, rfl, by decide⟩
  cases hstarter
  exact ⟨sketch, p, hp, hsetup, before, after, text, hfragments, hf, htouch.2 ⟨.touchSensor, rfl, rfl⟩⟩

end BlockSketch
