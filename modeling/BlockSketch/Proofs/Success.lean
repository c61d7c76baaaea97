/-
When a program becomes a sketch.

A walk meets the blocks of a program in some order and stops at the first fault. Whether it gets through does not depend
on that order: `Program.Sound` says what has to be right about the blocks that are walked, each for itself, and that no
two of them claim a pin for different roles.

A block is walked (`Walked`) if it stands on one of the two chains of the program, or hangs in a slot that the generator
of a walked block looks into (`Kind.LooksInto`). A conditional looks into its branches from 0 on up to the first one of
which both slots are empty.

Results:
- `lt_branchCount_iff`: the branches that a conditional has are those before the first gap;
- `success_iff_sound`: a program becomes a sketch exactly if it is sound, in whatever order its statements stand.
-/
import BlockSketch.Board.Builtin
import BlockSketch.Proofs.Walk
import Mathlib.Data.List.Forall2
import Mathlib.Data.List.Nodup
import Mathlib.Data.List.Perm.Subperm

namespace BlockSketch

open BlockSketch.Action

/-! ## Walked blocks -/

/-- a slot of a block: of values, or of statements -/
structure Slot where
  shape : Shape
  name : String
  deriving DecidableEq, Repr

def Block.inside (b : Block) (slot : Slot) : List Block :=
  match slot.shape with
  | .value => (b.input? slot.name).toList
  | .statement => b.statement slot.name

/-- the first n branches of a conditional after branch 0 are there -/
def Block.BranchesUpTo (b : Block) (n : Nat) : Prop := ∀ m, 1 ≤ m → m ≤ n → Library.hasBranch b m = true

/-- the slots that the generator of a kind looks into -/
def Kind.LooksInto (k : Kind) (b : Block) (slot : Slot) : Prop :=
  match k with
  | .servoWrite => slot = ⟨.value, "SERVO_ANGLE"⟩
  | .mathArithmetic | .logicCompare | .logicOperation => slot = ⟨.value, "A"⟩ ∨ slot = ⟨.value, "B"⟩
  | .logicNegate => slot = ⟨.value, "BOOL"⟩
  | .digitalWrite => slot = ⟨.value, "STATE"⟩
  | .analogWrite => slot = ⟨.value, "NUM"⟩
  | .timeDelay => slot = ⟨.value, "DELAY_TIME_MILI"⟩
  | .serialPrint => slot = ⟨.value, "CONTENT"⟩
  | .controlsRepeat => slot = ⟨.value, "TIMES"⟩ ∨ slot = ⟨.statement, "DO"⟩
  | .controlsIf =>
    (∃ n, b.BranchesUpTo n ∧ (slot = ⟨.value, "IF" ++ toString n⟩ ∨ slot = ⟨.statement, "DO" ++ toString n⟩)) ∨
      slot = ⟨.statement, "ELSE"⟩
  | .servoRead | .ledColor | .sonar | .touchSensor | .mathNumber | .logicBoolean | .digitalRead | .analogRead | .highLow
  | .timeMillis | .text => False

/-- the blocks that a run comes to, each with the shape it is to have and how deep it lies; the links of a chain do not
count -/
inductive Walked (program : Program) : Shape → Nat → Block → Prop where
  | setup {b : Block} (h : b ∈ program.setup) : Walked program .statement 1 b
  | main {b : Block} (h : b ∈ program.main) : Walked program .statement 1 b
  | inside {b c : Block} {k : Kind} {shape : Shape} {level : Nat} {slot : Slot} (hb : Walked program shape level b)
    (hk : k.name = b.kind) (hslot : k.LooksInto b slot) (hc : c ∈ b.inside slot) :
    Walked program slot.shape (level + 1) c

/-- the block has the field that its kind cannot do without: there is something in it besides blanks, and that is
valid -/
def Block.FieldsRight (b : Block) (k : Kind) : Prop :=
  ∀ rule, k.fieldRule? = some rule →
    ∃ raw, b.field? rule.name = some raw ∧ Text.trim raw ≠ "" ∧ rule.accepts (Text.trim raw) = true

/-- the block claims the pin, which is its field without blanks around it, for the role -/
def Block.Claims (b : Block) (pin : String) (role : Role) : Prop :=
  ∃ (k : Kind) (purpose : String) (rule : FieldRule) (raw : String), k.name = b.kind ∧ k.role? = some (role, purpose) ∧
    k.fieldRule? = some rule ∧ b.field? rule.name = some raw ∧ Text.trim raw = pin

/-- what has to be right about the walked blocks of a program -/
structure Program.Sound (program : Program) (board : Board) : Prop where
  /-- every block has a built-in type of the shape its position needs -/
  shapes : ∀ shape level b, Walked program shape level b → ∃ k : Kind, k.name = b.kind ∧ k.shape = shape
  /-- every block has the fields it needs, and they are valid -/
  fields : ∀ shape level b, Walked program shape level b → ∀ k : Kind, k.name = b.kind → b.FieldsRight k
  /-- no block lies too deep -/
  depth : ∀ shape level b, Walked program shape level b → level ≤ 256
  /-- every pin can play the role it is claimed for -/
  pins : ∀ shape level b, Walked program shape level b → ∀ pin role, b.Claims pin role → pin ∈ board.eligible role
  /-- no pin is claimed for two roles -/
  roles : ∀ shape level b shape' level' b', Walked program shape level b → Walked program shape' level' b' →
    ∀ pin role role', b.Claims pin role → b'.Claims pin role' → role = role'

/-! ## Branches -/

theorem le_takeWhile_range'_iff {p : Nat → Bool} {s n size : Nat} :
    n ≤ ((List.range' s size).takeWhile p).length ↔ n ≤ size ∧ ∀ m, s ≤ m → m < s + n → p m = true := by
  induction size generalizing s n with
  | zero =>
    simp only [List.range'_zero, List.takeWhile_nil, List.length_nil, Nat.le_zero]
    exact ⟨fun h => ⟨h, fun m _ _ => by omega⟩, fun h => h.1⟩
  | succ size ih =>
    rw [List.range'_succ, List.takeWhile_cons]
    cases n with
    | zero => exact ⟨fun _ => ⟨Nat.zero_le _, fun m _ _ => by omega⟩, fun _ => Nat.zero_le _⟩
    | succ n =>
      cases hs : p s with
      | false =>
        simp only [Bool.false_eq_true, if_false, List.length_nil]
        refine ⟨fun h => by omega, fun h => ?_⟩
        have hp := h.2 s (Nat.le_refl s) (by omega)
        rw [hs] at hp
        cases hp
      | true =>
        simp only [if_true, List.length_cons, Nat.add_le_add_iff_right, ih]
        refine and_congr_right fun _ => ⟨fun h m hm hlt => ?_, fun h m hm hlt => h m (by omega) (by omega)⟩
        rcases Nat.eq_or_lt_of_le hm with rfl | hm
        · exact hs
        · exact h m hm (by omega)

theorem mem_keys_of_lookup {β : Type} {entries : List (String × β)} {name : String}
    (h : (entries.lookup name).isSome = true) : name ∈ entries.map (·.1) := by
  obtain ⟨x, hx⟩ := Option.isSome_iff_exists.1 h
  exact List.mem_map.2 ⟨_, Block.mem_of_lookup hx, rfl⟩

/-- the slot that shows that a branch is there -/
def Block.branchKey (b : Block) (n : Nat) : String :=
  if (b.input? ("IF" ++ toString n)).isSome then "IF" ++ toString n else "DO" ++ toString n

theorem branchKey_mem {b : Block} {n : Nat} (h : Library.hasBranch b n = true) :
    b.branchKey n ∈ b.inputs.map (·.1) ++ b.statements.map (·.1) := by
  unfold Block.branchKey
  rw [List.mem_append]
  split
  · rename_i hi
    exact .inl (mem_keys_of_lookup hi)
  · rename_i hi
    simp only [Library.hasBranch, Bool.or_eq_true] at h
    exact .inr (mem_keys_of_lookup (h.resolve_left hi))

theorem numbered_injective {s : String} {x y : Nat} (h : s ++ toString x = s ++ toString y) : x = y := by
  have hchars := congrArg String.toList h
  rw [String.toList_append, String.toList_append, List.append_cancel_left_eq] at hchars
  have hrepr : Nat.toDigits 10 x = Nat.toDigits 10 y := by
    rw [← Nat.toList_repr, ← Nat.toList_repr]
    exact hchars
  calc x = Nat.ofDigitChars 10 (Nat.toDigits 10 x) 0 := Nat.ofDigitChars_ten_toDigits.symm
    _ = Nat.ofDigitChars 10 (Nat.toDigits 10 y) 0 := by rw [hrepr]
    _ = y := Nat.ofDigitChars_ten_toDigits

theorem branchKey_injective (b : Block) {n m : Nat} (h : b.branchKey n = b.branchKey m) : n = m := by
  have hne (x y : Nat) : "IF" ++ toString x ≠ "DO" ++ toString y := by
    intro hs
    have hchars := congrArg String.toList hs
    simp [String.toList_append] at hchars
  unfold Block.branchKey at h
  split at h <;> split at h
  · exact numbered_injective h
  · exact absurd h (hne n m)
  · exact absurd h.symm (hne m n)
  · exact numbered_injective h

/-- the branches of a conditional are those before the first gap: each takes up a slot of its own, so there is no more to
look for after as many as there are slots -/
theorem lt_branchCount_iff {b : Block} {n : Nat} : n < Library.branchCount b ↔ b.BranchesUpTo n := by
  have hcount : n < Library.branchCount b ↔
      n ≤ b.inputs.length + b.statements.length ∧ ∀ m, 1 ≤ m → m < 1 + n → Library.hasBranch b m = true := by
    rw [← le_takeWhile_range'_iff, Library.branchCount]
    omega
  rw [hcount]
  constructor
  · rintro ⟨-, h⟩ m h1 hm
    exact h m h1 (by omega)
  · intro h
    refine ⟨?_, fun m h1 hm => h m h1 (by omega)⟩
    have hnodup : ((List.range' 1 n).map b.branchKey).Nodup :=
      List.Nodup.map (fun x y => branchKey_injective b) List.nodup_range'
    have hsubset : (List.range' 1 n).map b.branchKey ⊆ b.inputs.map (·.1) ++ b.statements.map (·.1) := by
      intro key hkey
      obtain ⟨m, hm, rfl⟩ := List.mem_map.1 hkey
      rw [List.mem_range'_1] at hm
      exact branchKey_mem (h m hm.1 (by omega))
    have hlength := (hnodup.subperm hsubset).length_le
    simpa using hlength

/-! ## Slots and requests -/

def Request.slot? : Request → Option Slot
  | .value slot _ _ => some ⟨.value, slot⟩
  | .chain slot => some ⟨.statement, slot⟩
  | .counter => none

theorem mem_request_actions {request : Request} {b : Block} {level : Nat} {action : Action} :
    action ∈ request.actions b level ↔
      (∃ slot c, request.slot? = some slot ∧ c ∈ b.inside slot ∧ action ∈ c.actions slot.shape (level + 1)) ∨
        request = .counter ∧ action = count := by
  cases request with
  | value slot required default =>
    simp only [Request.actions, Request.slot?, Option.some.injEq, Block.inside]
    cases hc : b.input? slot with
    | none => simp [hc]
    | some c => simp [hc]
  | chain slot => simp [Request.actions, Request.slot?, Block.inside, chainActions]
  | counter => simp [Request.actions, Request.slot?]

/-- nothing is against the walk through a block: then nothing is against the walk through the blocks in its slots -/
theorem Block.admissible_inside {b c : Block} {shape : Shape} {level : Nat} {board : Board}
    (h : ∀ action ∈ b.actions shape level, action.Admissible board) {request : Request} (hrequest : request ∈ b.requests)
    (slot : Slot) (hslot : request.slot? = some slot) (hc : c ∈ b.inside slot) :
    ∀ action ∈ c.actions slot.shape (level + 1), action.Admissible board := by
  intro action ha
  exact h action ((Block.mem_actions (Block.refusal?_of_admissible h)).2
    (.inr (.inl ⟨request, hrequest, mem_request_actions.2 (.inl ⟨slot, c, hslot, hc, ha⟩)⟩)))

theorem looksInto_of_request {k : Kind} {b : Block} {word : String} {request : Request} {slot : Slot}
    (h : request ∈ k.requests b word) (hs : request.slot? = some slot) : k.LooksInto b slot := by
  cases k with
  | controlsIf =>
    simp only [Kind.requests, Kind.branchRequests, List.mem_append, List.mem_flatMap, List.mem_range,
      lt_branchCount_iff] at h
    rcases h with ⟨n, hn, h⟩ | h
    · simp only [List.mem_cons, List.not_mem_nil, or_false] at h
      rcases h with rfl | rfl
      · cases hs; exact .inl ⟨n, hn, .inl rfl⟩
      · cases hs; exact .inl ⟨n, hn, .inr rfl⟩
    · split at h
      · simp only [List.mem_cons, List.not_mem_nil, or_false] at h
        subst h
        cases hs
        exact .inr rfl
      · cases h
  | _ =>
    simp only [Kind.requests, List.mem_cons, List.not_mem_nil, or_false] at h <;>
      grind [Kind.LooksInto, Request.slot?]

theorem hasStatement_of_mem {b c : Block} {slot : String} (h : c ∈ b.statement slot) : b.hasStatement slot = true := by
  simp only [Block.statement] at h
  simp only [Block.hasStatement]
  cases hl : b.statements.lookup slot with
  | none => rw [hl] at h; cases h
  | some chain => rfl

theorem request_of_looksInto {k : Kind} {b c : Block} {slot : Slot} (word : String) (h : k.LooksInto b slot)
    (hc : c ∈ b.inside slot) : ∃ request ∈ k.requests b word, request.slot? = some slot := by
  cases k with
  | controlsIf =>
    simp only [Kind.requests, Kind.branchRequests, List.mem_append, List.mem_flatMap, List.mem_range, lt_branchCount_iff]
    rcases h with ⟨n, hn, rfl | rfl⟩ | rfl
    · exact ⟨_, .inl ⟨n, hn, List.mem_cons_self⟩, rfl⟩
    · exact ⟨_, .inl ⟨n, hn, List.mem_cons_of_mem _ List.mem_cons_self⟩, rfl⟩
    · refine ⟨.chain "ELSE", .inr ?_, rfl⟩
      rw [if_pos (hasStatement_of_mem hc)]
      exact List.mem_cons_self
  | _ =>
    simp only [Kind.LooksInto] at h <;>
      simp only [Kind.requests, List.mem_cons, List.not_mem_nil, or_false] <;> grind [Request.slot?]

/-! ## One block -/

theorem kind?_eq_some_iff {b : Block} {k : Kind} : b.kind? = some k ↔ k.name = b.kind := by
  constructor
  · exact Kind.name_of_ofName?
  · intro h
    rw [Block.kind?, ← h, Kind.ofName?_name]

theorem fault?_eq_none_iff {b : Block} {k : Kind} : k.fault? b = none ↔ b.FieldsRight k := by
  unfold Kind.fault? Block.FieldsRight
  cases k.fieldRule? with
  | none => simp
  | some rule =>
    simp only [Option.some.injEq, forall_eq', Library.field?]
    cases b.field? rule.name with
    | none => simp
    | some raw =>
      by_cases he : Text.trim raw = ""
      · simp [he]
      · cases ha : rule.accepts (Text.trim raw) <;> simp [he, ha]

theorem fieldRule?_of_role? {k : Kind} {role : Role} {purpose : String} (h : k.role? = some (role, purpose)) :
    ∃ rule, k.fieldRule? = some rule := by
  cases k <;> first | exact ⟨_, rfl⟩ | cases h

theorem word_of_field {b : Block} {k : Kind} {rule : FieldRule} {raw : String} (hr : k.fieldRule? = some rule)
    (hf : b.field? rule.name = some raw) (hne : Text.trim raw ≠ "") : k.word b = Text.trim raw := by
  simp [Kind.word, hr, Library.field?, hf, hne]

/-- a block whose fields are right claims what it is listed to claim -/
theorem claims_iff {b : Block} {k : Kind} (hk : k.name = b.kind) (hf : b.FieldsRight k) {pin : String} {role : Role} :
    b.Claims pin role ↔ ∃ use, b.pinUse? = some use ∧ use.pin = pin ∧ use.role = role := by
  have huse : b.pinUse? = k.pinUse? (k.word b) := by simp [Block.pinUse?, kind?_eq_some_iff.2 hk]
  rw [huse, Kind.pinUse?]
  constructor
  · rintro ⟨k', purpose, rule, raw, hk', hrole, hr, hraw, rfl⟩
    have hsame : k' = k := by
      have h' := kind?_eq_some_iff.2 hk'
      rw [kind?_eq_some_iff.2 hk] at h'
      exact (Option.some.inj h').symm
    subst hsame
    obtain ⟨raw', hraw', hne, -⟩ := hf rule hr
    rw [hraw] at hraw'
    cases hraw'
    exact ⟨_, by rw [hrole]; rfl, word_of_field hr hraw hne, rfl⟩
  · rintro ⟨use, hu, rfl, rfl⟩
    obtain ⟨⟨role, purpose⟩, hrole, rfl⟩ := Option.map_eq_some_iff.1 hu
    obtain ⟨rule, hr⟩ := fieldRule?_of_role? hrole
    obtain ⟨raw, hraw, hne, -⟩ := hf rule hr
    exact ⟨k, purpose, rule, raw, hk, hrole, hr, hraw, (word_of_field hr hraw hne).symm⟩

/-! ## All blocks -/

variable {program : Program} {board : Board} {indent level : Nat} {shape : Shape} {b : Block}

theorem mem_program_actions {action : Action} :
    action ∈ program.actions board indent ↔
      action = note (.passStarted board.name) ∨ (∃ b ∈ program.setup, action ∈ b.actions .statement 1) ∨
        (∃ need ∈ program.setupNeeds indent, action = contribute need) ∨
        ∃ b ∈ program.main, action ∈ b.actions .statement 1 := by
  simp only [Program.actions, chainActions, List.mem_cons, List.mem_append, List.mem_flatMap, List.mem_map, eq_comm]

/-- nothing is against a walk: then everything listed for a walked block is done -/
theorem actions_of_walked (hadm : ∀ action ∈ program.actions board indent, action.Admissible board)
    (h : Walked program shape level b) : ∀ action ∈ b.actions shape level, action ∈ program.actions board indent := by
  induction h with
  | setup hb => exact fun action ha => mem_program_actions.2 (.inr (.inl ⟨_, hb, ha⟩))
  | main hb => exact fun action ha => mem_program_actions.2 (.inr (.inr (.inr ⟨_, hb, ha⟩)))
  | @inside b c k shape level slot hb hk hslot hc ih =>
    intro action ha
    have hrefusal := Block.refusal?_of_admissible fun action ha => hadm action (ih action ha)
    obtain ⟨request, hrequest, hs⟩ := request_of_looksInto (k.word b) hslot hc
    rw [← Block.requests_of_kind (kind?_eq_some_iff.2 hk)] at hrequest
    exact ih action ((Block.mem_actions hrefusal).2
      (.inr (.inl ⟨request, hrequest, mem_request_actions.2 (.inl ⟨slot, c, hs, hc, ha⟩)⟩)))

/-- what is listed for a walked block of a sound program is admissible, and every claim in it is made by a walked
block -/
theorem admissible_of_walked (hsound : program.Sound board) (h : Walked program shape level b) :
    ∀ action ∈ b.actions shape level, action.Admissible board ∧
      ∀ use, action.use? = some use → ∃ shape level b, Walked program shape level b ∧ b.Claims use.pin use.role := by
  induction b using Block.induct generalizing shape level with
  | step b hv hs =>
    obtain ⟨k, hk, hshape⟩ := hsound.shapes shape level b h
    have hfields := hsound.fields shape level b h k hk
    have hrefusal : b.refusal? shape level = none :=
      Block.refusal?_eq_none_iff.2 ⟨hsound.depth shape level b h, k, kind?_eq_some_iff.2 hk, hshape,
        fault?_eq_none_iff.2 hfields⟩
    intro action ha
    rcases (Block.mem_actions hrefusal).1 ha with hopen | ⟨request, hrequest, ha⟩ | hown
    · -- the note taken on the way in
      cases shape with
      | value => cases hopen
      | statement =>
        cases List.mem_singleton.1 hopen
        exact ⟨trivial, fun use hu => by cases hu⟩
    · -- something in a slot
      rcases mem_request_actions.1 ha with ⟨slot, c, hslot, hc, ha⟩ | ⟨-, rfl⟩
      · rw [Block.requests_of_kind (kind?_eq_some_iff.2 hk)] at hrequest
        have hwalked := Walked.inside h hk (looksInto_of_request hrequest hslot) hc
        obtain ⟨slotShape, name⟩ := slot
        cases slotShape with
        | value => exact hv name c (Option.mem_toList.1 hc) hwalked action ha
        | statement => exact hs name c hc hwalked action ha
      · exact ⟨trivial, fun use hu => by cases hu⟩
    · -- the block's own claim and contributions
      rcases List.mem_append.1 hown with hclaim | hneed
      · obtain ⟨use, hu, rfl⟩ := List.mem_map.1 hclaim
        have hclaims : b.Claims use.pin use.role :=
          (claims_iff hk hfields).2 ⟨use, Option.mem_toList.1 hu, rfl, rfl⟩
        refine ⟨List.contains_iff_mem.2 (hsound.pins shape level b h _ _ hclaims), fun other ho => ?_⟩
        cases ho
        exact ⟨shape, level, b, h, hclaims⟩
      · obtain ⟨need, -, rfl⟩ := List.mem_map.1 hneed
        exact ⟨trivial, fun use hu => by cases hu⟩

def Program.Succeeds (program : Program) (board : Board) (indent : Nat) : Prop :=
  ∃ sketch, (program.generate board Table.builtin indent).1 = .ok sketch

theorem succeeds_iff_performAll :
    program.Succeeds board indent ↔
      ∃ q, performAll (program.actions board indent) (program.start board indent) = .ok () q := by
  unfold Program.Succeeds Program.generate
  rw [runProgram_eq]
  cases performAll (program.actions board indent) (program.start board indent) with
  | ok u q => exact ⟨fun _ => ⟨q, rfl⟩, fun _ => ⟨_, rfl⟩⟩
  | error e q => simp

theorem generate_eq_error_iff {e : Failure} :
    (program.generate board Table.builtin indent).1 = .error e ↔
      ∃ q, performAll (program.actions board indent) (program.start board indent) = .error e q := by
  unfold Program.generate
  rw [runProgram_eq]
  cases performAll (program.actions board indent) (program.start board indent) with
  | ok u q =>
    refine ⟨fun h => ?_, fun ⟨_, h⟩ => ?_⟩
    · cases h
    · cases h
  | error e' q => simp

theorem claim_mem_of_walked (hadm : ∀ action ∈ program.actions board indent, action.Admissible board)
    (h : Walked program shape level b) {pin : String} {role : Role} (hclaims : b.Claims pin role) :
    ∃ use, claim b use ∈ program.actions board indent ∧ use.pin = pin ∧ use.role = role := by
  have hactions := actions_of_walked hadm h
  have hrefusal := Block.refusal?_of_admissible fun action ha => hadm action (hactions action ha)
  obtain ⟨-, k, hk, -, hfault⟩ := Block.refusal?_eq_none_iff.1 hrefusal
  obtain ⟨use, hu, hpin, hrole⟩ := (claims_iff (kind?_eq_some_iff.1 hk) (fault?_eq_none_iff.1 hfault)).1 hclaims
  refine ⟨use, hactions _ ((Block.mem_actions hrefusal).2 (.inr (.inr ?_))), hpin, hrole⟩
  rw [Block.ownActions, hu]
  exact List.mem_append_left _ List.mem_cons_self

theorem sound_of_succeeds (h : program.Succeeds board indent) : program.Sound board := by
  obtain ⟨hadm, hcompatible⟩ := performAll_ok_iff.1 (succeeds_iff_performAll.1 h)
  have hadm : ∀ action ∈ program.actions board indent, action.Admissible board := hadm
  have hblock (shape : Shape) (level : Nat) (b : Block) (hw : Walked program shape level b) :
      level ≤ Pass.maxDepth ∧ ∃ k, b.kind? = some k ∧ k.shape = shape ∧ k.fault? b = none :=
    Block.refusal?_eq_none_iff.1
      (Block.refusal?_of_admissible fun action ha => hadm action (actions_of_walked hadm hw action ha))
  refine ⟨?_, ?_, ?_, ?_, ?_⟩
  · intro shape level b hw
    obtain ⟨-, k, hk, hshape, -⟩ := hblock shape level b hw
    exact ⟨k, kind?_eq_some_iff.1 hk, hshape⟩
  · intro shape level b hw k hk
    obtain ⟨-, k', hk', -, hfault⟩ := hblock shape level b hw
    rw [kind?_eq_some_iff.2 hk] at hk'
    cases hk'
    exact fault?_eq_none_iff.1 hfault
  · intro shape level b hw
    exact (hblock shape level b hw).1
  · intro shape level b hw pin role hclaims
    obtain ⟨use, hmem, rfl, rfl⟩ := claim_mem_of_walked hadm hw hclaims
    exact List.contains_iff_mem.1 (hadm _ hmem)
  · intro shape level b shape' level' b' hw hw' pin role role' hclaims hclaims'
    obtain ⟨use, hmem, rfl, rfl⟩ := claim_mem_of_walked hadm hw hclaims
    obtain ⟨use', hmem', hpin, rfl⟩ := claim_mem_of_walked hadm hw' hclaims'
    exact hcompatible.together use (List.mem_filterMap.2 ⟨_, hmem, rfl⟩) use'
      (List.mem_filterMap.2 ⟨_, hmem', rfl⟩) hpin.symm

theorem succeeds_of_sound (indent : Nat) (h : program.Sound board) : program.Succeeds board indent := by
  have hactions : ∀ action ∈ program.actions board indent, action.Admissible board ∧
      ∀ use, action.use? = some use → ∃ shape level b, Walked program shape level b ∧ b.Claims use.pin use.role := by
    intro action ha
    rcases mem_program_actions.1 ha with rfl | ⟨b, hb, ha⟩ | ⟨need, -, rfl⟩ | ⟨b, hb, ha⟩
    · exact ⟨trivial, fun use hu => by cases hu⟩
    · exact admissible_of_walked h (.setup hb) action ha
    · exact ⟨trivial, fun use hu => by cases hu⟩
    · exact admissible_of_walked h (.main hb) action ha
  refine succeeds_iff_performAll.2 (performAll_ok_iff.2 ⟨fun action ha => (hactions action ha).1, ?_, ?_⟩)
  · intro use _ role hrole
    cases hrole
  · intro use hu other ho hpin
    obtain ⟨action, ha, hu⟩ := List.mem_filterMap.1 hu
    obtain ⟨action', ha', ho⟩ := List.mem_filterMap.1 ho
    obtain ⟨shape, level, b, hw, hclaims⟩ := (hactions action ha).2 use hu
    obtain ⟨shape', level', b', hw', hclaims'⟩ := (hactions action' ha').2 other ho
    rw [← hpin] at hclaims'
    exact h.roles shape level b shape' level' b' hw hw' _ _ _ hclaims hclaims'

/-! ## The order of statements -/

namespace Block

/-- the same block but for the order of the statements in its slots, and in the slots of the blocks in them, and so on;
names and places in the source do not count -/
def Rearranges : Block → Block → Prop :=
  fold fun b values chains b' =>
    b'.kind = b.kind ∧ b'.fields = b.fields ∧
      (∀ slot, Option.Rel (fun same c => same c) (values slot) (b'.input? slot)) ∧
      ∀ slot, b'.hasStatement slot = b.hasStatement slot ∧
        ∃ order : List Block, order.Perm (b'.statement slot) ∧ List.Forall₂ (fun same c => same c) (chains slot) order

end Block

/-- chains of the same statements in another order -/
def Rearranged (chain chain' : List Block) : Prop :=
  ∃ order : List Block, order.Perm chain' ∧ List.Forall₂ Block.Rearranges chain order

theorem Block.rearranges_iff {b b' : Block} :
    b.Rearranges b' ↔ b'.kind = b.kind ∧ b'.fields = b.fields ∧
      (∀ slot, Option.Rel Rearranges (b.input? slot) (b'.input? slot)) ∧
      ∀ slot, b'.hasStatement slot = b.hasStatement slot ∧ Rearranged (b.statement slot) (b'.statement slot) := by
  have hinput (slot : String) :
      Option.Rel (fun (same : Block → Prop) c => same c) ((b.input? slot).map Rearranges) (b'.input? slot) ↔
        Option.Rel Rearranges (b.input? slot) (b'.input? slot) := by
    cases b.input? slot with
    | none => cases b'.input? slot <;> simp
    | some c => cases b'.input? slot <;> simp
  rw [Rearranges, fold_eq]
  simp only [List.forall₂_map_left_iff]
  exact and_congr_right fun _ => and_congr_right fun _ => and_congr_left fun _ => forall_congr' hinput

theorem exists_of_forall₂ {R : Block → Block → Prop} {xs ys : List Block} (h : List.Forall₂ R xs ys) :
    (∀ x ∈ xs, ∃ y ∈ ys, R x y) ∧ ∀ y ∈ ys, ∃ x ∈ xs, R x y := by
  induction h with
  | nil => exact ⟨by simp, by simp⟩
  | cons hxy _ ih =>
    constructor
    · intro x hx
      rcases List.mem_cons.1 hx with rfl | hx
      · exact ⟨_, List.mem_cons_self, hxy⟩
      · obtain ⟨y, hy, hr⟩ := ih.1 x hx
        exact ⟨y, List.mem_cons_of_mem _ hy, hr⟩
    · intro y hy
      rcases List.mem_cons.1 hy with rfl | hy
      · exact ⟨_, List.mem_cons_self, hxy⟩
      · obtain ⟨x, hx, hr⟩ := ih.2 y hy
        exact ⟨x, List.mem_cons_of_mem _ hx, hr⟩

theorem Rearranged.counterparts {chain chain' : List Block} (h : Rearranged chain chain') :
    (∀ c ∈ chain, ∃ c' ∈ chain', c.Rearranges c') ∧ ∀ c' ∈ chain', ∃ c ∈ chain, c.Rearranges c' := by
  obtain ⟨order, hperm, hsame⟩ := h
  obtain ⟨hleft, hright⟩ := exists_of_forall₂ hsame
  constructor
  · intro c hc
    obtain ⟨c', hc', hr⟩ := hleft c hc
    exact ⟨c', hperm.mem_iff.1 hc', hr⟩
  · intro c' hc'
    exact hright c' (hperm.mem_iff.2 hc')

theorem Block.Rearranges.inside {b b' : Block} (h : b.Rearranges b') (slot : Slot) :
    (∀ c ∈ b.inside slot, ∃ c' ∈ b'.inside slot, c.Rearranges c') ∧
      ∀ c' ∈ b'.inside slot, ∃ c ∈ b.inside slot, c.Rearranges c' := by
  obtain ⟨-, -, hinput, hchain⟩ := Block.rearranges_iff.1 h
  obtain ⟨shape, name⟩ := slot
  cases shape with
  | value =>
    have hname := hinput name
    simp only [Block.inside]
    cases hb : b.input? name with
    | none =>
      cases hb' : b'.input? name with
      | none => exact ⟨by simp, by simp⟩
      | some c' => rw [hb, hb'] at hname; cases hname
    | some c =>
      cases hb' : b'.input? name with
      | none => rw [hb, hb'] at hname; cases hname
      | some c' =>
        rw [hb, hb'] at hname
        cases hname with
        | some hr => exact ⟨by simpa using hr, by simpa using hr⟩
  | statement => exact (hchain name).2.counterparts

theorem Block.Rearranges.hasBranch_eq {b b' : Block} (h : b.Rearranges b') (n : Nat) :
    Library.hasBranch b' n = Library.hasBranch b n := by
  obtain ⟨-, -, hinput, hchain⟩ := Block.rearranges_iff.1 h
  have hsome : (b'.input? ("IF" ++ toString n)).isSome = (b.input? ("IF" ++ toString n)).isSome := by
    have hrel := hinput ("IF" ++ toString n)
    generalize b.input? ("IF" ++ toString n) = x, b'.input? ("IF" ++ toString n) = y at hrel
    cases hrel <;> rfl
  rw [Library.hasBranch, Library.hasBranch, hsome, (hchain _).1]

theorem Block.Rearranges.looksInto_iff {b b' : Block} (h : b.Rearranges b') (k : Kind) (slot : Slot) :
    k.LooksInto b' slot ↔ k.LooksInto b slot := by
  have hbranches (n : Nat) : b'.BranchesUpTo n ↔ b.BranchesUpTo n := by
    simp only [Block.BranchesUpTo, h.hasBranch_eq]
  cases k with
  | controlsIf => simp only [Kind.LooksInto, hbranches]
  | _ => exact Iff.rfl

/-- programs of the same statements in another order, whichever of the two chains they stand on -/
def Program.Rearranges (program program' : Program) : Prop :=
  Rearranged (program.setup ++ program.main) (program'.setup ++ program'.main)

theorem walked_top {c : Block} (h : c ∈ program.setup ++ program.main) : Walked program .statement 1 c := by
  rcases List.mem_append.1 h with h | h
  · exact .setup h
  · exact .main h

/-- a relation between blocks that keeps types and goes into slots relates all walked blocks if it relates those on the
chains -/
theorem walked_related {R : Block → Block → Prop} {program' : Program}
    (htop : ∀ c ∈ program.setup ++ program.main, ∃ c' ∈ program'.setup ++ program'.main, R c c')
    (hslots : ∀ b b', R b b' → b'.kind = b.kind ∧ ∀ (k : Kind) (slot : Slot), k.LooksInto b slot →
      k.LooksInto b' slot ∧ ∀ c ∈ b.inside slot, ∃ c' ∈ b'.inside slot, R c c')
    (hw : Walked program shape level b) : ∃ b', Walked program' shape level b' ∧ R b b' := by
  induction hw with
  | setup hb =>
    obtain ⟨b', hb', hr⟩ := htop _ (List.mem_append_left _ hb)
    exact ⟨b', walked_top hb', hr⟩
  | main hb =>
    obtain ⟨b', hb', hr⟩ := htop _ (List.mem_append_right _ hb)
    exact ⟨b', walked_top hb', hr⟩
  | @inside b c k shape level slot hb hk hslot hc ih =>
    obtain ⟨b', hb', hr⟩ := ih
    obtain ⟨hkind, hinto⟩ := hslots b b' hr
    obtain ⟨hslot', hinside⟩ := hinto k slot hslot
    obtain ⟨c', hc', hrc⟩ := hinside c hc
    exact ⟨c', .inside hb' (hk.trans hkind.symm) hslot' hc', hrc⟩

/-- soundness is a matter of the types and fields of the walked blocks -/
theorem sound_of_counterparts {program' : Program} (h : program.Sound board)
    (hsame : ∀ shape level b', Walked program' shape level b' →
      ∃ b, Walked program shape level b ∧ b'.kind = b.kind ∧ b'.fields = b.fields) : program'.Sound board := by
  have hfield {b b' : Block} (hf : b'.fields = b.fields) (name : String) : b'.field? name = b.field? name := by
    rw [Block.field?, Block.field?, hf]
  have hclaims {b b' : Block} (hk : b'.kind = b.kind) (hf : b'.fields = b.fields) {pin : String} {role : Role}
      (hc : b'.Claims pin role) : b.Claims pin role := by
    obtain ⟨k, purpose, rule, raw, hname, hrole, hr, hraw, hpin⟩ := hc
    exact ⟨k, purpose, rule, raw, hname.trans hk, hrole, hr, (hfield hf _).symm.trans hraw, hpin⟩
  refine ⟨?_, ?_, ?_, ?_, ?_⟩
  · intro shape level b' hw
    obtain ⟨b, hb, hk, -⟩ := hsame shape level b' hw
    rw [hk]
    exact h.shapes shape level b hb
  · intro shape level b' hw k hname rule hr
    obtain ⟨b, hb, hk, hf⟩ := hsame shape level b' hw
    rw [hfield hf]
    exact h.fields shape level b hb k (hname.trans hk) rule hr
  · intro shape level b' hw
    obtain ⟨b, hb, -⟩ := hsame shape level b' hw
    exact h.depth shape level b hb
  · intro shape level b' hw pin role hc
    obtain ⟨b, hb, hk, hf⟩ := hsame shape level b' hw
    exact h.pins shape level b hb pin role (hclaims hk hf hc)
  · intro shape level b₁ shape' level' b₂ hw₁ hw₂ pin role role' hc₁ hc₂
    obtain ⟨c₁, hb₁, hk₁, hf₁⟩ := hsame shape level b₁ hw₁
    obtain ⟨c₂, hb₂, hk₂, hf₂⟩ := hsame shape' level' b₂ hw₂
    exact h.roles shape level c₁ shape' level' c₂ hb₁ hb₂ pin role role' (hclaims hk₁ hf₁ hc₁) (hclaims hk₂ hf₂ hc₂)

theorem sound_iff_of_rearranges {program' : Program} (h : program.Rearranges program') (board : Board) :
    program.Sound board ↔ program'.Sound board := by
  constructor
  · refine fun hsound => sound_of_counterparts hsound fun shape level b' hw => ?_
    obtain ⟨b, hb, hr⟩ := walked_related (R := fun c' c => c.Rearranges c') h.counterparts.2
      (fun b' b hr => ⟨(Block.rearranges_iff.1 hr).1.symm, fun k slot hslot =>
        ⟨(hr.looksInto_iff k slot).1 hslot, (hr.inside slot).2⟩⟩) hw
    obtain ⟨hk, hf, -⟩ := Block.rearranges_iff.1 hr
    exact ⟨b, hb, hk, hf⟩
  · refine fun hsound => sound_of_counterparts hsound fun shape level b hw => ?_
    obtain ⟨b', hb', hr⟩ := walked_related (R := Block.Rearranges) h.counterparts.1
      (fun b b' hr => ⟨(Block.rearranges_iff.1 hr).1, fun k slot hslot =>
        ⟨(hr.looksInto_iff k slot).2 hslot, (hr.inside slot).1⟩⟩) hw
    obtain ⟨hk, hf, -⟩ := Block.rearranges_iff.1 hr
    exact ⟨b', hb', hk.symm, hf.symm⟩

/-- **When a program becomes a sketch.** Exactly if it is sound; so the order of its statements, at whatever depth, has
nothing to do with it. -/
theorem success_iff_sound (program : Program) (board : Board) (indent : Nat) :
    (program.Succeeds board indent ↔ program.Sound board) ∧
      ∀ program', program.Rearranges program' → (program.Succeeds board indent ↔ program'.Succeeds board indent) := by
  have hiff (program : Program) : program.Succeeds board indent ↔ program.Sound board :=
    ⟨sound_of_succeeds, succeeds_of_sound indent⟩
  refine ⟨hiff program, fun program' h => ?_⟩
  rw [hiff program, hiff program']
  exact sound_iff_of_rearranges h board

theorem Block.rearranges_refl (b : Block) : b.Rearranges b := by
  induction b using Block.induct with
  | step b hv hs =>
    refine Block.rearranges_iff.2 ⟨rfl, rfl, fun slot => ?_, fun slot => ⟨rfl, b.statement slot, .refl _, ?_⟩⟩
    · cases hc : b.input? slot with
      | none => exact .none
      | some c => exact .some (hv slot c hc)
    · exact List.forall₂_same.2 (hs slot)

/-- two statements that use one pin for one role -/
def samplePair : List Block :=
  [⟨"w", "io_digitalwrite", [("PIN", " 13 ")], [], [], default⟩,
    ⟨"x", "io_digitalwrite", [("PIN", "13")], [], [], default⟩]

/-- a program that succeeds does so with its statements the other way round, on the other chain -/
theorem success_iff_sound_swapped :
    Program.Rearranges ⟨none, samplePair, [], 0⟩ ⟨none, [], samplePair.reverse, 0⟩ ∧
      Program.Succeeds ⟨none, [], samplePair.reverse, 0⟩ Board.uno 2 := by
  have hperm : Program.Rearranges ⟨none, samplePair, [], 0⟩ ⟨none, [], samplePair.reverse, 0⟩ :=
    ⟨samplePair, (List.reverse_perm _).symm, List.forall₂_same.2 fun b _ => b.rearranges_refl⟩
  have hrun : (Program.generate ⟨none, samplePair, [], 0⟩ Board.uno Table.builtin 2).1.isOk = true := by decide +kernel
  refine ⟨hperm, ((success_iff_sound _ Board.uno 2).2 _ hperm).1 ?_⟩
  unfold Program.Succeeds
  cases hr : (Program.generate ⟨none, samplePair, [], 0⟩ Board.uno Table.builtin 2).1 with
  | ok sketch => exact ⟨sketch, rfl⟩
  | error e => rw [hr] at hrun; cases hrun

end BlockSketch
