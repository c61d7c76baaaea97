/-
The loops of a program in the order in which a walk comes to them.

`Block.loops` lists the loops in a block: a loop comes before the loops in its body, and the branches of a conditional
come in order, what happens otherwise last. The k-th loop of a program, through both of its chains, has the number k, and
its counter is named by that number. `LoopReader` is any way to find the heads of loops in code that follows how
statements are put together; whatever it is, it finds the heads of the loops listed, each with its number.

Results:
- `mem_loops_iff`: in a program that becomes a sketch, the loops listed are the walked ones;
- `Program.loopNotes_of_generate`: the journal of a run has the loops in the order in which they are listed;
- `Block.code_count`: the code of a block counts the loops listed for it and nothing else;
- `LoopReader.code`, `LoopReader.chain`: the heads found in the code of a block or a chain.
-/
import BlockSketch.Proofs.Success

namespace BlockSketch

open BlockSketch.Action

/-! ## Loops in order -/

namespace Block

/-- the loops in a block, in the order of a walk -/
def loops : Block → List Block :=
  fold fun b _ chains =>
    match b.kind? with
    | some .controlsRepeat => b :: (chains "DO").flatten
    | some .controlsIf =>
      (List.range (Library.branchCount b)).flatMap (fun n => (chains ("DO" ++ toString n)).flatten) ++
        (chains "ELSE").flatten
    | _ => []

/-- how often a loop runs, as it is written -/
def limit (b : Block) : String :=
  (((b.input? "TIMES").map expression).map (·.embed Order.relational.tighter)).getD "0"

end Block

def chainLoops (chain : List Block) : List Block := chain.flatMap Block.loops

theorem chainLoops_cons (c : Block) (rest : List Block) : chainLoops (c :: rest) = c.loops ++ chainLoops rest := rfl

/-- the loops of a program: those of the setup chain, then those of the main chain -/
def Program.loops (program : Program) : List Block := chainLoops program.setup ++ chainLoops program.main

/-- the loops that a request of a block brings in: those in the slot, or the block itself if it asks for a counter -/
def Request.loops (b : Block) : Request → List Block
  | .value _ _ _ => []
  | .chain slot => chainLoops (b.statement slot)
  | .counter => [b]

namespace Block

variable {b : Block} {slot : String}

theorem loops_eq (b : Block) :
    b.loops =
      match b.kind? with
      | some .controlsRepeat => b :: chainLoops (b.statement "DO")
      | some .controlsIf =>
        (List.range (Library.branchCount b)).flatMap (fun n => chainLoops (b.statement ("DO" ++ toString n))) ++
          chainLoops (b.statement "ELSE")
      | _ => [] := by
  rw [loops, fold_eq]
  rfl

theorem loops_of_repeat (h : b.kind? = some .controlsRepeat) : b.loops = b :: chainLoops (b.statement "DO") := by
  rw [loops_eq, h]

theorem loops_of_if (h : b.kind? = some .controlsIf) :
    b.loops = (List.range (Library.branchCount b)).flatMap (fun n => chainLoops (b.statement ("DO" ++ toString n))) ++
      chainLoops (b.statement "ELSE") := by
  rw [loops_eq, h]

theorem loops_of_simple (hrepeat : b.kind? ≠ some .controlsRepeat) (hif : b.kind? ≠ some .controlsIf) :
    b.loops = [] := by
  rw [loops_eq]
  split
  · rename_i h; exact absurd h hrepeat
  · rename_i h; exact absurd h hif
  · rfl

theorem statement_eq_nil (h : b.hasStatement slot = false) : b.statement slot = [] := by
  refine List.eq_nil_iff_forall_not_mem.2 fun c hc => ?_
  rw [hasStatement_of_mem hc] at h
  cases h

/-- the loops in a block are those that its requests bring in, in the order of the requests -/
theorem loops_eq_requests (b : Block) : b.loops = b.requests.flatMap (Request.loops b) := by
  cases hk : b.kind? with
  | none =>
    rw [requests, hk, loops_of_simple (by simp [hk]) (by simp [hk])]
    rfl
  | some k =>
    rw [requests_of_kind hk]
    cases k with
    | controlsRepeat =>
      rw [loops_of_repeat hk]
      simp [Kind.requests, Request.loops]
    | controlsIf =>
      rw [loops_of_if hk, Kind.requests, Kind.branchRequests, List.flatMap_append, List.flatMap_assoc]
      congr 1
      · simp [Request.loops]
      · cases helse : b.hasStatement "ELSE" with
        | true => simp [Request.loops]
        | false => simp [statement_eq_nil helse, chainLoops]
    | _ =>
      rw [loops_of_simple (by simp [hk]) (by simp [hk])]
      simp [Kind.requests, Request.loops]

end Block

/-! ## Loops that are walked -/

section

variable {program : Program} {board : Board} {shape : Shape} {level : Nat} {b c : Block}

theorem Kind.repeats_of_counter {k : Kind} {word : String} (h : .counter ∈ k.requests b word) : k = .controlsRepeat := by
  cases k with
  | controlsRepeat => rfl
  | controlsIf => simp [Kind.requests, Kind.branchRequests] at h
  | _ => simp [Kind.requests] at h

theorem walked_of_mem_loops (h : Walked program .statement level b) (hc : c ∈ b.loops) :
    ∃ level, Walked program .statement level c ∧ c.kind = "controls_repeat_ext" := by
  induction b using Block.induct generalizing level with
  | step b hv hs =>
    rw [Block.loops_eq_requests] at hc
    obtain ⟨request, hrequest, hc⟩ := List.mem_flatMap.1 hc
    cases hk : b.kind? with
    | none => rw [Block.requests, hk] at hrequest; cases hrequest
    | some k =>
      rw [Block.requests_of_kind hk] at hrequest
      cases request with
      | value slot required default => cases hc
      | chain slot =>
        obtain ⟨d, hd, hc⟩ := List.mem_flatMap.1 hc
        have hlooks : k.LooksInto b ⟨.statement, slot⟩ := looksInto_of_request hrequest rfl
        exact hs slot d hd (.inside h (kind?_eq_some_iff.1 hk) hlooks hd) hc
      | counter =>
        obtain rfl := List.mem_singleton.1 hc
        rw [Kind.repeats_of_counter hrequest] at hk
        exact ⟨level, h, (kind?_eq_some_iff.1 hk).symm⟩

/-- only statements have statements in slots that a generator looks into -/
theorem Kind.shape_of_looksInto {k : Kind} {slot : Slot} (h : k.LooksInto b slot) (hs : slot.shape = .statement) :
    k.shape = .statement := by
  cases k with
  | controlsIf => rfl
  | controlsRepeat => rfl
  | _ => simp only [Kind.LooksInto] at h <;> grind

theorem loops_of_walked (hsound : program.Sound board) (h : Walked program shape level b) (hs : shape = .statement) :
    ∀ c ∈ b.loops, c ∈ program.loops := by
  induction h with
  | setup hb => exact fun c hc => List.mem_append_left _ (List.mem_flatMap.2 ⟨_, hb, hc⟩)
  | main hb => exact fun c hc => List.mem_append_right _ (List.mem_flatMap.2 ⟨_, hb, hc⟩)
  | @inside b d k shape level slot hb hk hslot hd ih =>
    intro c hc
    -- what has statements in its slots is a statement itself
    have hshape : shape = .statement := by
      obtain ⟨k', hk', hshape⟩ := hsound.shapes shape level b hb
      have hsame : k' = k := Option.some.inj ((kind?_eq_some_iff.2 hk').symm.trans (kind?_eq_some_iff.2 hk))
      rw [← hshape, hsame]
      exact Kind.shape_of_looksInto hslot hs
    apply ih hshape
    obtain ⟨request, hrequest, hrs⟩ := request_of_looksInto (k.word b) hslot hd
    rw [← Block.requests_of_kind (kind?_eq_some_iff.2 hk)] at hrequest
    rw [Block.loops_eq_requests]
    refine List.mem_flatMap.2 ⟨request, hrequest, ?_⟩
    cases request with
    | value name required default => cases hrs; cases hs
    | chain name => cases hrs; exact List.mem_flatMap.2 ⟨d, hd, hc⟩
    | counter => cases hrs

theorem mem_loops_iff (hsound : program.Sound board) :
    b ∈ program.loops ↔ ∃ level, Walked program .statement level b ∧ b.kind = "controls_repeat_ext" := by
  constructor
  · intro h
    rcases List.mem_append.1 h with h | h
    · obtain ⟨c, hc, hb⟩ := List.mem_flatMap.1 h
      exact walked_of_mem_loops (.setup hc) hb
    · obtain ⟨c, hc, hb⟩ := List.mem_flatMap.1 h
      exact walked_of_mem_loops (.main hc) hb
  · rintro ⟨level, hwalked, hkind⟩
    apply loops_of_walked hsound hwalked rfl
    rw [Block.loops_of_repeat (kind?_eq_some_iff.2 (show Kind.controlsRepeat.name = b.kind from hkind.symm))]
    exact List.mem_cons_self

end

/-! ## Loops in the journal -/

/-- the id of the loop that is reached, if that is what a note tells of -/
def loopNote? : Event → Option String
  | .statement id kind => if kind = "controls_repeat_ext" then some id else none
  | _ => none

/-- the ids of the loops that were reached so far, in order -/
def Pass.loopNotes (p : Pass) : List String := p.events.filterMap loopNote?

/-- the id of the loop that an action takes a note of -/
def Action.loopNote? : Action → Option String
  | .note e => BlockSketch.loopNote? e
  | _ => none

section

variable {p q : Pass} {u : Unit}

theorem loopNotes_noted (p : Pass) (e : Event) : (p.noted e).loopNotes = p.loopNotes ++ (loopNote? e).toList := by
  have hevents : (p.noted e).events = p.events ++ [e] := List.reverse_cons
  rw [Pass.loopNotes, hevents, List.filterMap_append, List.filterMap_cons, List.filterMap_nil, Pass.loopNotes]
  cases loopNote? e with
  | none => rfl
  | some id => rfl

theorem loopNotes_contributed (p : Pass) (need : Need) : (p.contributed need).loopNotes = p.loopNotes := by
  have hnote (stored : Bool) : loopNote? (if stored then .fragmentStored need.place need.key need.text need.runFirst
      else .fragmentPresent need.place need.key need.text need.runFirst) = none := by
    cases stored with
    | true => rfl
    | false => rfl
  rw [Pass.contributed, loopNotes_noted, hnote]
  exact List.append_nil _

theorem perform_loopNotes {action : Action} (h : action.perform p = .ok u q) :
    q.loopNotes = p.loopNotes ++ action.loopNote?.toList := by
  cases action with
  | note e =>
    cases h
    exact loopNotes_noted p e
  | contribute need =>
    rw [perform_contribute] at h
    cases h
    rw [loopNotes_contributed]
    exact (List.append_nil _).symm
  | count =>
    cases h
    exact (List.append_nil _).symm
  | fail block fault => cases h
  | claim block use =>
    obtain ⟨pins, -, rfl⟩ := perform_claim_ok h
    exact (List.append_nil _).symm

/-- actions that get through add the loops that they take notes of, in order -/
theorem performAll_loopNotes {actions : List Action} (h : performAll actions p = .ok u q) :
    q.loopNotes = p.loopNotes ++ actions.filterMap Action.loopNote? := by
  induction actions generalizing p with
  | nil =>
    cases h
    exact (List.append_nil _).symm
  | cons action rest ih =>
    rw [performAll_cons] at h
    cases hfirst : action.perform p with
    | error e r => rw [hfirst] at h; cases h
    | ok u r =>
      rw [hfirst] at h
      rw [ih h, perform_loopNotes hfirst, List.append_assoc, List.filterMap_cons]
      cases action.loopNote? with
      | none => rfl
      | some id => rfl

end

namespace Block

variable {board : Board} {b : Block}

theorem loops_of_value {k : Kind} (hk : b.kind? = some k) (hs : k.shape = .value) : b.loops = [] := by
  refine loops_of_simple ?_ ?_
  · intro hrepeat
    cases hk.symm.trans hrepeat
    cases hs
  · intro hif
    cases hk.symm.trans hif
    cases hs

theorem loopNotes_ownActions (b : Block) : b.ownActions.filterMap Action.loopNote? = [] := by
  refine List.filterMap_eq_nil_iff.2 fun action ha => ?_
  rcases List.mem_append.1 ha with ha | ha
  · obtain ⟨use, -, rfl⟩ := List.mem_map.1 ha
    rfl
  · obtain ⟨need, -, rfl⟩ := List.mem_map.1 ha
    rfl

theorem loopNotes_of_chainActions {chain : List Block} {level : Nat}
    (h : ∀ c ∈ chain, (c.actions .statement level).filterMap Action.loopNote? = c.loops.map Block.id) :
    (chainActions chain level).filterMap Action.loopNote? = (chainLoops chain).map Block.id := by
  rw [chainActions, chainLoops, List.filterMap_flatMap, List.map_flatMap]
  exact List.flatMap_congr h

/-- a walk that gets through a block takes notes of the loops in the block, in order -/
theorem loopNotes_of_actions (b : Block) : ∀ {shape : Shape} {level : Nat},
    (∀ action ∈ b.actions shape level, action.Admissible board) →
      (b.actions shape level).filterMap Action.loopNote? = b.loops.map Block.id := by
  induction b using Block.induct with
  | step b hv hs =>
    intro shape level h
    have hr := refusal?_of_admissible h
    obtain ⟨-, k, hk, hshape, -⟩ := refusal?_eq_none_iff.1 hr
    have hrequest (request : Request) (hrequest : request ∈ b.requests) (hcounter : request ≠ .counter) :
        (request.actions b level).filterMap Action.loopNote? = (request.loops b).map Block.id := by
      cases request with
      | value slot required default =>
        simp only [Request.actions, Request.loops]
        cases hc : b.input? slot with
        | none => rfl
        | some c =>
          -- a value has no loops in it
          have hadm := admissible_input h hrequest hc
          obtain ⟨-, k, hk, hshape, -⟩ := refusal?_eq_none_iff.1 (refusal?_of_admissible hadm)
          rw [Option.elim_some, hv slot c hc hadm, loops_of_value hk hshape]
      | chain slot =>
        have hchain (c : Block) (hc : c ∈ b.statement slot) :=
          hs slot c hc (admissible_inside h hrequest ⟨.statement, slot⟩ rfl hc)
        exact loopNotes_of_chainActions hchain
      | counter => exact absurd rfl hcounter
    rw [actions_eq, hr, List.filterMap_append, List.filterMap_append, loopNotes_ownActions, List.append_nil,
      List.filterMap_flatMap]
    by_cases hrepeat : k = .controlsRepeat
    · -- the note on a loop is taken before anything in it is reached
      subst hrepeat
      have hkind : b.kind = "controls_repeat_ext" := (kind?_eq_some_iff.1 hk).symm
      have hrequests : b.requests = [.value "TIMES" Order.relational.tighter "0", .counter, .chain "DO"] :=
        requests_of_kind hk
      have hopening : (b.opening shape).filterMap Action.loopNote? = [b.id] := by
        rw [← hshape]
        simp [opening, Kind.shape, Action.loopNote?, BlockSketch.loopNote?, hkind]
      rw [hrequests] at hrequest ⊢
      have hlimit := hrequest (.value "TIMES" Order.relational.tighter "0") (by simp) (by simp)
      have hbody := hrequest (.chain "DO") (by simp) (by simp)
      rw [List.flatMap_cons, List.flatMap_cons, List.flatMap_cons, hlimit, hbody, hopening, loops_of_repeat hk]
      simp [Request.loops, Request.actions, Action.loopNote?]
    · have hopening : (b.opening shape).filterMap Action.loopNote? = [] := by
        have hkind : b.kind ≠ "controls_repeat_ext" := by
          intro hkind
          have hsome := kind?_eq_some_iff.2 (show Kind.controlsRepeat.name = b.kind from hkind.symm)
          exact hrepeat (Option.some.inj (hk.symm.trans hsome))
        cases shape with
        | value => rfl
        | statement => simp [opening, Action.loopNote?, BlockSketch.loopNote?, hkind]
      rw [hopening, List.nil_append, loops_eq_requests, List.map_flatMap]
      refine List.flatMap_congr fun request hmem => hrequest request hmem ?_
      rintro rfl
      rw [requests_of_kind hk] at hmem
      exact hrepeat (Kind.repeats_of_counter hmem)

end Block

/-- **The journal of a run has the loops in order.** The notes on statements in the journal of a run that gets through
are in the order of the walk; those on loops are of the loops listed. -/
theorem Program.loopNotes_of_generate {program : Program} {board : Board} {indent : Nat} {sketch : String}
    (h : (program.generate board Table.builtin indent).1 = .ok sketch) :
    (program.generate board Table.builtin indent).2.filterMap loopNote? = program.loops.map Block.id := by
  obtain ⟨q, hrun⟩ := succeeds_iff_performAll.1 ⟨sketch, h⟩
  have hadm : ∀ action ∈ program.actions board indent, action.Admissible board := performAll_admissible hrun
  have hsetup : (chainActions program.setup 1).filterMap Action.loopNote? = (chainLoops program.setup).map Block.id :=
    Block.loopNotes_of_chainActions fun b hb => b.loopNotes_of_actions fun action ha =>
      hadm action (mem_program_actions.2 (.inr (.inl ⟨b, hb, ha⟩)))
  have hmain : (chainActions program.main 1).filterMap Action.loopNote? = (chainLoops program.main).map Block.id :=
    Block.loopNotes_of_chainActions fun b hb => b.loopNotes_of_actions fun action ha =>
      hadm action (mem_program_actions.2 (.inr (.inr (.inr ⟨b, hb, ha⟩))))
  have huser : ((program.setupNeeds indent).map contribute).filterMap Action.loopNote? = [] := by
    simp [List.filterMap_map, Function.comp_def, Action.loopNote?]
  have hnotes : q.loopNotes = program.loops.map Block.id := by
    rw [performAll_loopNotes hrun, Program.actions, List.filterMap_cons, List.filterMap_append, List.filterMap_append,
      hsetup, huser, hmain, Program.loops, List.map_append]
    rfl
  -- the layout takes two more notes, on how far the run has come
  rw [Program.generate, runProgram_eq, hrun, ← hnotes]
  show ((q.noted _).noted _).loopNotes = q.loopNotes
  rw [loopNotes_noted, loopNotes_noted]
  simp [BlockSketch.loopNote?]

/-! ## Counting loops -/

section

variable {w : Nat}

theorem Request.texts_count {b : Block} (values : String → Option OrderedCode) {chains : String → Nat → String × Nat}
    (h : ∀ slot loops, (chains slot loops).2 = loops + (chainLoops (b.statement slot)).length) (requests : List Request)
    (loops : Nat) :
    (Request.texts values chains requests loops).2 = loops + (requests.flatMap (Request.loops b)).length := by
  induction requests generalizing loops with
  | nil => rfl
  | cons request rest ih =>
    have hfirst : (request.text values chains loops).2 = loops + (request.loops b).length := by
      cases request with
      | value slot required default => rfl
      | chain slot => exact h slot loops
      | counter => rfl
    rw [Request.texts_cons, ih, hfirst, List.flatMap_cons, List.length_append]
    omega

theorem chainText_count {chain : List Block} (h : ∀ c ∈ chain, ∀ loops, (c.code w loops).2 = loops + c.loops.length)
    (loops : Nat) : (chainCodeText w chain loops).2 = loops + (chainLoops chain).length := by
  induction chain generalizing loops with
  | nil => rfl
  | cons c rest ih =>
    have hrest := ih fun d hd => h d (List.mem_cons_of_mem c hd)
    rw [chainCodeText_cons, hrest, h c List.mem_cons_self, chainLoops_cons, List.length_append]
    omega

/-- the code of a block counts the loops in the block -/
theorem Block.code_count (w : Nat) (b : Block) (loops : Nat) : (b.code w loops).2 = loops + b.loops.length := by
  induction b using Block.induct generalizing loops with
  | step b hv hs =>
    have hchains (slot : String) (loops : Nat) : (bodyText w ((b.statement slot).map (code w)) loops).2 =
        loops + (chainLoops (b.statement slot)).length := chainText_count (hs slot) loops
    rw [code_eq, loops_eq_requests]
    exact Request.texts_count _ hchains b.requests loops

theorem chainCodeText_count (w : Nat) (chain : List Block) (loops : Nat) :
    (chainCodeText w chain loops).2 = loops + (chainLoops chain).length :=
  chainText_count (fun c _ => c.code_count w) loops

/-- the loops of the main chain are counted on from those of the setup chain -/
theorem Program.mainText_eq (program : Program) (indent : Nat) :
    program.mainText indent = (chainCodeText indent program.main (chainLoops program.setup).length).1 := by
  rw [mainText, chainCodeText_count, Nat.zero_add]

end

/-! ## Heads of loops -/

/-- the head of a loop: the number of the loop, and how often it runs -/
structure LoopHead where
  number : Nat
  limit : String

namespace LoopHead

def counter (head : LoopHead) : String := counterName head.number

/-- the head as it is written, with the counter in three places -/
def text (head : LoopHead) : String :=
  "for (int " ++ head.counter ++ " = 0; " ++ head.counter ++ " < " ++ head.limit ++ "; " ++ head.counter ++ "++) \x7b"

/-- a head with the limit written as `limit` -/
def chars (head : LoopHead) (limit : List Char) : List Char :=
  "for (int ".toList ++ head.counter.toList ++ " = 0; ".toList ++ head.counter.toList ++ " < ".toList ++ limit ++
    "; ".toList ++ head.counter.toList ++ "++) \x7b".toList

/-- the head, cut at its first character, before and after its limit, and at its brace -/
theorem chars_eq (head : LoopHead) (limit : List Char) :
    head.chars limit = 'f' :: ("or (int ".toList ++ head.counter.toList ++ " = 0; ".toList ++ head.counter.toList ++
      " <".toList ++ ' ' :: (limit ++ ';' :: (" ".toList ++ head.counter.toList ++ "++) ".toList ++ ['\x7b']))) := by
  have hfirst : "for (int ".toList = 'f' :: "or (int ".toList := by decide
  have hless : " < ".toList = " <".toList ++ [' '] := by decide
  have hnext : "; ".toList = ';' :: " ".toList := by decide
  have hbrace : "++) \x7b".toList = "++) ".toList ++ ['\x7b'] := by decide
  have hchars : head.chars limit = "for (int ".toList ++ head.counter.toList ++ " = 0; ".toList ++
      head.counter.toList ++ " < ".toList ++ limit ++ "; ".toList ++ head.counter.toList ++ "++) \x7b".toList := rfl
  rw [hchars, hfirst, hless, hnext, hbrace]
  simp only [List.append_assoc, List.cons_append, List.nil_append]

/-- the head from its first word to its brace -/
theorem chars_between (head : LoopHead) (limit : List Char) :
    ∃ middle, head.chars limit = "for (".toList ++ middle ++ ['\x7b'] := by
  have hfirst : "for (".toList = 'f' :: "or (".toList := by decide
  have hopen : "or (int ".toList = "or (".toList ++ "int ".toList := by decide
  refine ⟨"int ".toList ++ head.counter.toList ++ " = 0; ".toList ++ head.counter.toList ++ " <".toList ++
    ' ' :: (limit ++ ';' :: (" ".toList ++ head.counter.toList ++ "++) ".toList)), ?_⟩
  rw [chars_eq, hfirst, hopen]
  simp only [List.append_assoc, List.cons_append]

theorem toList_text (head : LoopHead) : head.text.toList = head.chars head.limit.toList := by
  have htext : head.text = "for (int " ++ head.counter ++ " = 0; " ++ head.counter ++ " < " ++ head.limit ++ "; " ++
      head.counter ++ "++) \x7b" := rfl
  rw [htext]
  simp only [String.toList_append]
  rfl

end LoopHead

/-- the heads of loops in a row that follow on `before` others -/
def loopHeads (before : Nat) (loops : List Block) : List LoopHead :=
  loops.mapIdx fun i b => ⟨before + i + 1, b.limit⟩

theorem loopHeads_cons (before : Nat) (b : Block) (rest : List Block) :
    loopHeads before (b :: rest) = ⟨before + 1, b.limit⟩ :: loopHeads (before + 1) rest := by
  rw [loopHeads, List.mapIdx_cons, loopHeads]
  congr 2
  funext i c
  have hnumber : before + (i + 1) + 1 = before + 1 + i + 1 := by omega
  rw [hnumber]

theorem loopHeads_append (before : Nat) (xs ys : List Block) :
    loopHeads before (xs ++ ys) = loopHeads before xs ++ loopHeads (before + xs.length) ys := by
  rw [loopHeads, List.mapIdx_append, loopHeads, loopHeads]
  congr 2
  funext i c
  have hnumber : before + (i + xs.length) + 1 = before + xs.length + i + 1 := by omega
  rw [hnumber]

theorem toList_braced (body : String) :
    (Library.braced body).toList = "\x7b\n".toList ++ body.toList ++ "\x7d".toList := by
  rw [Library.braced, String.toList_append, String.toList_append]

/-- the code of a loop is its head, its body on lines of its own, and a closing brace -/
theorem loop_sentence (b : Block) (word : String) (n : Nat) (limit body : String) :
    Kind.controlsRepeat.sentence b word [limit, counterName n, body] =
      LoopHead.text ⟨n, limit⟩ ++ ("\n" ++ body ++ "\x7d\n") := by
  have hopen : "++) " ++ "\x7b\n" = "++) \x7b" ++ "\n" := by decide
  have hend : "\x7d" ++ "\n" = "\x7d\n" := by decide
  have hbrace (rest : String) : "++) " ++ ("\x7b\n" ++ rest) = "++) \x7b" ++ ("\n" ++ rest) := by
    rw [← String.append_assoc, hopen, String.append_assoc]
  have hlayout (counter : String) :
      "for (int " ++ counter ++ " = 0; " ++ counter ++ " < " ++ limit ++ "; " ++ counter ++ "++) " ++
          ("\x7b\n" ++ body ++ "\x7d") ++ "\n" =
        "for (int " ++ counter ++ " = 0; " ++ counter ++ " < " ++ limit ++ "; " ++ counter ++ "++) \x7b" ++
          ("\n" ++ body ++ "\x7d\n") := by
    simp only [String.append_assoc, hbrace, hend]
  exact hlayout (counterName n)

def Block.condition (b : Block) (n : Nat) : String :=
  (((b.input? ("IF" ++ toString n)).map expression).map (·.embed .lowest)).getD "false"

/-! ## Finding heads in code -/

/-- what is found in texts is found in them joined by a separator, if that is so for two of them -/
theorem found_intercalate {P : List LoopHead → String → Prop} {separator : String}
    (hjoin : ∀ hs hs' x y, P hs x → P hs' y → P (hs ++ hs') (x ++ separator ++ y)) {heads : List (List LoopHead)}
    {texts : List String} (h : List.Forall₂ P heads texts) (hne : texts ≠ []) :
    P heads.flatten (separator.intercalate texts) := by
  induction h with
  | nil => exact absurd rfl hne
  | @cons first text others rest hfirst hrest ih =>
    cases rest with
    | nil =>
      cases hrest
      simpa using hfirst
    | cons next texts =>
      rw [List.flatten_cons, String.intercalate_cons_cons]
      exact hjoin _ _ _ _ hfirst (ih (List.cons_ne_nil _ _))

/-- a way to find the heads of loops in the code of blocks of which `Q` holds: `S hs x` says that `hs` are found in the
statements `x`, and `G hs x` that they are found in the branches `x` of a conditional -/
structure LoopReader (w : Nat) (Q : Block → Prop) (S G : List LoopHead → String → Prop) : Prop where
  inside : ∀ {b c : Block} {slot : String}, Q b → .chain slot ∈ b.requests → c ∈ b.statement slot → Q c
  nothing : S [] ""
  append : ∀ {hs hs' : List LoopHead} {x y : String}, S hs x → S hs' y → S (hs ++ hs') (x ++ y)
  indent : ∀ {hs : List LoopHead} {x : String}, S hs x → S hs (Text.indentLines w x)
  /-- no head is found in what is neither a loop nor a conditional -/
  simple : ∀ {b : Block}, Q b → b.kind? ≠ some .controlsRepeat → b.kind? ≠ some .controlsIf →
    ∀ loops, S [] (b.code w loops).1
  loop : ∀ {b : Block}, Q b → b.kind? = some .controlsRepeat → ∀ (n : Nat) {hs : List LoopHead} {body : String},
    S hs body → S (⟨n, b.limit⟩ :: hs) (LoopHead.text ⟨n, b.limit⟩ ++ ("\n" ++ body ++ "\x7d\n"))
  branch : ∀ {b : Block}, Q b → b.kind? = some .controlsIf → ∀ n < Library.branchCount b,
    ∀ {hs : List LoopHead} {body : String}, S hs body →
      G hs ("if (" ++ b.condition n ++ ") " ++ Library.braced body)
  otherwise : ∀ {hs : List LoopHead} {body : String}, S hs body → G hs (Library.braced body)
  join : ∀ {hs hs' : List LoopHead} {x y : String}, G hs x → G hs' y → G (hs ++ hs') (x ++ " else " ++ y)
  close : ∀ {hs : List LoopHead} {x : String}, G hs x → S hs (x ++ "\n")

namespace LoopReader

variable {w : Nat} {Q : Block → Prop} {S G : List LoopHead → String → Prop}

/-- the heads found in a chain are those of its loops, each with its number -/
theorem chain (reader : LoopReader w Q S G) {chain : List Block}
    (h : ∀ c ∈ chain, ∀ loops, S (loopHeads loops c.loops) (c.code w loops).1) (loops : Nat) :
    S (loopHeads loops (chainLoops chain)) (chainCodeText w chain loops).1 := by
  induction chain generalizing loops with
  | nil => exact reader.nothing
  | cons c rest ih =>
    rw [chainCodeText_cons, chainLoops_cons, loopHeads_append, c.code_count]
    exact reader.append (h c List.mem_cons_self loops) (ih (fun d hd => h d (List.mem_cons_of_mem c hd)) _)

theorem branchRequests_cons (n : Nat) (rest : List Nat) (hasElse : Bool) :
    Kind.branchRequests (n :: rest) hasElse =
      .value ("IF" ++ toString n) .lowest "false" :: .chain ("DO" ++ toString n) :: Kind.branchRequests rest hasElse := rfl

theorem branchTexts_ne_nil_of_branch (values : String → Option OrderedCode) (chains : String → Nat → String × Nat)
    {ns : List Nat} (hns : ns ≠ []) (hasElse : Bool) (loops : Nat) :
    Kind.branchTexts (Request.texts values chains (Kind.branchRequests ns hasElse) loops).1 ≠ [] := by
  obtain ⟨n, rest, rfl⟩ := List.exists_cons_of_ne_nil hns
  rw [branchRequests_cons, Request.texts_cons, Request.texts_cons]
  exact List.cons_ne_nil _ _

/-- the heads found in the branches of a conditional, branch by branch -/
theorem branches (reader : LoopReader w Q S G) {b : Block} (hb : Q b) (hk : b.kind? = some .controlsIf)
    {ns : List Nat} (hns : ∀ n ∈ ns, n < Library.branchCount b) (hasElse : Bool)
    (hbody : ∀ slot, .chain slot ∈ Kind.branchRequests ns hasElse → ∀ loops,
      S (loopHeads loops (chainLoops (b.statement slot))) (chainCodeText w (b.statement slot) loops).1) (loops : Nat) :
    ∃ heads, List.Forall₂ G heads (Kind.branchTexts (Request.texts (fun slot => (b.input? slot).map Block.expression)
        (fun slot => bodyText w ((b.statement slot).map (Block.code w))) (Kind.branchRequests ns hasElse) loops).1) ∧
      heads.flatten = loopHeads loops ((Kind.branchRequests ns hasElse).flatMap (Request.loops b)) := by
  induction ns generalizing loops with
  | nil =>
    cases hasElse with
    | false => exact ⟨[], .nil, rfl⟩
    | true =>
      refine ⟨[loopHeads loops (chainLoops (b.statement "ELSE"))], ?_, by simp [Kind.branchRequests, Request.loops]⟩
      exact .cons (reader.otherwise (reader.indent (hbody "ELSE" List.mem_cons_self loops))) .nil
  | cons n rest ih =>
    obtain ⟨heads, hheads, hflat⟩ := ih (fun m hm => hns m (List.mem_cons_of_mem n hm))
      (fun slot hslot => hbody slot (List.mem_cons_of_mem _ (List.mem_cons_of_mem _ hslot)))
      (loops + (chainLoops (b.statement ("DO" ++ toString n))).length)
    refine ⟨loopHeads loops (chainLoops (b.statement ("DO" ++ toString n))) :: heads, ?_, ?_⟩
    · -- the condition counts nothing, so the other branches follow on the loops of this one
      have hfirst := hbody ("DO" ++ toString n) (List.mem_cons_of_mem _ List.mem_cons_self) loops
      have hcount := chainCodeText_count w (b.statement ("DO" ++ toString n)) loops
      rw [branchRequests_cons, Request.texts_cons, Request.texts_cons]
      simp only [Request.text, bodyText]
      rw [show (chainText ((b.statement ("DO" ++ toString n)).map (Block.code w)) loops).2 = _ from hcount]
      exact .cons (reader.branch hb hk n (hns n List.mem_cons_self) (reader.indent hfirst)) hheads
    · rw [branchRequests_cons, List.flatten_cons, hflat, ← loopHeads_append]
      rfl

/-- **The heads found in the code of a block** are those of its loops, each with its number, whatever the way to find
them. -/
theorem code (reader : LoopReader w Q S G) (b : Block) (hb : Q b) (loops : Nat) :
    S (loopHeads loops b.loops) (b.code w loops).1 := by
  induction b using Block.induct generalizing loops with
  | step b hv hs =>
    have hbody (slot : String) (hslot : .chain slot ∈ b.requests) (loops : Nat) :
        S (loopHeads loops (chainLoops (b.statement slot))) (chainCodeText w (b.statement slot) loops).1 :=
      reader.chain (fun c hc => hs slot c hc (reader.inside hb hslot hc)) loops
    by_cases hrepeat : b.kind? = some .controlsRepeat
    · have hrequests : b.requests = [.value "TIMES" Order.relational.tighter "0", .counter, .chain "DO"] :=
        Block.requests_of_kind hrepeat
      have htexts : (b.texts w loops).1 = [b.limit, counterName (loops + 1),
          Text.indentLines w (chainCodeText w (b.statement "DO") (loops + 1)).1] := by
        rw [Block.texts, hrequests]
        rfl
      have hcode : (b.code w loops).1 = LoopHead.text ⟨loops + 1, b.limit⟩ ++
          ("\n" ++ Text.indentLines w (chainCodeText w (b.statement "DO") (loops + 1)).1 ++ "\x7d\n") := by
        rw [Block.code_of_kind hrepeat rfl, htexts]
        exact loop_sentence b _ (loops + 1) b.limit _
      rw [hcode, Block.loops_of_repeat hrepeat, loopHeads_cons]
      refine reader.loop hb hrepeat (loops + 1) (reader.indent (hbody "DO" ?_ (loops + 1)))
      simp [hrequests]
    · by_cases hif : b.kind? = some .controlsIf
      · have hrequests : b.requests =
            Kind.branchRequests (List.range (Library.branchCount b)) (b.hasStatement "ELSE") :=
          Block.requests_of_kind hif
        have hns : ∀ n ∈ List.range (Library.branchCount b), n < Library.branchCount b := fun n hn => List.mem_range.1 hn
        rw [hrequests] at hbody
        obtain ⟨heads, hheads, hflat⟩ := reader.branches hb hif hns (b.hasStatement "ELSE") hbody loops
        rw [Block.code_of_kind hif rfl, Block.loops_eq_requests, Block.texts, hrequests, ← hflat]
        refine reader.close (found_intercalate (fun _ _ _ _ => reader.join) hheads ?_)
        exact branchTexts_ne_nil_of_branch _ _ (by simp [Library.branchCount]) _ loops
      · rw [Block.loops_of_simple hrepeat hif]
        exact reader.simple hb hrepeat hif loops

end LoopReader

end BlockSketch
