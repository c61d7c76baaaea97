/-
The counters of the loops in a sketch.

The loops of a program are numbered in the order of a walk, and a loop is written with a head that has its counter in it
three times, named by its number. On a built-in board the heads are lines. On other boards a field may bring in anything,
a line break in the limit of a loop as well, and then the limit is indented with the code around it. So there the heads
are found as pieces of text with other text between them, their limits up to the blanks of indentation (`Woven`).

Results:
- `counters_nodup`: numbers in a row make different counters;
- `Woven.indent`, `Woven.trimEnd`: heads stay where they are when the code around them is indented and trimmed;
- `woven_sketch`: the heads of all loops stand in a sketch, in order;
- `loop_counters_distinct`: the heads in a sketch are those of its walked loops, the k-th with the k-th counter.
-/
import BlockSketch.Proofs.LoopLines
import BlockSketch.Proofs.NameSupply

namespace BlockSketch

open Nesting Text

/-! ## Counters -/

theorem counterName_eq (n : Nat) : counterName n = nameOfUse counterBase n := by
  unfold counterName nameOfUse useNumber
  split
  · rw [String.append_empty]
  · rfl

theorem counterName_injective {m n : Nat} (h : counterName m = counterName n) : m = n := by
  rw [counterName_eq, counterName_eq] at h
  exact nameOfUse_injective h

theorem map_number_loopHeads (before : Nat) (loops : List Block) :
    (loopHeads before loops).map LoopHead.number = List.range' (before + 1) loops.length := by
  induction loops generalizing before with
  | nil => rfl
  | cons b rest ih => rw [loopHeads_cons, List.map_cons, ih, List.length_cons, List.range'_succ]

theorem counters_nodup (before : Nat) (loops : List Block) :
    ((loopHeads before loops).map LoopHead.counter).Nodup := by
  have hnames : (loopHeads before loops).map LoopHead.counter =
      (List.range' (before + 1) loops.length).map counterName := by
    rw [← map_number_loopHeads, List.map_map]
    rfl
  rw [hnames]
  exact List.Nodup.map (fun _ _ => counterName_injective) List.nodup_range'

/-! ## Heads between pieces of text -/

/-- what is to be seen of a text when indentation is left out of account: all but blanks and carriage returns -/
def inked (cs : List Char) : List Char := cs.filter fun c => c != ' ' && c != '\r'

/-- the text has the heads in it, one after the other, their limits up to indentation -/
inductive Woven : List LoopHead → List Char → Prop where
  | plain (cs : List Char) : Woven [] cs
  | head {head : LoopHead} {heads : List LoopHead} (before : List Char) {limit rest : List Char}
    (hlimit : inked limit = inked head.limit.toList) (h : Woven heads rest) :
    Woven (head :: heads) (before ++ head.chars limit ++ rest)

section

variable {heads heads' : List LoopHead} {cs cs' : List Char}

theorem Woven.after (h : Woven heads cs) (before : List Char) : Woven heads (before ++ cs) := by
  cases h with
  | plain => exact .plain _
  | head first hlimit h =>
    rw [← List.append_assoc, ← List.append_assoc]
    exact .head (before ++ first) hlimit h

theorem Woven.append (h : Woven heads cs) (h' : Woven heads' cs') : Woven (heads ++ heads') (cs ++ cs') := by
  induction h with
  | plain cs => exact h'.after cs
  | head before hlimit _ ih =>
    rw [List.append_assoc]
    exact .head before hlimit ih

theorem Woven.between (h : Woven heads cs) (before after : List Char) : Woven heads (before ++ cs ++ after) := by
  have hall := (h.after before).append (.plain after)
  rwa [List.append_nil] at hall

theorem indentFrom_before (w : Nat) (start : Bool) (before : List Char) {c : Char} (hn : c ≠ '\n') (hr : c ≠ '\r') :
    ∃ before', inked before' = inked before ∧
      ∀ rest, indentFrom w start (before ++ c :: rest) = before' ++ c :: indentFrom w false rest := by
  have hblanks (start : Bool) : inked (if start then List.replicate w ' ' else []) = [] := by
    cases start with
    | false => rfl
    | true => simp [inked]
  induction before generalizing start with
  | nil =>
    refine ⟨if start then List.replicate w ' ' else [], hblanks start, fun rest => ?_⟩
    simp [indentFrom, hn, hr]
  | cons x xs ih =>
    have hhead (rest : List Char) : (xs ++ c :: rest).head? = (xs ++ [c]).head? := by cases xs <;> rfl
    by_cases hx : x = '\n'
    · -- the line ends
      obtain ⟨before', hinked, hrest⟩ := ih true
      refine ⟨'\n' :: before', ?_, fun rest => ?_⟩
      · rw [hx, inked, inked, List.filter_cons, List.filter_cons]
        simpa [inked] using hinked
      · rw [List.cons_append, indentFrom, if_pos hx, hrest, List.cons_append]
    · by_cases hcr : x = '\r' ∧ (xs ++ [c]).head? = some '\n'
      · -- a part of the ending of a line is left out
        obtain ⟨before', hinked, hrest⟩ := ih start
        refine ⟨before', ?_, fun rest => ?_⟩
        · rw [hinked, hcr.1]
          simp [inked]
        · rw [List.cons_append, indentFrom, if_neg hx, hhead, if_pos hcr, hrest]
      · obtain ⟨before', hinked, hrest⟩ := ih false
        refine ⟨(if start then List.replicate w ' ' else []) ++ x :: before', ?_, fun rest => ?_⟩
        · have hsplit : inked ((if start then List.replicate w ' ' else []) ++ x :: before') =
              inked (if start then List.replicate w ' ' else []) ++ inked (x :: before') := List.filter_append _ _
          rw [hsplit, hblanks, List.nil_append, inked, inked, List.filter_cons, List.filter_cons]
          rw [show before'.filter (fun c => c != ' ' && c != '\r') = xs.filter _ from hinked]
        · rw [List.cons_append, indentFrom, if_neg hx, hhead, if_neg hcr, hrest]
          simp

/-- a head is indented as one line, but for its limit -/
theorem indentFrom_head (w : Nat) (start : Bool) (before : List Char) (head : LoopHead) (limit : List Char) :
    ∃ before' limit', inked limit' = inked limit ∧ ∀ rest,
      indentFrom w start (before ++ head.chars limit ++ rest) =
        before' ++ head.chars limit' ++ indentFrom w false rest := by
  have hcounter : '\n' ∉ head.counter.toList := newline_notMem_counterName head.number
  have hopening : '\n' ∉ "or (int ".toList ++ head.counter.toList ++ " = 0; ".toList ++ head.counter.toList ++
      " <".toList := by
    simp [hcounter]
  have hclosing : '\n' ∉ " ".toList ++ head.counter.toList ++ "++) ".toList := by simp [hcounter]
  obtain ⟨before', -, hbefore⟩ := indentFrom_before w start before (c := 'f') (by decide) (by decide)
  obtain ⟨limit', hlimit, hrest⟩ := indentFrom_before w false limit (c := ';') (by decide) (by decide)
  refine ⟨before', limit', hlimit, fun rest => ?_⟩
  have hsplit (before limit rest : List Char) : before ++ head.chars limit ++ rest =
      before ++ 'f' :: ("or (int ".toList ++ head.counter.toList ++ " = 0; ".toList ++ head.counter.toList ++
        " <".toList ++ ' ' :: (limit ++ ';' :: (" ".toList ++ head.counter.toList ++ "++) ".toList ++ '\x7b' :: rest))) := by
    rw [LoopHead.chars_eq]
    simp only [List.append_assoc, List.cons_append, List.nil_append]
  rw [hsplit, hsplit, hbefore, indentFrom_within w false hopening (by decide) (by decide), hrest,
    indentFrom_within w false hclosing (by decide) (by decide)]
  simp only [Bool.false_eq_true, if_false, List.nil_append]

/-- **Heads stay in indented text**, in order, their limits up to indentation. -/
theorem Woven.indent (h : Woven heads cs) (w : Nat) (start : Bool) : Woven heads (indentFrom w start cs) := by
  induction h generalizing start with
  | plain => exact .plain _
  | @head head heads before limit rest hlimit _ ih =>
    obtain ⟨before', limit', hinked, hrest⟩ := indentFrom_head w start before head limit
    rw [hrest]
    exact .head before' (hinked.trans hlimit) (ih false)

theorem Woven.trimEnd (h : Woven heads cs) : Woven heads (dropBlankEnd cs) := by
  induction h with
  | plain => exact .plain _
  | @head head heads before limit rest hlimit _ ih =>
    obtain ⟨middle, hmiddle⟩ := head.chars_between limit
    have hsplit (rest : List Char) :
        before ++ head.chars limit ++ rest = before ++ ("for (".toList ++ middle) ++ '\x7b' :: rest := by
      rw [hmiddle]
      simp only [List.append_assoc, List.singleton_append]
    rw [hsplit, dropBlankEnd_append (by decide), ← hsplit]
    exact .head before hlimit ih

end

/-- the heads between pieces of text are found whatever the blocks are -/
theorem woven_reader (w : Nat) :
    LoopReader w (fun _ => True) (fun heads text => Woven heads text.toList) (fun heads text => Woven heads text.toList) where
  inside _ _ _ := trivial
  nothing := .plain _
  append h h' := by
    rw [String.toList_append]
    exact h.append h'
  indent h := by
    rw [toList_indentLines]
    exact h.indent w true
  simple _ _ _ _ := .plain _
  loop _ _ n _ body h := by
    rw [String.toList_append, String.toList_append, String.toList_append, LoopHead.toList_text]
    exact .head [] rfl (h.between _ _)
  branch _ _ n _ _ body h := by
    rw [String.toList_append, toList_braced]
    exact (h.between _ _).after _
  otherwise h := by
    rw [toList_braced]
    exact h.between _ _
  join h h' := by
    rw [String.toList_append, String.toList_append, List.append_assoc]
    exact h.append (h'.after _)
  close h := by
    rw [String.toList_append]
    exact h.between [] _

/-! ## Loops in a sketch -/

section

variable {program : Program} {board : Board} {indent : Nat} {sketch : String}

theorem woven_setup (program : Program) (indent : Nat) :
    Woven (loopHeads 0 (chainLoops program.setup))
      (indentLines indent ((Registry.ofNeeds (program.needs indent)).render .setup)).toList := by
  have hreader := woven_reader indent
  by_cases hne : program.setup = []
  · rw [hne]
    exact .plain _
  · have htext : Woven (loopHeads 0 (chainLoops program.setup)) (program.setupText indent).toList :=
      hreader.chain (fun b _ => hreader.code b trivial) 0
    apply hreader.indent
    refine found_setup (P := fun heads text => Woven heads text.toList) ?_ hne ?_ fun _ _ _ => .plain _
    · intro hs hs' x y h h'
      rw [String.toList_append, String.toList_append, List.append_assoc]
      exact h.append (h'.after _)
    · rw [trimEnd, String.toList_ofList]
      exact htext.trimEnd

/-- **The heads of all loops stand in a sketch**, in order, whatever the board. -/
theorem woven_sketch (h : (program.generate board Table.builtin indent).1 = .ok sketch) :
    Woven (loopHeads 0 program.loops) sketch.toList := by
  have hreader := woven_reader indent
  have hmain : Woven (loopHeads (chainLoops program.setup).length (chainLoops program.main))
      (indentLines indent (program.mainText indent)).toList := by
    rw [Program.mainText_eq]
    exact hreader.indent (hreader.chain (fun b _ => hreader.code b trivial) _)
  rw [sketch_eq_assemble h, Program.loops, loopHeads_append, Nat.zero_add]
  simp only [Registry.assemble, String.toList_append, List.append_assoc]
  have hend := hmain.append (.plain "\x7d\n".toList)
  rw [List.append_nil] at hend
  exact .after (.after (.after ((woven_setup program indent).append (.after (.after hend _) _)) _) _) _

/-- the loops of a program and their heads in its sketch -/
structure LoopsNumbered (program : Program) (board : Board) (indent : Nat) (sketch : String) : Prop where
  /-- the loops listed are the loops that are walked -/
  walked : ∀ b, b ∈ program.loops ↔ ∃ level, Walked program .statement level b ∧ b.kind = "controls_repeat_ext"
  /-- they are listed in the order in which the journal has them -/
  order : (program.generate board Table.builtin indent).2.filterMap loopNote? = program.loops.map Block.id
  /-- the counter of the first is `count`, those of the others have their number behind it -/
  named : ∀ k b, program.loops[k]? = some b → ∃ head, (loopHeads 0 program.loops)[k]? = some head ∧
    head.limit = b.limit ∧ head.counter = if k = 0 then "count" else "count" ++ toString (k + 1)
  /-- no two of them have one counter -/
  distinct : ((loopHeads 0 program.loops).map LoopHead.counter).Nodup
  /-- each of them is written with its head, one after the other -/
  woven : Woven (loopHeads 0 program.loops) sketch.toList
  /-- for a built-in board, the heads are lines, and there are no other lines that begin a loop -/
  lines : board ∈ Board.builtins → ∃ lines, sketch.toList = unlines lines ∧ (∀ line ∈ lines, '\n' ∉ line) ∧
    lines.filterMap loopLine? = (loopHeads 0 program.loops).map fun head => head.text.toList

theorem loopHeads_getElem? (before k : Nat) (loops : List Block) :
    (loopHeads before loops)[k]? = loops[k]?.map fun b => ⟨before + k + 1, b.limit⟩ := by
  rw [loopHeads, List.getElem?_mapIdx]

theorem counter_of_number {head : LoopHead} {k : Nat} (h : head.number = k + 1) :
    head.counter = if k = 0 then "count" else "count" ++ toString (k + 1) := by
  have hfirst : k + 1 = 1 ↔ k = 0 := by omega
  rw [LoopHead.counter, h, counterName]
  simp only [hfirst]
  rfl

/-- **The counters of the loops in a sketch are pairwise distinct.** Whatever program becomes a sketch, the k-th of its
loops in the order of the walk, through the setup chain and then the main chain, is written with a head in which the
counter is `count` for the first and has the number k behind it for the others, in all three places; so that no loop has
the counter of another, whether it stands around it, behind it or in the other routine. -/
theorem loop_counters_distinct (h : (program.generate board Table.builtin indent).1 = .ok sketch) :
    LoopsNumbered program board indent sketch where
  walked _ := mem_loops_iff (sound_of_succeeds ⟨sketch, h⟩)
  order := Program.loopNotes_of_generate h
  named := by
    intro k b hb
    refine ⟨⟨k + 1, b.limit⟩, ?_, rfl, counter_of_number rfl⟩
    rw [loopHeads_getElem?, hb, Nat.zero_add]
    rfl
  distinct := counters_nodup 0 program.loops
  woven := woven_sketch h
  lines hboard := sketch_headLines hboard h

end

/-- a loop in the setup chain; in the main chain, a conditional with a loop in a loop, and another loop in its last
branch -/
def sampleLoops : Program where
  board := none
  setup := [sampleLoop "first" [⟨"wait", "time_delay", [], [], [], default⟩]]
  main := [⟨"choice", "controls_if", [], [],
    [("DO0", [sampleLoop "outer" [sampleLoop "inner" []]]), ("ELSE", [sampleLoop "last" []])], default⟩]
  sourceId := 0
where
  sampleLoop (id : String) (body : List Block) : Block :=
    ⟨id, "controls_repeat_ext", [], [("TIMES", ⟨id ++ "-times", "math_number", [("NUM", "3")], [], [], default⟩)],
      [("DO", body)], default⟩

/-- four loops, in both routines and in two branches -/
theorem loop_counters_distinct_nested :
    sampleLoops.loops.map Block.id = ["first", "outer", "inner", "last"] ∧
      (loopHeads 0 sampleLoops.loops).map LoopHead.text =
        ["for (int count = 0; count < 3; count++) \x7b", "for (int count2 = 0; count2 < 3; count2++) \x7b",
          "for (int count3 = 0; count3 < 3; count3++) \x7b", "for (int count4 = 0; count4 < 3; count4++) \x7b"] ∧
      ∃ sketch, (sampleLoops.generate Board.uno Table.builtin 2).1 = .ok sketch ∧
        LoopsNumbered sampleLoops Board.uno 2 sketch := by
  have hsome : (sampleLoops.generate Board.uno Table.builtin 2).1.toOption.isSome = true := by decide +kernel
  refine ⟨by decide +kernel, by decide +kernel, ?_⟩
  cases hrun : (sampleLoops.generate Board.uno Table.builtin 2).1 with
  | error e =>
    rw [hrun] at hsome
    cases hsome
  | ok sketch => exact ⟨sketch, rfl, loop_counters_distinct hrun⟩

end BlockSketch
