/-
The lines of a sketch that begin a loop.

In a sketch for a built-in board nothing that is taken over from a field breaks a line, so the head of a loop is a line.
`loopLine?` tells the lines that begin a loop from the others: they start with `for (`, after blanks, and end by opening a
brace. `HeadLines heads lines` says of lines that those which begin a loop are the heads, in order; no other line looks
like one, whatever is printed or called.

Results:
- `loopLine?_head`, `loopLine?_of_first`, `loopLine?_of_last`: which lines begin a loop;
- `lined_reader`: the heads in the code of blocks that get through on a built-in board are lines of it;
- `found_setup`, `lined_section`: what is found in the statements of the setup chain is found in its section;
- `sketch_headLines`: the lines of a sketch that begin a loop are the heads of the loops of its program.
-/
import BlockSketch.Proofs.LoopOrder
import BlockSketch.Proofs.SketchLayout

namespace BlockSketch

open Nesting Text

/-! ## Lines that begin a loop -/

/-- the line without the blanks before it, if it begins a loop: it starts with `for (` and opens a brace -/
def loopLine? (line : List Char) : Option (List Char) :=
  let code := line.dropWhile (· == ' ')
  if "for (".toList.isPrefixOf code && code.getLast? == some '\x7b' then some code else none

theorem loopLine?_indented (w : Nat) (line : List Char) : loopLine? (indented w line) = loopLine? line := by
  have hblanks : (indented w line).dropWhile (· == ' ') = line.dropWhile (· == ' ') := by
    unfold indented
    induction w with
    | zero => rfl
    | succ w ih => rw [List.replicate_succ, List.cons_append, List.dropWhile_cons_of_pos (by decide), ih]
  rw [loopLine?, hblanks]
  rfl

/-- a line that does not end by opening a brace does not begin a loop -/
theorem loopLine?_of_last {line : List Char} (h : line.getLast? ≠ some '\x7b') : loopLine? line = none := by
  refine if_neg fun hloop => h ?_
  rw [Bool.and_eq_true, beq_iff_eq] at hloop
  -- the last character of what is left is the last character of the line
  have hsplit := List.takeWhile_append_dropWhile (p := (· == ' ')) (l := line)
  rw [← hsplit, List.getLast?_append, hloop.2]
  rfl

theorem loopLine?_of_unbraced {line : List Char} (h : '\x7b' ∉ line) : loopLine? line = none :=
  loopLine?_of_last fun hlast => h (List.mem_of_getLast? hlast)

/-- nor does a line that starts with something else -/
theorem loopLine?_of_first {c : Char} (hblank : c ≠ ' ') (hfirst : c ≠ 'f') (rest : List Char) :
    loopLine? (c :: rest) = none := by
  have hcode : (c :: rest).dropWhile (· == ' ') = c :: rest := List.dropWhile_cons_of_neg (by simpa using hblank)
  have hstart : "for (".toList.isPrefixOf (c :: rest) = false := by
    have hfor : "for (".toList = 'f' :: "or (".toList := by decide
    rw [hfor, List.isPrefixOf_cons_cons, beq_eq_false_iff_ne.2 hfirst.symm, Bool.false_and]
  rw [loopLine?, hcode, hstart]
  rfl

theorem loopLine?_head (head : LoopHead) : loopLine? head.text.toList = some head.text.toList := by
  obtain ⟨middle, hmiddle⟩ := head.chars_between head.limit.toList
  have htext : head.text.toList = "for (".toList ++ middle ++ ['\x7b'] := (head.toList_text).trans hmiddle
  have hcode : head.text.toList.dropWhile (· == ' ') = head.text.toList := by
    have hfor : "for (".toList = 'f' :: "or (".toList := by decide
    rw [htext, hfor]
    exact List.dropWhile_cons_of_neg (by decide)
  have hstart : "for (".toList.isPrefixOf head.text.toList = true := by
    rw [htext, List.append_assoc]
    exact List.isPrefixOf_iff_prefix.2 (List.prefix_append _ _)
  have hlast : head.text.toList.getLast? = some '\x7b' := by rw [htext, List.getLast?_concat]
  rw [loopLine?, hcode, hstart, hlast]
  rfl

theorem newline_notMem_counterName (n : Nat) : '\n' ∉ (counterName n).toList :=
  (tidy_word (isPlainWord_of_isIdentifier (isIdentifier_counterName n))).1

theorem newline_notMem_head {head : LoopHead} (h : '\n' ∉ head.limit.toList) : '\n' ∉ head.text.toList := by
  have hcounter : '\n' ∉ head.counter.toList := newline_notMem_counterName head.number
  rw [LoopHead.toList_text, LoopHead.chars_eq]
  simp [hcounter, h]

/-- whole lines, of which those that begin a loop are the heads -/
structure HeadLines (heads : List LoopHead) (lines : List (List Char)) : Prop where
  whole : ∀ line ∈ lines, '\n' ∉ line
  ending : ∀ line ∈ lines, EndsFilled line
  found : lines.filterMap loopLine? = heads.map fun head => head.text.toList

namespace HeadLines

variable {heads heads' : List LoopHead} {lines lines' : List (List Char)} {line : List Char}

theorem nil : HeadLines [] [] := ⟨by simp, by simp, rfl⟩

theorem other (hwhole : '\n' ∉ line) (hend : EndsFilled line) (h : loopLine? line = none) : HeadLines [] [line] :=
  ⟨by simpa using hwhole, by simpa using hend, by simp [h]⟩

theorem head {head : LoopHead} (h : '\n' ∉ head.limit.toList) : HeadLines [head] [head.text.toList] := by
  refine ⟨by simpa using newline_notMem_head h, ?_, by simp [loopLine?_head]⟩
  obtain ⟨middle, hmiddle⟩ := head.chars_between head.limit.toList
  have hbrace : EndsFilled ['\x7b'] := by decide
  have hend : EndsFilled ("for (".toList ++ middle ++ ['\x7b']) := hbrace.append
  simpa [LoopHead.toList_text, hmiddle] using hend

theorem append (h : HeadLines heads lines) (h' : HeadLines heads' lines') :
    HeadLines (heads ++ heads') (lines ++ lines') where
  whole := List.forall_mem_append.2 ⟨h.whole, h'.whole⟩
  ending := List.forall_mem_append.2 ⟨h.ending, h'.ending⟩
  found := by rw [List.filterMap_append, h.found, h'.found, List.map_append]

theorem indent (h : HeadLines heads lines) (w : Nat) : HeadLines heads (lines.map (indented w)) where
  whole := by
    intro line hline
    obtain ⟨line, hmem, rfl⟩ := List.mem_map.1 hline
    simpa [indented] using h.whole line hmem
  ending := by
    intro line hline
    obtain ⟨line, hmem, rfl⟩ := List.mem_map.1 hline
    exact (h.ending line hmem).append
  found := by
    have hsame : loopLine? ∘ indented w = loopLine? := funext fun line => loopLine?_indented w line
    rw [List.filterMap_map, hsame, h.found]

theorem closing : HeadLines [] [['\x7d']] := other (by decide) (by decide) (by decide)

end HeadLines

/-! ## Code in lines -/

/-- the text is lines, of which those that begin a loop are the heads -/
def Lined (heads : List LoopHead) (text : String) : Prop :=
  ∃ lines, text.toList = unlines lines ∧ HeadLines heads lines

/-- the text is a heading that begins no loop, lines, and the brace that closes the last of them -/
def LinedBranches (heads : List LoopHead) (text : String) : Prop :=
  ∃ first lines, text.toList = unlines (first :: lines) ++ ['\x7d'] ∧ HeadLines [] [first] ∧ HeadLines heads lines

section

variable {heads heads' : List LoopHead} {text text' : String}

theorem Lined.append (h : Lined heads text) (h' : Lined heads' text') : Lined (heads ++ heads') (text ++ text') := by
  obtain ⟨lines, htext, hlines⟩ := h
  obtain ⟨lines', htext', hlines'⟩ := h'
  refine ⟨lines ++ lines', ?_, hlines.append hlines'⟩
  rw [String.toList_append, htext, htext', unlines_append]

theorem Lined.indent (h : Lined heads text) (w : Nat) : Lined heads (indentLines w text) := by
  obtain ⟨lines, htext, hlines⟩ := h
  refine ⟨lines.map (indented w), ?_, hlines.indent w⟩
  rw [toList_indentLines, htext, indentFrom_unlines hlines.whole hlines.ending]

theorem lined_sentence {line : String} (h : '\n' ∉ line.toList) : Lined [] (line ++ ";\n") := by
  have hend : EndsFilled [';'] := by decide
  refine ⟨[line.toList ++ [';']], by simp, .other ?_ hend.append (loopLine?_of_last ?_)⟩
  · simpa using h
  · simp

/-- a loop in lines: its head, its body and the brace that closes it -/
theorem Lined.loop {head : LoopHead} (h : Lined heads text) (hlimit : '\n' ∉ head.limit.toList) :
    Lined (head :: heads) (head.text ++ ("\n" ++ text ++ "\x7d\n")) := by
  obtain ⟨lines, htext, hlines⟩ := h
  have hall := (HeadLines.head hlimit).append (hlines.append .closing)
  rw [List.append_nil] at hall
  exact ⟨_, by simp [htext], hall⟩

theorem linedBranches_braced {before : String} (hwhole : '\n' ∉ before.toList)
    (hother : loopLine? (before.toList ++ ['\x7b']) = none) (h : Lined heads text) :
    LinedBranches heads (before ++ Library.braced text) := by
  obtain ⟨lines, htext, hlines⟩ := h
  have hend : EndsFilled ['\x7b'] := by decide
  refine ⟨before.toList ++ ['\x7b'], lines, by simp [toList_braced, htext], .other ?_ hend.append hother, hlines⟩
  simpa using hwhole

/-- the brace that closes a branch and the heading of the next stand on one line, which begins no loop -/
theorem LinedBranches.join (h : LinedBranches heads text) (h' : LinedBranches heads' text') :
    LinedBranches (heads ++ heads') (text ++ " else " ++ text') := by
  obtain ⟨first, lines, htext, hfirst, hlines⟩ := h
  obtain ⟨first', lines', htext', hfirst', hlines'⟩ := h'
  have hbetween : HeadLines [] [("\x7d else ".toList ++ first')] := by
    refine .other ?_ (hfirst'.ending first' List.mem_cons_self).append ?_
    · simpa using hfirst'.whole first' List.mem_cons_self
    · exact loopLine?_of_first (by decide) (by decide) _
  exact ⟨first, lines ++ ([("\x7d else ".toList ++ first')] ++ lines'), by simp [htext, htext'], hfirst,
    hlines.append (hbetween.append hlines')⟩

theorem LinedBranches.close (h : LinedBranches heads text) : Lined heads (text ++ "\n") := by
  obtain ⟨first, lines, htext, hfirst, hlines⟩ := h
  have hall := hfirst.append (hlines.append .closing)
  rw [List.append_nil] at hall
  exact ⟨_, by simp [htext], hall⟩

end

/-! ## Blocks -/

namespace Kind

variable {k : Kind} {b : Block} {texts : List String}

/-- what is neither a loop nor a conditional asks for values only -/
theorem requests_of_simple (hrepeat : k ≠ .controlsRepeat) (hif : k ≠ .controlsIf) (word : String) {request : Request}
    (h : request ∈ k.requests b word) : ∃ slot required default, request = .value slot required default := by
  cases k with
  | controlsRepeat => exact absurd rfl hrepeat
  | controlsIf => exact absurd rfl hif
  | _ =>
    simp only [requests, List.mem_cons, List.not_mem_nil, or_false] at h
    all_goals grind

/-- a simple statement is a line that ends in a semicolon -/
theorem sentence_line (hs : k.shape = .statement) (hrepeat : k ≠ .controlsRepeat) (hif : k ≠ .controlsIf)
    (hfault : k.fault? b = none) (hpin : k.role?.isSome = true → isPlainWord (k.word b) = true)
    (h : '\n' ∉ (texts.getD 0 "").toList) :
    ∃ line, k.sentence b (k.word b) texts = line ++ ";\n" ∧ '\n' ∉ line.toList := by
  have hcall (front : String) (hfront : '\n' ∉ front.toList) :
      ∃ line, front ++ ");\n" = line ++ ";\n" ∧ '\n' ∉ line.toList := by
    have hend : ");\n" = ")" ++ ";\n" := by decide
    refine ⟨front ++ ")", by rw [hend, String.append_assoc], ?_⟩
    simpa using hfront
  have hword {word : String} (hplain : isPlainWord word = true) : '\n' ∉ word.toList := (tidy_word hplain).1
  rw [List.getD_eq_getElem?_getD] at h
  cases k with
  | servoWrite =>
    apply hcall
    simp [hword (isPlainWord_servoName (hpin rfl)), h]
  | ledColor =>
    have hcolors : ∀ color ∈ Library.colors, '\n' ∉ color.toList := by decide
    have hcolor := hcolors _ (List.contains_iff_mem.1 (word_accepted hfault rfl))
    have hend : "\");\n" = "\"" ++ ");\n" := by decide
    have htext : ledColor.sentence b (ledColor.word b) texts =
        "Rob.SetAllLed(\"" ++ ledColor.word b ++ "\"" ++ ");\n" := by
      rw [String.append_assoc, ← hend]
      rfl
    rw [htext]
    apply hcall
    simp [hcolor]
  | digitalWrite =>
    apply hcall
    simp [hword (hpin rfl), h]
  | analogWrite =>
    apply hcall
    simp [hword (hpin rfl), h]
  | timeDelay =>
    apply hcall
    simp [h]
  | serialPrint =>
    have hmethod : '\n' ∉ (if Library.endsLine b then "println" else "print").toList := by split <;> decide
    apply hcall
    simp [hword (hpin rfl), hmethod, h]
  | controlsRepeat => exact absurd rfl hrepeat
  | controlsIf => exact absurd rfl hif
  | _ => cases hs

end Kind

/-- **The heads of loops are lines** in the code of blocks that get through on a built-in board, and no other line begins
a loop. -/
theorem lined_reader {board : Board} (hboard : board ∈ Board.builtins) (w : Nat) :
    LoopReader w (fun b => ∃ level, ∀ action ∈ b.actions .statement level, action.Admissible board) Lined
      LinedBranches where
  inside := by
    rintro b c slot ⟨level, h⟩ hrequest hc
    exact ⟨level + 1, Block.admissible_inside h hrequest ⟨.statement, slot⟩ rfl hc⟩
  nothing := ⟨[], rfl, .nil⟩
  append h h' := h.append h'
  indent h := h.indent w
  simple := by
    rintro b ⟨level, h⟩ hrepeat hif loops
    obtain ⟨-, k, hk, hshape, hfault⟩ := Block.refusal?_eq_none_iff.1 (Block.refusal?_of_admissible h)
    have hrepeat : k ≠ .controlsRepeat := fun heq => hrepeat (heq ▸ hk)
    have hif : k ≠ .controlsIf := fun heq => hif (heq ▸ hk)
    have hanswers := answered_texts (fun _ hrequest => Block.answered hboard w h hrequest) loops
    have hvalues : ∀ r ∈ b.requests, ∃ slot required default, r = .value slot required default := by
      rw [Block.requests_of_kind hk]
      exact fun r hr => Kind.requests_of_simple hrepeat hif _ hr
    obtain ⟨line, hline, hwhole⟩ := Kind.sentence_line hshape hrepeat hif hfault
      (Block.isPlainWord_of_admissible hboard h hk) (tidy_answers hanswers hvalues 0).1
    rw [Block.code_of_kind hk hshape, Block.texts, hline]
    exact lined_sentence hwhole
  loop := by
    rintro b ⟨level, h⟩ hrepeat n hs body hbody
    have hrequest : .value "TIMES" Order.relational.tighter "0" ∈ b.requests := by
      rw [Block.requests_of_kind hrepeat]
      exact List.mem_cons_self
    have hlimit : Tidy b.limit.toList := Block.answered hboard w h hrequest 0
    exact hbody.loop hlimit.1
  branch := by
    rintro b ⟨level, h⟩ hif n hn hs body hbody
    have hrequest : .value ("IF" ++ toString n) .lowest "false" ∈ b.requests := by
      rw [Block.requests_of_kind hif, Kind.requests, Kind.branchRequests]
      refine List.mem_append_left _ (List.mem_flatMap.2 ⟨n, List.mem_range.2 hn, List.mem_cons_self⟩)
    have hcondition : Tidy (b.condition n).toList := Block.answered hboard w h hrequest 0
    refine linedBranches_braced ?_ ?_ hbody
    · simpa using hcondition.1
    · have hopen : "if (".toList = 'i' :: "f (".toList := by decide
      rw [String.toList_append, String.toList_append, hopen]
      exact loopLine?_of_first (by decide) (by decide) _
  otherwise h := by
    have hwhole : '\n' ∉ "".toList := by decide
    have hbranch := linedBranches_braced hwhole (by decide) h
    rwa [String.empty_append] at hbranch
  join h h' := h.join h'
  close h := h.close

/-! ## Sections -/

/-- the text is lines without the last newline, of which those that begin a loop are the heads -/
def LinedPiece (heads : List LoopHead) (text : String) : Prop :=
  ∃ lines, text.toList ++ ['\n'] = unlines lines ∧ lines ≠ [] ∧ HeadLines heads lines

section

variable {heads heads' : List LoopHead} {text text' : String}

theorem LinedPiece.joined (h : LinedPiece heads text) (h' : LinedPiece heads' text') :
    LinedPiece (heads ++ heads') (text ++ "\n" ++ text') := by
  obtain ⟨lines, htext, hne, hlines⟩ := h
  obtain ⟨lines', htext', -, hlines'⟩ := h'
  refine ⟨lines ++ lines', ?_, by simp [hne], hlines.append hlines'⟩
  rw [unlines_append, ← htext, ← htext']
  simp

theorem LinedPiece.indent (h : LinedPiece heads text) (w : Nat) : Lined heads (indentLines w text) := by
  obtain ⟨lines, htext, hne, hlines⟩ := h
  refine ⟨lines.map (indented w), ?_, hlines.indent w⟩
  rw [toList_indentLines, indentFrom_unended hne hlines.whole hlines.ending htext]

theorem Lined.trimmed (h : Lined heads text) (hne : text ≠ "") : LinedPiece heads (trimEnd text) := by
  obtain ⟨lines, htext, hlines⟩ := h
  have hnil := lines_ne_nil hne htext
  exact ⟨lines, trimEnd_unlines hnil hlines.ending htext, hnil, hlines⟩

theorem Need.Plain.linedPiece {need : Need} (h : need.Plain) : LinedPiece [] need.text :=
  ⟨[need.text.toList], by simp, List.cons_ne_nil _ _,
    .other h.oneLine.inLine.1 h.oneLine.ending (loopLine?_of_unbraced h.open_brace)⟩

theorem lined_section {needs : List Need} {s : Section} (h : ∀ need ∈ needs, need.place = s → need.Plain) (w : Nat) :
    Lined [] (indentLines w ((Registry.ofNeeds needs).render s)) := by
  rw [Registry.render_ofNeeds]
  by_cases hnil : byRank (firstPerKey (needsIn s needs)) = []
  · rw [hnil]
    exact ⟨[], rfl, .nil⟩
  · refine LinedPiece.indent (intercalate_induction (fun _ _ hx hy => hx.joined hy) ?_ fun text ht => ?_) w
    · simpa using hnil
    · obtain ⟨need, hneed, rfl⟩ := List.mem_map.1 ht
      obtain ⟨hmem, hplace⟩ := mem_of_mem_section hneed
      exact (h need hmem hplace).linedPiece

end

section

variable {program : Program} {board : Board} {indent : Nat} {sketch : String}

/-- what is found in the setup statements is found in their section, if nothing is found in its other pieces -/
theorem found_setup {P : List LoopHead → String → Prop}
    (hjoin : ∀ hs hs' x y, P hs x → P hs' y → P (hs ++ hs') (x ++ "\n" ++ y)) (hne : program.setup ≠ [])
    {heads : List LoopHead} (hsetup : P heads (trimEnd (program.setupText indent)))
    (hother : ∀ need ∈ program.needs indent, need.key ≠ "user_setup" → P [] need.text) :
    P heads ((Registry.ofNeeds (program.needs indent)).render .setup) := by
  have hkeys : ∀ need ∈ needsIn .setup (program.setup.flatMap Block.needs), need.key ≠ "user_setup" :=
    fun _ => Block.key_ne_user
  obtain ⟨first, last, -, hsplit⟩ := byRank_setup hkeys (needsIn .setup (program.main.flatMap Block.needs))
  have hsection := hsplit (trimEnd (program.setupText indent))
  rw [← Program.needsIn_setup hne] at hsection
  have haround (need : Need) (hneed : need ∈ first ++ last) : P [] need.text := by
    apply hother need
    · apply And.left
      apply mem_of_mem_section (s := .setup)
      rw [hsection]
      exact List.perm_middle.mem_iff.2 (List.mem_cons_of_mem _ hneed)
    · exact key_ne_of_around hsection need hneed
  have hpieces {needs : List Need} (h : ∀ need ∈ needs, P [] need.text) :
      List.Forall₂ P (needs.map fun _ => []) (needs.map Need.text) := by
    rw [List.forall₂_map_left_iff, List.forall₂_map_right_iff, List.forall₂_same]
    exact h
  have hfirst := hpieces fun need hn => haround need (List.mem_append_left _ hn)
  have hlast := hpieces fun need hn => haround need (List.mem_append_right _ hn)
  have hall := found_intercalate hjoin (List.rel_append hfirst (.cons hsetup hlast)) (by simp)
  rw [Registry.render_ofNeeds, hsection]
  simpa [userSetup] using hall

theorem lined_setup (hboard : board ∈ Board.builtins)
    (hadm : ∀ action ∈ program.actions board indent, action.Admissible board) :
    Lined (loopHeads 0 (chainLoops program.setup))
      (indentLines indent ((Registry.ofNeeds (program.needs indent)).render .setup)) := by
  have hneeds := program.needs_cases hboard hadm
  by_cases hne : program.setup = []
  · -- there are no setup statements
    have hnone : program.setupText indent = "" := by rw [Program.setupText, hne, chainCodeText_nil]
    rw [hne]
    refine lined_section (fun need hneed _ => ?_) indent
    exact (hneeds need hneed).resolve_right fun hsetup => hsetup.2 hnone
  · have hsetup : ∀ action ∈ chainActions program.setup 1, action.Admissible board := fun action ha =>
      hadm action (mem_program_actions.2 (.inr (.inl (List.mem_flatMap.1 ha))))
    have hfilled : program.setupText indent ≠ "" := by
      have hempty : (program.setupText indent).isEmpty = program.setup.isEmpty := Program.setupText_isEmpty hsetup
      intro hnone
      rw [hnone] at hempty
      exact hne (List.isEmpty_iff.1 hempty.symm)
    have hreader := lined_reader hboard indent
    have hlined : Lined (loopHeads 0 (chainLoops program.setup)) (program.setupText indent) :=
      hreader.chain (fun b hb => hreader.code b ⟨1, fun action ha => hsetup action (List.mem_flatMap.2 ⟨b, hb, ha⟩)⟩) 0
    refine (found_setup (fun _ _ _ _ h h' => h.joined h') hne (hlined.trimmed hfilled) fun need hneed hkey => ?_).indent
      indent
    rcases hneeds need hneed with hplain | ⟨rfl, -⟩
    · exact hplain.linedPiece
    · exact absurd rfl hkey

theorem lined_main (hboard : board ∈ Board.builtins)
    (hadm : ∀ action ∈ program.actions board indent, action.Admissible board) :
    Lined (loopHeads (chainLoops program.setup).length (chainLoops program.main))
      (indentLines indent (program.mainText indent)) := by
  have hreader := lined_reader hboard indent
  rw [Program.mainText_eq]
  refine (hreader.chain (fun b hb => hreader.code b ⟨1, fun action ha => ?_⟩) _).indent indent
  exact hadm action (mem_program_actions.2 (.inr (.inr (.inr ⟨b, hb, ha⟩))))

/-- **The lines of a sketch that begin a loop**, for a built-in board, are the heads of the loops of its program, and no
head is spread over lines. -/
theorem sketch_headLines (hboard : board ∈ Board.builtins)
    (h : (program.generate board Table.builtin indent).1 = .ok sketch) :
    ∃ lines, sketch.toList = unlines lines ∧ (∀ line ∈ lines, '\n' ∉ line) ∧
      lines.filterMap loopLine? = (loopHeads 0 program.loops).map fun head => head.text.toList := by
  obtain ⟨q, hrun⟩ := succeeds_iff_performAll.1 ⟨sketch, h⟩
  have hadm := performAll_admissible hrun
  have hplain {s : Section} (hs : s ≠ .setup) : ∀ need ∈ program.needs indent, need.place = s → need.Plain := by
    intro need hneed hplace
    rcases program.needs_cases hboard hadm need hneed with hplain | ⟨rfl, -⟩
    · exact hplain
    · exact absurd hplace.symm hs
  obtain ⟨includes, hincludes, hunbraced, hlaid⟩ := preamble_lines (hplain (by decide : Section.includes ≠ .setup)) indent
  obtain ⟨declarations, hdeclarations, hunbraced', hlaid'⟩ :=
    preamble_lines (hplain (by decide : Section.declarations ≠ .setup)) indent
  obtain ⟨setup, hsetup, hsetupLines⟩ := lined_setup hboard hadm
  obtain ⟨body, hbody, hbodyLines⟩ := lined_section (hplain (by decide : Section.body ≠ .setup)) indent
  obtain ⟨main, hmain, hmainLines⟩ := lined_main hboard hadm
  refine ⟨sketchLines (includes ++ declarations) setup (body ++ main), ?_, ?_, ?_⟩
  · rw [sketch_eq_assemble h]
    exact assemble_lines hincludes hdeclarations hsetup hbody hmain
  · rw [sketchLines]
    simp only [List.forall_mem_append, List.forall_mem_cons]
    exact ⟨⟨hlaid.whole, hlaid'.whole⟩, by decide, hsetupLines.whole, by decide, by decide, by decide,
      ⟨hbodyLines.whole, hmainLines.whole⟩, by decide, by simp⟩
  · have hpreamble : (includes ++ declarations).filterMap loopLine? = [] := by
      refine List.filterMap_eq_nil_iff.2 fun line hline => loopLine?_of_unbraced ?_
      exact List.forall_mem_append.2 ⟨hunbraced, hunbraced'⟩ line hline
    -- the lines around the statements of a routine begin no loop
    have hsetupHead : loopLine? setupHead = none := by decide
    have hloopHead : loopLine? loopHead = none := by decide
    have hend : loopLine? routineEnd = none := by decide
    have hblank : loopLine? [] = none := by decide
    calc (sketchLines (includes ++ declarations) setup (body ++ main)).filterMap loopLine?
        = setup.filterMap loopLine? ++ (body.filterMap loopLine? ++ main.filterMap loopLine?) := by
          simp only [sketchLines, List.filterMap_append, List.filterMap_cons, List.filterMap_nil, hpreamble, hsetupHead,
            hloopHead, hend, hblank, List.nil_append, List.append_nil]
      _ = (loopHeads 0 program.loops).map fun head => head.text.toList := by
          rw [hsetupLines.found, hbodyLines.found, hmainLines.found, Program.loops, loopHeads_append, Nat.zero_add,
            List.map_append]
          rfl

end

end BlockSketch
