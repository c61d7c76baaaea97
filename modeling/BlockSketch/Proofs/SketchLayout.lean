/-
The layout of a sketch follows its braces.

A sketch is the lines of its includes and declarations, and then those of its two routines, each between a heading and a
closing brace. The lines within a routine are the pieces of boilerplate, one line each, and the statements of a chain,
all of them one level further to the right.

Results:
- `Block.GetsThrough.plain_needs`: the boilerplate of blocks that get through on a built-in board is single lines without
  braces;
- `statements_section`, `preamble_lines`: what becomes of it within the routines and before them;
- `followsBraces_of_laid`: lines that follow their braces, put together to a sketch, still do;
- `layout_follows_braces`: every sketch for a built-in board is laid out by its braces.
-/
import BlockSketch.Proofs.Boilerplate
import BlockSketch.Proofs.CodeLayout

namespace BlockSketch

open Nesting Text

variable {w d : Nat} {text text' : String}

/-! ## Boilerplate -/

/-- one line without braces -/
structure Need.Plain (need : Need) : Prop where
  oneLine : TopLine need.text.toList 0
  open_brace : '\x7b' ∉ need.text.toList

theorem plain_robotNeeds : ∀ need ∈ robotNeeds, need.Plain := by
  have hlines : ∀ need ∈ robotNeeds, Tidy need.text.toList ∧ Opens need.text.toList ∧ EndsFilled need.text.toList ∧
      '\x7b' ∉ need.text.toList := by
    decide
  intro need h
  obtain ⟨htidy, hopens, hend, hbrace⟩ := hlines need h
  exact ⟨⟨htidy, hopens, hend⟩, hbrace⟩

theorem plain_roleNeeds {pin : String} (h : isPlainWord pin = true) (role : Role) :
    ∀ need ∈ role.needs pin, need.Plain := by
  have hbrace {word : String} (hw : isPlainWord word = true) : '\x7b' ∉ word.toList := fun hmem =>
    unmarked_word hw _ hmem (by decide)
  have hmode (key mode : String) (hm : isPlainWord mode = true) :
      Need.Plain ⟨.setup, key, "pinMode(" ++ pin ++ ", " ++ mode ++ ");", false⟩ := by
    have hopens : Opens "pinMode(".toList := by decide
    have hopen : InLine start "pinMode(".toList ⟨.code, 0, 1⟩ := by decide
    have hcomma : Tidy ", ".toList := by decide
    refine ⟨⟨tidy_between ?_ (tidy_word hm) (by decide), ?_, endsFilled_append (by decide) _⟩, ?_⟩
    · exact inLine_append (inLine_append hopen ((tidy_word h).at 0 1)) (hcomma.at 0 1)
    · exact opens_append (opens_append (opens_append (opens_append hopens _) _) _) _
    · simp [hbrace h, hbrace hm]
  have hinput := hmode ("io_" ++ pin) "INPUT" (by decide)
  have houtput := hmode ("io_" ++ pin) "OUTPUT" (by decide)
  have hservo := isPlainWord_servoName h
  cases role with
  | digitalInput => simpa [Role.needs] using hinput
  | analogInput => simpa [Role.needs] using hinput
  | digitalOutput => simpa [Role.needs] using houtput
  | pwm => simpa [Role.needs] using houtput
  | servo =>
    have hinclude : Need.Plain ⟨.includes, "servo", "#include <Servo.h>", false⟩ :=
      ⟨⟨by decide, by decide, by decide⟩, by decide⟩
    have hdeclaration : Need.Plain ⟨.declarations, "servo_" ++ pin, "Servo " ++ servoName pin ++ ";", false⟩ := by
      have htype : Tidy "Servo ".toList := by decide
      have hopens : Opens "Servo ".toList := by decide
      have hsemicolon : Tidy ";".toList := by decide
      refine ⟨⟨?_, ?_, endsFilled_append (by decide) _⟩, by simp [hbrace hservo]⟩
      · exact inLine_append (inLine_append htype (tidy_word hservo)) hsemicolon
      · exact opens_append (opens_append hopens _) _
    have hattach : Need.Plain ⟨.setup, "servo_" ++ pin, servoName pin ++ ".attach(" ++ pin ++ ");", true⟩ := by
      have hopen : InLine start ".attach(".toList ⟨.code, 0, 1⟩ := by decide
      refine ⟨⟨?_, ?_, endsFilled_append (by decide) _⟩, by simp [hbrace h, hbrace hservo]⟩
      · exact tidy_between (inLine_append (tidy_word hservo) hopen) (tidy_word h) (by decide)
      · exact opens_append (opens_append (opens_append (opens_word hservo) _) _) _
    simpa [Role.needs] using ⟨hinclude, hdeclaration, hattach⟩
  | serial =>
    have hbegin : Tidy ".begin(9600);".toList := by decide
    have hplain : Need.Plain ⟨.setup, "serial_" ++ pin, pin ++ ".begin(9600);", true⟩ :=
      ⟨⟨inLine_append (tidy_word h) hbegin, opens_append (opens_word h) _, endsFilled_append (by decide) _⟩,
        by simp [hbrace h]⟩
    simpa [Role.needs] using hplain
  | i2c => simp [Role.needs]
  | spi => simp [Role.needs]

namespace Block

/-- there is a place for the block where nothing is against the walk through it -/
def GetsThrough (board : Board) (b : Block) : Prop :=
  ∃ shape level, ∀ action ∈ b.actions shape level, action.Admissible board

variable {board : Board} {b c : Block}

theorem GetsThrough.inside (h : b.GetsThrough board) {request : Request} (hrequest : request ∈ b.requests) (slot : Slot)
    (hslot : request.slot? = some slot) (hc : c ∈ b.inside slot) : c.GetsThrough board := by
  obtain ⟨shape, level, hadm⟩ := h
  exact ⟨slot.shape, level + 1, admissible_inside hadm hrequest slot hslot hc⟩

/-- what a block that gets through needs is one line without braces for each piece -/
theorem GetsThrough.plain_needs (h : b.GetsThrough board) (hboard : board ∈ Board.builtins) : ∀ need ∈ b.needs, need.Plain := by
  intro need hneed
  obtain ⟨c, ⟨shape, level, hadm⟩, hown⟩ := b.own_of_mem_needs
    (fun b hb slot _ _ hrequest c hc => hb.inside hrequest ⟨.value, slot⟩ rfl (Option.mem_toList.2 hc))
    (fun b hb slot hrequest c hc => hb.inside hrequest ⟨.statement, slot⟩ rfl hc) h need hneed
  rcases c.ownNeeds_cases with ⟨-, hrobot⟩ | ⟨use, huse, hneeds⟩
  · exact plain_robotNeeds need (hrobot need hown)
  · rw [hneeds] at hown
    exact plain_roleNeeds (isPlainWord_of_supports hboard (supports_of_admissible hadm huse)) use.role need hown

end Block

/-! ## Sections -/

/-- the text is lines for which `P` holds, without the last newline -/
def Unended (w : Nat) (P : List Char → Prop) (text : String) : Prop :=
  ∃ lines, text.toList ++ ['\n'] = unlines lines ∧ lines ≠ [] ∧ (∀ line ∈ lines, P line) ∧ Laid w 0 0 lines 0

theorem TopLine.unended {P : List Char → Prop} (h : TopLine text.toList 0) (hP : P text.toList) : Unended w P text :=
  ⟨[text.toList], by simp, List.cons_ne_nil _ _, by simpa using hP, (h.lineAt w).laid⟩

theorem Unended.joined {P : List Char → Prop} (h : Unended w P text) (h' : Unended w P text') :
    Unended w P (text ++ "\n" ++ text') := by
  obtain ⟨lines, htext, hne, hP, hlaid⟩ := h
  obtain ⟨lines', htext', -, hP', hlaid'⟩ := h'
  refine ⟨lines ++ lines', ?_, by simp [hne], List.forall_mem_append.2 ⟨hP, hP'⟩, hlaid.append hlaid'⟩
  rw [unlines_append, ← htext, ← htext']
  simp

/-- the last newline of lines that end in something to be seen is the only blank at their end -/
theorem trimEnd_unlines {lines : List (List Char)} (hne : lines ≠ []) (hend : ∀ line ∈ lines, EndsFilled line)
    (htext : text.toList = unlines lines) : (trimEnd text).toList ++ ['\n'] = unlines lines := by
  obtain ⟨before, last, rfl⟩ := (List.eq_nil_or_concat' lines).resolve_left hne
  obtain ⟨front, c, rfl, hblank⟩ := endsFilled_iff.1 (hend last (by simp))
  have hsplit : text.toList = (unlines before ++ front) ++ c :: ['\n'] := by simp [htext]
  have htrim : dropBlankEnd text.toList = (unlines before ++ front) ++ [c] := by
    rw [hsplit, dropBlankEnd_append hblank]
    rfl
  simp [trimEnd, htrim]

theorem lines_ne_nil {lines : List (List Char)} (hne : text ≠ "") (htext : text.toList = unlines lines) : lines ≠ [] := by
  rintro rfl
  exact hne (String.toList_inj.1 htext)

theorem Statements.unended (h : Statements w 0 text) (hne : text ≠ "") : Unended w (· ≠ []) (trimEnd text) := by
  obtain ⟨lines, htext, hfilled, hlaid⟩ := h
  have hlines := lines_ne_nil hne htext
  refine ⟨lines, ?_, hlines, fun line hline hnil => hfilled (hnil ▸ hline), hlaid⟩
  exact trimEnd_unlines hlines (hlaid.endsFilled hfilled) htext

theorem Unended.indent (h : Unended w (· ≠ []) text) : Statements w 1 (indentLines w text) := by
  obtain ⟨lines, htext, hne, hfilled, hlaid⟩ := h
  have hnil : [] ∉ lines := fun hmem => hfilled [] hmem rfl
  refine ⟨lines.map (indented w), ?_, indented_ne_nil hnil, hlaid.indent hnil⟩
  rw [toList_indentLines, indentFrom_unended hne hlaid.whole (hlaid.endsFilled hnil) htext]

theorem mem_of_mem_section {need : Need} {needs : List Need} {s : Section}
    (h : need ∈ byRank (firstPerKey (needsIn s needs))) : need ∈ needs ∧ need.place = s :=
  mem_needsIn.1 (mem_of_mem_firstPerKey ((byRank_perm _).mem_iff.1 h))

theorem statements_section {needs : List Need} (h : ∀ need ∈ needs, Unended w (· ≠ []) need.text) (s : Section) :
    Statements w 1 (indentLines w ((Registry.ofNeeds needs).render s)) := by
  rw [Registry.render_ofNeeds]
  by_cases hnil : byRank (firstPerKey (needsIn s needs)) = []
  · rw [hnil]
    exact statements_nil w 1
  · refine Unended.indent (intercalate_induction (fun _ _ hx hy => hx.joined hy) ?_ fun text ht => ?_)
    · simpa using hnil
    · obtain ⟨need, hneed, rfl⟩ := List.mem_map.1 ht
      exact h need (mem_of_mem_section hneed).1

theorem preamble_lines {needs : List Need} {s : Section} (h : ∀ need ∈ needs, need.place = s → need.Plain) (w : Nat) :
    ∃ lines, ((Registry.ofNeeds needs).preamble s).toList = unlines lines ∧ (∀ line ∈ lines, '\x7b' ∉ line) ∧
      Laid w 0 0 lines 0 := by
  have hempty : (Registry.ofNeeds needs).isEmpty s = (byRank (firstPerKey (needsIn s needs))).isEmpty := by
    rw [Registry.isEmpty, Registry.stored_ofNeeds, List.isEmpty_map, (byRank_perm _).isEmpty_eq]
  rw [Registry.preamble, Registry.render_ofNeeds, hempty]
  cases hnil : (byRank (firstPerKey (needsIn s needs))).isEmpty with
  | true => exact ⟨[], rfl, by simp, .nil (Nat.le_refl 0)⟩
  | false =>
    have hlines : Unended w (fun line => '\x7b' ∉ line)
        ("\n".intercalate ((byRank (firstPerKey (needsIn s needs))).map Need.text)) := by
      refine intercalate_induction (fun _ _ hx hy => hx.joined hy) (by simpa using hnil) fun text ht => ?_
      obtain ⟨need, hneed, rfl⟩ := List.mem_map.1 ht
      obtain ⟨hmem, hplace⟩ := mem_of_mem_section hneed
      have hplain := h need hmem hplace
      exact hplain.oneLine.unended hplain.open_brace
    obtain ⟨lines, htext, -, hbraces, hlaid⟩ := hlines
    refine ⟨lines ++ [[]], ?_, List.forall_mem_append.2 ⟨hbraces, by simp⟩, hlaid.append (LineAt.blank w).laid⟩
    rw [unlines_append, ← htext]
    simp

namespace Program

variable {program : Program} {board : Board} {indent : Nat}

/-- the pieces of boilerplate of a run that gets through: one line each, or the setup statements -/
theorem needs_cases (hboard : board ∈ Board.builtins)
    (hadm : ∀ action ∈ program.actions board indent, action.Admissible board) :
    ∀ need ∈ program.needs indent,
      need.Plain ∨ need = userSetup (trimEnd (program.setupText indent)) ∧ program.setupText indent ≠ "" := by
  intro need hneed
  rw [needs, List.mem_append, List.mem_append] at hneed
  rcases hneed with hneed | hneed | hneed
  · obtain ⟨b, hb, hmem⟩ := List.mem_flatMap.1 hneed
    have hb : b.GetsThrough board :=
      ⟨.statement, 1, fun action ha => hadm action (mem_program_actions.2 (.inr (.inl ⟨b, hb, ha⟩)))⟩
    exact .inl (hb.plain_needs hboard need hmem)
  · have hsetup : ∀ action ∈ chainActions program.setup 1, action.Admissible board := fun action ha =>
      hadm action (mem_program_actions.2 (.inr (.inl (List.mem_flatMap.1 ha))))
    rw [← setupText_isEmpty hsetup] at hneed
    split at hneed
    · cases hneed
    · rename_i hne
      exact .inr ⟨List.mem_singleton.1 hneed, by simpa using hne⟩
  · obtain ⟨b, hb, hmem⟩ := List.mem_flatMap.1 hneed
    have hb : b.GetsThrough board :=
      ⟨.statement, 1, fun action ha => hadm action (mem_program_actions.2 (.inr (.inr (.inr ⟨b, hb, ha⟩))))⟩
    exact .inl (hb.plain_needs hboard need hmem)

theorem statements_setupText (hboard : board ∈ Board.builtins)
    (hadm : ∀ action ∈ program.actions board indent, action.Admissible board) :
    Statements indent 0 (program.setupText indent) :=
  statements_chain (fun b hb => (b.laid hboard indent).2 1 fun action ha =>
    hadm action (mem_program_actions.2 (.inr (.inl ⟨b, hb, ha⟩)))) 0

theorem statements_mainText (hboard : board ∈ Board.builtins)
    (hadm : ∀ action ∈ program.actions board indent, action.Admissible board) :
    Statements indent 0 (program.mainText indent) :=
  statements_chain (fun b hb => (b.laid hboard indent).2 1 fun action ha =>
    hadm action (mem_program_actions.2 (.inr (.inr (.inr ⟨b, hb, ha⟩))))) _

end Program

/-! ## The sketch -/

def setupHead : List Char := "void setup() \x7b".toList

def loopHead : List Char := "void loop() \x7b".toList

def routineEnd : List Char := ['\x7d']

/-- the lines of a sketch: those before the routines, and those within each of them -/
def sketchLines (preamble setup loop : List (List Char)) : List (List Char) :=
  preamble ++ setupHead :: (setup ++ routineEnd :: [] :: loopHead :: (loop ++ [routineEnd]))

/-- each of the lines, which follow the lines `before`, comes with at least one brace open and stands where the open
braces put it -/
def StandInside (w : Nat) (before lines : List (List Char)) : Prop :=
  ∀ first line last, lines = first ++ line :: last →
    ∃ d, Leads start (unlines (before ++ first)) ⟨.code, d + 1, 0⟩ ∧ Stands w (d + 1) line

/-- the lines of a sketch follow its braces -/
structure FollowsBraces (w : Nat) (preamble setup loop : List (List Char)) : Prop where
  /-- all that is opened is closed, and nothing is closed that is not open -/
  balanced : Leads start (unlines (sketchLines preamble setup loop)) start
  /-- lines are lines, and each of them closes the parentheses that it opens and no others -/
  lines : ∀ before line after, sketchLines preamble setup loop = before ++ line :: after →
    ∃ d d', Leads start (unlines before) ⟨.code, d, 0⟩ ∧ InLine ⟨.code, d, 0⟩ line ⟨.code, d', 0⟩
  /-- no brace is opened before the routines -/
  outside : ∀ line ∈ preamble, '\x7b' ∉ line
  inSetup : StandInside w (preamble ++ [setupHead]) setup
  inLoop : StandInside w (preamble ++ setupHead :: (setup ++ [routineEnd, [], loopHead])) loop

/-- the text of a sketch is its lines -/
theorem assemble_lines {r : Registry} {code : String} {includes declarations setup body main : List (List Char)}
    (hincludes : (r.preamble .includes).toList = unlines includes)
    (hdeclarations : (r.preamble .declarations).toList = unlines declarations)
    (hsetup : (indentLines w (r.render .setup)).toList = unlines setup)
    (hbody : (indentLines w (r.render .body)).toList = unlines body) (hmain : (indentLines w code).toList = unlines main) :
    (r.assemble w code).toList = unlines (sketchLines (includes ++ declarations) setup (body ++ main)) := by
  have hfirst : "void setup() \x7b\n".toList = setupHead ++ ['\n'] := by decide
  have hbetween : "\x7d\n\nvoid loop() \x7b\n".toList = routineEnd ++ '\n' :: '\n' :: (loopHead ++ ['\n']) := by decide
  have hlast : "\x7d\n".toList = routineEnd ++ ['\n'] := by decide
  simp only [Registry.assemble, String.toList_append, hincludes, hdeclarations, hsetup, hbody, hmain, hfirst, hbetween,
    hlast]
  simp [sketchLines]

theorem topLine_setupHead : TopLine setupHead 1 := ⟨by decide, by decide, by decide⟩

theorem topLine_loopHead : TopLine loopHead 1 := ⟨by decide, by decide, by decide⟩

theorem standInside_of_laid {before lines : List (List Char)} {d' : Nat}
    (hbefore : Leads start (unlines before) ⟨.code, d, 0⟩) (h : Laid w 1 d lines d') : StandInside w before lines := by
  rintro first line last rfl
  obtain ⟨e, e', hfloor, hleads, hline⟩ := h.split
  obtain ⟨n, rfl⟩ : ∃ n, e = n + 1 := ⟨e - 1, by omega⟩
  -- with a brace open, the line is not empty
  refine ⟨n, ?_, hline.stands fun hnil => by cases hline.filled hnil⟩
  rw [unlines_append]
  exact hbefore.append hleads

/-- lines before the routines and lines within them, put together -/
theorem followsBraces_of_laid {preamble setup loop : List (List Char)} (hbraces : ∀ line ∈ preamble, '\x7b' ∉ line)
    (hpreamble : Laid w 0 0 preamble 0) (hsetup : Laid w 1 1 setup 1) (hloop : Laid w 1 1 loop 1) :
    FollowsBraces w preamble setup loop := by
  have hend : Laid w 0 1 [routineEnd] 0 := (lineAt_closing w).laid
  have hblank : Laid w 0 0 [[]] 0 := (LineAt.blank w).laid
  have hsetupHead : Laid w 0 0 [setupHead] 1 := (topLine_setupHead.lineAt w).laid
  have hloopHead : Laid w 0 0 [loopHead] 1 := (topLine_loopHead.lineAt w).laid
  -- up to the lines within each routine, and to the end
  have htoSetup : Laid w 0 0 (preamble ++ [setupHead]) 1 := hpreamble.append hsetupHead
  have htoLoop : Laid w 0 0 (preamble ++ setupHead :: (setup ++ [routineEnd, [], loopHead])) 1 := by
    simpa using htoSetup.append ((hsetup.lower 0 (Nat.zero_le 1)).append (hend.append (hblank.append hloopHead)))
  have hall : Laid w 0 0 (sketchLines preamble setup loop) 0 := by
    simpa [sketchLines] using htoLoop.append ((hloop.lower 0 (Nat.zero_le 1)).append hend)
  refine ⟨hall.leads, ?_, hbraces, standInside_of_laid htoSetup.leads hsetup, standInside_of_laid htoLoop.leads hloop⟩
  intro before line after hsplit
  rw [hsplit] at hall
  obtain ⟨e, e', -, hleads, hline⟩ := hall.split
  exact ⟨e, e', hleads, hline.inLine⟩

/-- **The layout of a sketch follows its braces.** Whatever program becomes a sketch for a built-in board, and however
wide a level is: outside of string literals, braces are balanced, and so are the parentheses of every line; and every
line within the routines `setup` and `loop` is indented by one level for each brace that is open before it, by one less
if it starts by closing one. -/
theorem layout_follows_braces {program : Program} {board : Board} {indent : Nat} {sketch : String}
    (hboard : board ∈ Board.builtins) (h : (program.generate board Table.builtin indent).1 = .ok sketch) :
    ∃ preamble setup loop, sketch.toList = unlines (sketchLines preamble setup loop) ∧
      FollowsBraces indent preamble setup loop := by
  obtain ⟨q, hrun⟩ := succeeds_iff_performAll.1 ⟨sketch, h⟩
  have hadm := performAll_admissible hrun
  have hneeds := program.needs_cases hboard hadm
  have hunended : ∀ need ∈ program.needs indent, Unended indent (· ≠ []) need.text := by
    intro need hneed
    rcases hneeds need hneed with hplain | ⟨rfl, hne⟩
    · exact hplain.oneLine.unended hplain.oneLine.opens.ne_nil
    · exact (program.statements_setupText hboard hadm).unended hne
  -- the setup statements are the only piece of more than one line, and they stand within a routine
  have hplain {s : Section} (hs : s ≠ .setup) : ∀ need ∈ program.needs indent, need.place = s → need.Plain := by
    intro need hneed hplace
    rcases hneeds need hneed with hplain | ⟨rfl, -⟩
    · exact hplain
    · exact absurd hplace.symm hs
  obtain ⟨includes, hincludes, hbraces, hlaid⟩ := preamble_lines (hplain (by decide : Section.includes ≠ .setup)) indent
  obtain ⟨declarations, hdeclarations, hbraces', hlaid'⟩ :=
    preamble_lines (hplain (by decide : Section.declarations ≠ .setup)) indent
  obtain ⟨setup, hsetup, -, hlaidSetup⟩ := statements_section hunended .setup
  obtain ⟨body, hbody, -, hlaidBody⟩ := statements_section hunended .body
  obtain ⟨main, hmain, -, hlaidMain⟩ := (program.statements_mainText hboard hadm).indent
  refine ⟨includes ++ declarations, setup, body ++ main, ?_, ?_⟩
  · rw [sketch_eq_assemble h]
    exact assemble_lines hincludes hdeclarations hsetup hbody hmain
  · exact followsBraces_of_laid (List.forall_mem_append.2 ⟨hbraces, hbraces'⟩) (hlaid.append hlaid') hlaidSetup
      (hlaidBody.append hlaidMain)

/-- a conditional with a loop in its first branch that prints brackets -/
def sampleNested : Program where
  board := none
  setup := []
  main := [⟨"i", "controls_if", [], [],
    [("DO0", [⟨"r", "controls_repeat_ext", [], [], [("DO", [⟨"p", "serial_print", [("SERIAL_ID", "Serial")],
      [("CONTENT", ⟨"t", "text", [("TEXT", "\x7d (")], [], [], default⟩)], [], default⟩])], default⟩]),
     ("ELSE", [⟨"w", "time_delay", [], [], [], default⟩])], default⟩]
  sourceId := 0

def sampleNestedSketch : String := String.join ([
  "void setup() \x7b",
  "  Serial.begin(9600);",
  "\x7d",
  "",
  "void loop() \x7b",
  "  if (false) \x7b",
  "    for (int count = 0; count < 0; count++) \x7b",
  "      Serial.print(\"\x7d (\");",
  "    \x7d",
  "  \x7d else \x7b",
  "    delay(0);",
  "  \x7d",
  "\x7d"].map (· ++ "\n"))

/-- the brackets that are printed do not count, the others do -/
theorem layout_follows_braces_nested :
    Board.uno ∈ Board.builtins ∧ (sampleNested.generate Board.uno Table.builtin 2).1 = .ok sampleNestedSketch ∧
      ∃ preamble setup loop, sampleNestedSketch.toList = unlines (sketchLines preamble setup loop) ∧
        FollowsBraces 2 preamble setup loop := by
  have hboard : Board.uno ∈ Board.builtins := List.mem_cons_self
  have hsketch : (sampleNested.generate Board.uno Table.builtin 2).1 = .ok sampleNestedSketch := by decide +kernel
  exact ⟨hboard, hsketch, layout_follows_braces hboard hsketch⟩

end BlockSketch
