/-
A sketch can be taken apart again.

`takeApart?` reads a sketch without knowing what it was made of: it cuts the text at newlines, looks for the two headings
and for the next line that is a closing brace alone, and moves what stands between them back to the left. Fragments and
code may hold any text, also lines that are headings or closing braces themselves. Within the routines such a line is
indented and is no longer one of those; before them only the first heading can be mistaken.

Results:
- `pieces_unlines`, `unlines_pieces`: cutting at newlines and ending lines undo one another;
- `newline_not_mem_lines`: a line of a text is a line, whatever ends it;
- `assemble_pieces`: a sketch, line by line;
- `assembled_takes_apart`: what is found in a sketch is what was put into it.
-/
import BlockSketch.Proofs.SketchLayout
import BlockSketch.Text.Pieces

namespace BlockSketch

open Nesting Text

/-! ## Taking apart -/

/-- the lines before the first one that is the mark, and those after it -/
def upTo? (mark : List Char) : List (List Char) → Option (List (List Char) × List (List Char))
  | [] => none
  | line :: rest =>
    if line = mark then some ([], rest) else (upTo? mark rest).map fun found => (line :: found.1, found.2)

/-- a line without the `w` blanks in front of it, which every line has that is not empty -/
def outdent? (w : Nat) (line : List Char) : Option (List Char) :=
  if line = [] then some []
  else if line.take w = List.replicate w ' ' then some (line.drop w)
  else none

/-- the parts of a sketch, line by line -/
structure Parts where
  preamble : List (List Char)
  setup : List (List Char)
  between : List (List Char)
  loop : List (List Char)
  rest : List (List Char)
  deriving DecidableEq, Repr

def takeApart? (w : Nat) (sketch : String) : Option Parts := do
  let (preamble, rest) ← upTo? setupHead (pieces '\n' sketch.toList)
  let (setup, rest) ← upTo? routineEnd rest
  let (between, rest) ← upTo? loopHead rest
  let (loop, rest) ← upTo? routineEnd rest
  return ⟨preamble, ← setup.mapM (outdent? w), between, ← loop.mapM (outdent? w), rest⟩

/-- the lines of a section before the routines and one empty line, or nothing if the section has no fragments -/
def Registry.shown (r : Registry) (s : Section) : List (List Char) :=
  if r.stored s = [] then [] else pieces '\n' (r.render s).toList ++ [[]]

theorem upTo?_append {mark : List Char} {before : List (List Char)} (h : mark ∉ before) (after : List (List Char)) :
    upTo? mark (before ++ mark :: after) = some (before, after) := by
  induction before with
  | nil => simp [upTo?]
  | cons line before ih =>
    obtain ⟨hline, hrest⟩ := List.ne_and_not_mem_of_not_mem_cons h
    simp [upTo?, Ne.symm hline, ih hrest]

/-! ## Cutting at newlines -/

variable {line : List Char} {lines : List (List Char)}

theorem pieces_line (h : '\n' ∉ line) (rest : List Char) : pieces '\n' (line ++ '\n' :: rest) = line :: pieces '\n' rest := by
  induction line with
  | nil => simp [pieces]
  | cons c line ih =>
    obtain ⟨hc, hline⟩ := List.ne_and_not_mem_of_not_mem_cons h
    simp [pieces, Ne.symm hc, ih hline]

theorem pieces_unlines (h : ∀ line ∈ lines, '\n' ∉ line) (rest : List Char) :
    pieces '\n' (unlines lines ++ rest) = lines ++ pieces '\n' rest := by
  induction lines with
  | nil => rfl
  | cons line lines ih =>
    obtain ⟨hline, hlines⟩ := List.forall_mem_cons.1 h
    rw [unlines_cons, List.append_assoc, List.cons_append, pieces_line hline, ih hlines, List.cons_append]

/-- the pieces of a text, each of them ended, are the text and one newline more -/
theorem unlines_pieces (cs : List Char) : unlines (pieces '\n' cs) = cs ++ ['\n'] := by
  induction cs with
  | nil => rfl
  | cons c cs ih =>
    unfold pieces
    split
    · rename_i hc
      rw [unlines_cons, ih, hc]
      rfl
    · split
      · rename_i hnil
        rw [hnil] at ih
        simp at ih
      · rename_i hcons
        rw [hcons, unlines_cons] at ih
        rw [unlines_cons, List.cons_append, ih, List.cons_append]

theorem newline_not_mem_pieces (cs : List Char) : ∀ piece ∈ pieces '\n' cs, '\n' ∉ piece := by
  induction cs with
  | nil => simp [pieces]
  | cons c cs ih =>
    unfold pieces
    split
    · exact List.forall_mem_cons.2 ⟨List.not_mem_nil, ih⟩
    · rename_i hc
      split
      · simpa using Ne.symm hc
      · rename_i hcons
        rw [hcons] at ih
        obtain ⟨hpiece, hothers⟩ := List.forall_mem_cons.1 ih
        exact List.forall_mem_cons.2 ⟨List.not_mem_cons_of_ne_of_not_mem (Ne.symm hc) hpiece, hothers⟩

/-! ## Lines of a text -/

/-- a newline can only stand at the end of a piece -/
theorem inclusiveLines_front (cs : List Char) : ∀ piece ∈ inclusiveLines cs, ∃ front, '\n' ∉ front ∧
    (piece = front ∨ piece = front ++ ['\n']) := by
  induction cs with
  | nil => simp [inclusiveLines]
  | cons c cs ih =>
    unfold inclusiveLines
    split
    · rename_i hc
      exact List.forall_mem_cons.2 ⟨⟨[], List.not_mem_nil, .inr (by rw [hc]; rfl)⟩, ih⟩
    · rename_i hc
      split
      · exact List.forall_mem_cons.2 ⟨⟨[c], by simpa using Ne.symm hc, .inl rfl⟩, by simp⟩
      · rename_i hcons
        rw [hcons] at ih
        obtain ⟨⟨front, hfront, hpiece⟩, hothers⟩ := List.forall_mem_cons.1 ih
        refine List.forall_mem_cons.2 ⟨⟨c :: front, List.not_mem_cons_of_ne_of_not_mem (Ne.symm hc) hfront, ?_⟩, hothers⟩
        rcases hpiece with rfl | rfl
        · exact .inl rfl
        · exact .inr rfl

/-- taking the ending off takes characters off the end, the newline among them -/
theorem newline_not_mem_withoutEnding {front piece : List Char} (hfront : '\n' ∉ front)
    (hpiece : piece = front ∨ piece = front ++ ['\n']) : '\n' ∉ withoutEnding piece := by
  intro hmem
  apply hfront
  unfold withoutEnding at hmem
  rcases hpiece with rfl | rfl
  · split at hmem
    · rename_i rest hrest
      exact absurd (List.mem_reverse.1 (hrest ▸ List.mem_cons_self)) hfront
    · rename_i rest _ hrest
      exact absurd (List.mem_reverse.1 (hrest ▸ List.mem_cons_self)) hfront
    · exact hmem
  · rw [List.reverse_append, List.reverse_singleton, List.singleton_append] at hmem
    split at hmem
    · rename_i rest hrest
      have hend : '\r' :: rest = front.reverse := (List.cons.inj hrest).2.symm
      exact List.mem_reverse.1 (hend ▸ List.mem_cons_of_mem _ (List.mem_reverse.1 hmem))
    · rename_i rest _ hrest
      have hend : rest = front.reverse := (List.cons.inj hrest).2.symm
      exact List.mem_reverse.1 (hend ▸ List.mem_reverse.1 hmem)
    · rename_i hnone
      exact absurd rfl (hnone front.reverse)

theorem newline_not_mem_lines (s : String) : ∀ line ∈ Text.lines s, '\n' ∉ line.toList := by
  intro line hline
  obtain ⟨piece, hpiece, rfl⟩ := List.mem_map.1 hline
  obtain ⟨front, hfront, hends⟩ := inclusiveLines_front s.toList piece hpiece
  rw [String.toList_ofList]
  exact newline_not_mem_withoutEnding hfront hends

/-! ## Indentation -/

variable {w : Nat}

/-- a line as it stands within a routine -/
def shifted (w : Nat) (line : List Char) : List Char := if line = [] then [] else indented w line

/-- the lines of a text as they stand within a routine -/
def routineLines (w : Nat) (text : String) : List (List Char) := (Text.lines text).map fun line => shifted w line.toList

theorem indentedLine_eq_shifted (w : Nat) (line : List Char) : indentedLine w line = shifted w line ++ ['\n'] := by
  unfold indentedLine shifted indented
  split
  · rfl
  · rw [List.append_assoc]

theorem toList_indentLines_eq_unlines (w : Nat) (text : String) :
    (indentLines w text).toList = unlines (routineLines w text) := by
  unfold indentLines routineLines unlines
  rw [String.toList_join, List.flatMap_map, List.flatMap_map]
  refine List.flatMap_congr fun line _ => ?_
  rw [toList_indentLine, indentedLine_eq_shifted]

theorem newline_not_mem_routineLines (w : Nat) (text : String) : ∀ line ∈ routineLines w text, '\n' ∉ line := by
  intro line hline
  obtain ⟨original, horiginal, rfl⟩ := List.mem_map.1 hline
  have hnewline := newline_not_mem_lines text original horiginal
  unfold shifted indented
  split
  · exact List.not_mem_nil
  · intro hmem
    rcases List.mem_append.1 hmem with hblank | hrest
    · cases List.eq_of_mem_replicate hblank
    · exact hnewline hrest

/-- **A closing brace within a routine is never alone on its line.** -/
theorem routineEnd_not_mem_routineLines (hw : 1 ≤ w) (text : String) : routineEnd ∉ routineLines w text := by
  intro hmem
  obtain ⟨line, -, heq⟩ := List.mem_map.1 hmem
  unfold shifted indented at heq
  split at heq
  · cases heq
  · obtain ⟨n, rfl⟩ : ∃ n, w = n + 1 := ⟨w - 1, by omega⟩
    cases (List.cons.inj heq).1

theorem outdent?_shifted (w : Nat) (line : List Char) : outdent? w (shifted w line) = some line := by
  unfold outdent? shifted indented
  by_cases hline : line = []
  · simp [hline]
  · have htake : (List.replicate w ' ' ++ line).take w = List.replicate w ' ' :=
      List.take_left' (List.length_replicate ..)
    have hdrop : (List.replicate w ' ' ++ line).drop w = line := List.drop_left' (List.length_replicate ..)
    simp [hline, htake, hdrop]

theorem outdent?_routineLines (w : Nat) (text : String) :
    (routineLines w text).mapM (outdent? w) = some ((Text.lines text).map String.toList) := by
  unfold routineLines
  induction Text.lines text with
  | nil => rfl
  | cons line lines ih => simp [List.mapM_cons, outdent?_shifted, ih]

/-! ## The sketch -/

theorem toList_preamble (r : Registry) (s : Section) : (r.preamble s).toList = unlines (r.shown s) := by
  unfold Registry.preamble Registry.shown Registry.isEmpty
  by_cases h : r.stored s = []
  · simp [h]
  · rw [if_neg h, if_neg (by simpa using h), unlines_append, unlines_pieces]
    simp

theorem newline_not_mem_shown (r : Registry) (s : Section) : ∀ line ∈ r.shown s, '\n' ∉ line := by
  unfold Registry.shown
  split
  · simp
  · exact List.forall_mem_append.2 ⟨newline_not_mem_pieces _, by simp⟩

/-- only a line of the section itself can be the heading -/
theorem setupHead_not_mem_shown {r : Registry} {s : Section} (h : setupHead ∉ pieces '\n' (r.render s).toList) :
    setupHead ∉ r.shown s := by
  unfold Registry.shown
  split
  · exact List.not_mem_nil
  · intro hmem
    rcases List.mem_append.1 hmem with hpiece | hempty
    · exact h hpiece
    · exact absurd (List.mem_singleton.1 hempty) (by decide)

/-- a sketch, line by line; after the last newline there is nothing -/
theorem assemble_pieces (r : Registry) (w : Nat) (main : String) :
    pieces '\n' (r.assemble w main).toList =
      sketchLines (r.shown .includes ++ r.shown .declarations) (routineLines w (r.render .setup))
        (routineLines w (r.render .body) ++ routineLines w main) ++ [[]] := by
  rw [assemble_lines (toList_preamble r .includes) (toList_preamble r .declarations)
    (toList_indentLines_eq_unlines w _) (toList_indentLines_eq_unlines w _) (toList_indentLines_eq_unlines w _)]
  have hheads : '\n' ∉ setupHead ∧ '\n' ∉ loopHead ∧ '\n' ∉ routineEnd := by decide
  have hlines : ∀ line ∈ sketchLines (r.shown .includes ++ r.shown .declarations) (routineLines w (r.render .setup))
      (routineLines w (r.render .body) ++ routineLines w main), '\n' ∉ line := by
    simp only [sketchLines, List.forall_mem_append, List.forall_mem_cons]
    exact ⟨⟨newline_not_mem_shown r _, newline_not_mem_shown r _⟩, hheads.1, newline_not_mem_routineLines w _, hheads.2.2,
      List.not_mem_nil, hheads.2.1, ⟨newline_not_mem_routineLines w _, newline_not_mem_routineLines w _⟩, hheads.2.2,
      by simp⟩
  have h := pieces_unlines hlines []
  rwa [List.append_nil] at h

/-- **A sketch can be taken apart again.** Whatever the fragments and the code, unless a line of the includes or of the
declarations is the heading of `setup`: from the first such heading to the next closing brace alone on its line there
are the lines of the setup section, and from the heading of `loop` that follows an empty line to the next such brace the
lines of the body section and those of the code, all of them indented by `w` blanks if they are not empty. Nothing
follows. Before the first heading there are the includes and the declarations as they are, each with an empty line
after it, and each left out exactly if it has no fragments. -/
theorem assembled_takes_apart (r : Registry) (main : String) (w : Nat) (hw : 1 ≤ w)
    (hincludes : setupHead ∉ pieces '\n' (r.render .includes).toList)
    (hdeclarations : setupHead ∉ pieces '\n' (r.render .declarations).toList) :
    takeApart? w (r.assemble w main) = some
      { preamble := r.shown .includes ++ r.shown .declarations
        setup := (Text.lines (r.render .setup)).map String.toList
        between := [[]]
        loop := (Text.lines (r.render .body) ++ Text.lines main).map String.toList
        rest := [[]] } := by
  have hpreamble : setupHead ∉ r.shown .includes ++ r.shown .declarations := fun hmem =>
    (List.mem_append.1 hmem).elim (setupHead_not_mem_shown hincludes) (setupHead_not_mem_shown hdeclarations)
  have hloop : routineEnd ∉ routineLines w (r.render .body) ++ routineLines w main := fun hmem =>
    (List.mem_append.1 hmem).elim (routineEnd_not_mem_routineLines hw _) (routineEnd_not_mem_routineLines hw _)
  have hbetween : loopHead ∉ [([] : List Char)] := by decide
  have hmoved : (routineLines w (r.render .body) ++ routineLines w main).mapM (outdent? w) =
      some ((Text.lines (r.render .body) ++ Text.lines main).map String.toList) := by
    rw [List.mapM_append, outdent?_routineLines, outdent?_routineLines, List.map_append]
    rfl
  have hlines : pieces '\n' (r.assemble w main).toList =
      (r.shown .includes ++ r.shown .declarations) ++ setupHead :: (routineLines w (r.render .setup) ++
        routineEnd :: ([[]] ++ loopHead :: ((routineLines w (r.render .body) ++ routineLines w main) ++
          routineEnd :: [[]]))) := by
    rw [assemble_pieces]
    simp [sketchLines]
  -- the four cuts, one after the other
  unfold takeApart?
  rw [hlines, upTo?_append hpreamble]
  simp only [Option.bind_eq_bind, Option.bind_some]
  rw [upTo?_append (routineEnd_not_mem_routineLines hw _)]
  simp only [Option.bind_some]
  rw [upTo?_append hbetween]
  simp only [Option.bind_some]
  rw [upTo?_append hloop]
  simp only [Option.bind_some]
  rw [outdent?_routineLines, hmoved]
  rfl

/-- fragments that look like the ends and the headings of routines, and one without any text -/
def misleadingRegistry : Registry where
  declarations := [⟨"d", "", false⟩]
  setup := [⟨"s", "\x7d\nvoid loop() \x7b", true⟩]
  body := [⟨"b", "void setup() \x7b\r\n\n\x7d", false⟩]

/-- headings and ends of routines within the routines are not mistaken, and a section with an empty fragment is there -/
theorem assembled_takes_apart_misleading :
    setupHead ∉ pieces '\n' (misleadingRegistry.render .includes).toList ∧
    setupHead ∉ pieces '\n' (misleadingRegistry.render .declarations).toList ∧
    takeApart? 2 (misleadingRegistry.assemble 2 "\x7d\r\n \r") = some
      { preamble := [[], []]
        setup := [routineEnd, loopHead]
        between := [[]]
        loop := [setupHead, [], routineEnd, routineEnd, [' ', '\r']]
        rest := [[]] } := by
  have hincludes : setupHead ∉ pieces '\n' (misleadingRegistry.render .includes).toList := by decide +kernel
  have hdeclarations : setupHead ∉ pieces '\n' (misleadingRegistry.render .declarations).toList := by decide +kernel
  refine ⟨hincludes, hdeclarations, ?_⟩
  rw [assembled_takes_apart misleadingRegistry "\x7d\r\n \r" 2 (by decide) hincludes hdeclarations]
  decide +kernel

end BlockSketch
