/-
A test file is cut at its first two fences, and nothing of it is lost.

The line that opens the header of a test and the line that closes it are fences: three dashes, and white space behind
them if anything. Here lines are said to stand in a text without cutting it, by what comes before and behind them. A file
is cut if its first line is a fence and a later line is one. The header is what stands between the first two fences, the
program is everything behind the second, further fences and all.

Results:
- `inclusiveLines_line`, `inclusiveLines_whole`, `lines_cut`: cutting a text into lines and putting lines together;
- `mem_inclusiveLines_iff`: the lines that a text is cut into are those that stand in it;
- `isFence_iff`: a fence is three dashes and white space;
- `split_eq_ok_iff`: what a file is cut into, `split_ok_iff`: when it is;
- `golden_splits_losslessly`: a file and the parts it is cut into, in both directions.
-/
import BlockSketch.Proofs.Agreement
import BlockSketch.Proofs.Outline
import Mathlib.Data.List.DropRight

namespace BlockSketch

/-! ## Lines in a text -/

namespace Text

/-- a line with the newline that ends it -/
def EndedLine (line : List Char) : Prop := ∃ front, '\n' ∉ front ∧ line = front ++ ['\n']

/-- a line with the rest of the text behind it: only the last line of a text can be without a newline -/
def LineBefore (line rest : List Char) : Prop := EndedLine line ∨ (line ≠ [] ∧ '\n' ∉ line ∧ rest = [])

/-- nothing, or text that ends in a newline -/
def WholeLines (text : List Char) : Prop := text = [] ∨ ∃ front, text = front ++ ['\n']

def HasLine (text line : List Char) : Prop :=
  ∃ before after, text = before ++ line ++ after ∧ WholeLines before ∧ LineBefore line after

variable {line rest text : List Char}

theorem LineBefore.ne_nil (h : LineBefore line rest) : line ≠ [] := by
  rcases h with ⟨front, -, rfl⟩ | ⟨hne, -, -⟩
  · simp
  · exact hne

theorem LineBefore.ended (h : LineBefore line rest) (hrest : rest ≠ []) : EndedLine line := by
  rcases h with hended | ⟨-, -, hnil⟩
  · exact hended
  · exact absurd hnil hrest

/-- lines that are ended make up text that ends in a newline -/
theorem EndedLine.append (h : EndedLine line) (hrest : WholeLines rest) : WholeLines (line ++ rest) := by
  obtain ⟨front, -, rfl⟩ := h
  rcases hrest with rfl | ⟨back, rfl⟩
  · exact .inr ⟨front, by simp⟩
  · exact .inr ⟨front ++ ['\n'] ++ back, by simp⟩

theorem exists_line (h : text ≠ []) : ∃ line rest, text = line ++ rest ∧ LineBefore line rest := by
  by_cases hmem : '\n' ∈ text
  · obtain ⟨front, rest, rfl, hfront⟩ := List.eq_append_cons_of_mem hmem
    exact ⟨front ++ ['\n'], rest, by simp, .inl ⟨front, hfront, rfl⟩⟩
  · exact ⟨text, [], by simp, .inr ⟨h, hmem, rfl⟩⟩

/-! ## Cutting a text into lines -/

theorem inclusiveLines_ended {front : List Char} (h : '\n' ∉ front) (rest : List Char) :
    inclusiveLines (front ++ '\n' :: rest) = (front ++ ['\n']) :: inclusiveLines rest := by
  induction front with
  | nil => simp [inclusiveLines]
  | cons c front ih =>
    obtain ⟨hc, hfront⟩ := List.ne_and_not_mem_of_not_mem_cons h
    exact inclusiveLines_cons (Ne.symm hc) (ih hfront)

theorem inclusiveLines_unended (h : '\n' ∉ line) (hne : line ≠ []) : inclusiveLines line = [line] := by
  induction line with
  | nil => exact absurd rfl hne
  | cons c line ih =>
    obtain ⟨hc, hline⟩ := List.ne_and_not_mem_of_not_mem_cons h
    cases line with
    | nil => simp [inclusiveLines, Ne.symm hc]
    | cons d line => exact inclusiveLines_cons (Ne.symm hc) (ih hline (by simp))

theorem inclusiveLines_line (h : LineBefore line rest) : inclusiveLines (line ++ rest) = line :: inclusiveLines rest := by
  rcases h with ⟨front, hfront, rfl⟩ | ⟨hne, hline, rfl⟩
  · rw [List.append_assoc]
    exact inclusiveLines_ended hfront rest
  · rw [List.append_nil]
    exact inclusiveLines_unended hline hne

/-- the first piece is the first line, and the others are the lines behind it -/
theorem line_of_inclusiveLines {others : List (List Char)} (h : inclusiveLines text = line :: others) :
    ∃ rest, text = line ++ rest ∧ LineBefore line rest ∧ inclusiveLines rest = others := by
  have hne : text ≠ [] := by
    rintro rfl
    cases h
  obtain ⟨first, rest, rfl, hfirst⟩ := exists_line hne
  rw [inclusiveLines_line hfirst] at h
  obtain ⟨rfl, hothers⟩ := List.cons.inj h
  exact ⟨rest, rfl, hfirst, hothers⟩

/-- **Cutting undone.** Text that is cut into some lines is these lines put together, and the lines before and behind one
of them are cut again where they were. -/
theorem lines_cut {before after : List (List Char)} (h : inclusiveLines text = before ++ line :: after) :
    text = before.flatten ++ line ++ after.flatten ∧ WholeLines before.flatten ∧ LineBefore line after.flatten ∧
      inclusiveLines before.flatten = before ∧ inclusiveLines after.flatten = after := by
  induction before generalizing text with
  | nil =>
    obtain ⟨rest, rfl, hline, rfl⟩ := line_of_inclusiveLines h
    rw [inclusiveLines_flatten]
    exact ⟨rfl, .inl rfl, hline, rfl, rfl⟩
  | cons first before ih =>
    obtain ⟨rest, rfl, hfirst, hrest⟩ := line_of_inclusiveLines h
    obtain ⟨htext, hwhole, hline, hbefore, hafter⟩ := ih hrest
    -- a line stands behind the first one, so the first one is ended
    have hended : EndedLine first := by
      apply hfirst.ended
      intro hnil
      rw [hnil] at htext
      simp [hline.ne_nil] at htext
    refine ⟨?_, hended.append hwhole, hline, ?_, hafter⟩
    · rw [htext, List.flatten_cons, List.append_assoc, List.append_assoc, List.append_assoc]
    · rw [List.flatten_cons, inclusiveLines_line (.inl hended), hbefore]

theorem inclusiveLines_whole (h : WholeLines text) (rest : List Char) :
    inclusiveLines (text ++ rest) = inclusiveLines text ++ inclusiveLines rest := by
  rcases h with rfl | ⟨front, rfl⟩
  · rfl
  · induction front with
    | nil => simp [inclusiveLines]
    | cons c front ih =>
      by_cases hc : c = '\n'
      · simpa [inclusiveLines, hc] using ih
      · cases hfront : inclusiveLines (front ++ ['\n']) with
        | nil =>
          have hnil := inclusiveLines_flatten (front ++ ['\n'])
          rw [hfront] at hnil
          simp at hnil
        | cons piece pieces =>
          rw [hfront] at ih
          rw [List.cons_append, List.cons_append, inclusiveLines_cons hc hfront, inclusiveLines_cons hc ih]
          rfl

/-- the lines that a text is cut into are those that stand in it -/
theorem mem_inclusiveLines_iff : line ∈ inclusiveLines text ↔ HasLine text line := by
  constructor
  · intro hmem
    obtain ⟨before, after, hcut⟩ := List.append_of_mem hmem
    obtain ⟨htext, hwhole, hline, -⟩ := lines_cut hcut
    exact ⟨before.flatten, after.flatten, htext, hwhole, hline⟩
  · rintro ⟨before, after, rfl, hwhole, hline⟩
    rw [List.append_assoc, inclusiveLines_whole hwhole, inclusiveLines_line hline]
    exact List.mem_append_right _ List.mem_cons_self

theorem LineBefore.unique {first rest first' rest' : List Char} (h : LineBefore first rest) (h' : LineBefore first' rest')
    (heq : first ++ rest = first' ++ rest') : first = first' ∧ rest = rest' := by
  have hlines : first :: inclusiveLines rest = first' :: inclusiveLines rest' := by
    rw [← inclusiveLines_line h, ← inclusiveLines_line h', heq]
  obtain ⟨rfl, -⟩ := List.cons.inj hlines
  exact ⟨rfl, List.append_cancel_left heq⟩

end Text

/-! ## Fences -/

open Text

/-- three dashes, and white space behind them if anything -/
def Fence (line : List Char) : Prop := ∃ blanks, line = fence.toList ++ blanks ∧ ∀ c ∈ blanks, isBlank c = true

theorem isFence_iff {line : List Char} : Golden.isFence line = true ↔ Fence line := by
  rw [Golden.isFence, beq_iff_eq]
  constructor
  · intro h
    refine ⟨line.rtakeWhile isBlank, ?_, fun c hc => List.mem_rtakeWhile_imp hc⟩
    rw [← h]
    exact List.rdropWhile_append_rtakeWhile.symm
  · rintro ⟨blanks, rfl, hblanks⟩
    have hnone : dropBlankEnd blanks = [] := List.rdropWhile_eq_nil_iff.2 hblanks
    have hdash : fence.toList ++ blanks = ['-', '-'] ++ '-' :: blanks := rfl
    rw [hdash, dropBlankEnd_append (by decide), hnone]
    rfl

/-- a text cut at its first two fences -/
structure Fenced (text first header second program : List Char) : Prop where
  text_eq : text = first ++ header ++ second ++ program
  /-- the first line of the text is a fence -/
  first_line : EndedLine first
  first_fence : Fence first
  /-- no line of the header is one -/
  header_whole : WholeLines header
  header_plain : ∀ line, HasLine header line → ¬ Fence line
  /-- the line behind the header is one again -/
  second_line : LineBefore second program
  second_fence : Fence second

/-- the first line of a text is a fence, and so is a later line -/
def OpensFenced (text : List Char) : Prop :=
  ∃ first rest, text = first ++ rest ∧ LineBefore first rest ∧ Fence first ∧ ∃ line, HasLine rest line ∧ Fence line

theorem Fenced.inclusiveLines_eq {text first header second program : List Char}
    (h : Fenced text first header second program) :
    inclusiveLines text = first :: (inclusiveLines header ++ second :: inclusiveLines program) := by
  rw [h.text_eq, List.append_assoc, List.append_assoc, inclusiveLines_line (.inl h.first_line),
    inclusiveLines_whole h.header_whole, inclusiveLines_line h.second_line]

/-- lines among which the first and a later one are fences, and none between them -/
theorem fenced_of_lines {text first second : List Char} {header program : List (List Char)}
    (h : inclusiveLines text = first :: (header ++ second :: program)) (hfirst : Golden.isFence first = true)
    (hheader : ∀ line ∈ header, Golden.isFence line = false) (hsecond : Golden.isFence second = true) :
    Fenced text first header.flatten second program.flatten := by
  obtain ⟨rest, rfl, hline, hrest⟩ := line_of_inclusiveLines h
  obtain ⟨rfl, hwhole, hsecondLine, hagain, -⟩ := lines_cut hrest
  refine ⟨?_, ?_, isFence_iff.1 hfirst, hwhole, ?_, hsecondLine, isFence_iff.1 hsecond⟩
  · simp only [List.append_assoc]
  · apply hline.ended
    simp [hsecondLine.ne_nil]
  · intro line hmem hfence
    rw [← mem_inclusiveLines_iff, hagain] at hmem
    rw [← isFence_iff, hheader line hmem] at hfence
    cases hfence

theorem Fenced.opensFenced {text first header second program : List Char}
    (h : Fenced text first header second program) : OpensFenced text := by
  refine ⟨first, header ++ second ++ program, ?_, .inl h.first_line, h.first_fence, second, ?_, h.second_fence⟩
  · rw [h.text_eq, List.append_assoc, List.append_assoc, List.append_assoc]
  · exact ⟨header, program, rfl, h.header_whole, h.second_line⟩

/-! ## Cutting a file -/

namespace Golden

variable {content : String} {first header second program : List Char}

theorem split_of_fenced (h : Fenced (withoutMark content.toList) first header second program) :
    split content = .ok (String.ofList header, String.ofList program) := by
  have hplain : ∀ line ∈ inclusiveLines header, (!isFence line) = true := by
    intro line hline
    rw [Bool.not_eq_true', ← Bool.not_eq_true, isFence_iff]
    exact h.header_plain line (mem_inclusiveLines_iff.1 hline)
  have hsecond : isFence second = true := isFence_iff.2 h.second_fence
  have htake : (inclusiveLines header ++ second :: inclusiveLines program).takeWhile (!isFence ·) =
      inclusiveLines header := by
    rw [List.takeWhile_append_of_pos hplain, List.takeWhile_cons_of_neg (by simp [hsecond]), List.append_nil]
  have hdrop : (inclusiveLines header ++ second :: inclusiveLines program).dropWhile (!isFence ·) =
      second :: inclusiveLines program := by
    rw [List.dropWhile_append_of_pos hplain, List.dropWhile_cons_of_neg (by simp [hsecond])]
  rw [split, h.inclusiveLines_eq]
  simp only [isFence_iff.2 h.first_fence, htake, hdrop, inclusiveLines_flatten, if_true]

/-- **What can become of a file**: its first line is no fence, or no later line is one, or it is cut. -/
theorem split_cases (content : String) :
    (split content = .error .unfenced ∧ ¬ ∃ first rest, withoutMark content.toList = first ++ rest ∧
        LineBefore first rest ∧ Fence first) ∨
      (split content = .error .unclosed ∧ ∃ first rest, withoutMark content.toList = first ++ rest ∧
        LineBefore first rest ∧ Fence first ∧ ∀ line, HasLine rest line → ¬ Fence line) ∨
      ∃ first header second program, Fenced (withoutMark content.toList) first header second program := by
  cases hlines : inclusiveLines (withoutMark content.toList) with
  | nil =>
    refine .inl ⟨by rw [split, hlines], ?_⟩
    rintro ⟨first, rest, htext, hfirst, -⟩
    rw [htext, inclusiveLines_line hfirst] at hlines
    cases hlines
  | cons first lines =>
    obtain ⟨rest, htext, hfirst, rfl⟩ := line_of_inclusiveLines hlines
    cases hfence : isFence first with
    | false =>
      refine .inl ⟨by rw [split, hlines]; simp [hfence], ?_⟩
      rintro ⟨first', rest', htext', hfirst', hfence'⟩
      obtain ⟨rfl, -⟩ := hfirst.unique hfirst' (htext.symm.trans htext')
      rw [isFence_iff.2 hfence'] at hfence
      cases hfence
    | true =>
      cases hdrop : (inclusiveLines rest).dropWhile (!isFence ·) with
      | nil =>
        refine .inr (.inl ⟨by rw [split, hlines]; simp [hfence, hdrop], first, rest, htext, hfirst,
          isFence_iff.1 hfence, ?_⟩)
        intro line hline
        have hplain := List.dropWhile_eq_nil_iff.1 hdrop line (mem_inclusiveLines_iff.2 hline)
        rw [← isFence_iff]
        simpa using hplain
      | cons second program =>
        have hcut : inclusiveLines rest = (inclusiveLines rest).takeWhile (!isFence ·) ++ second :: program := by
          rw [← hdrop, List.takeWhile_append_dropWhile]
        have hplain : ∀ line ∈ (inclusiveLines rest).takeWhile (!isFence ·), isFence line = false := by
          intro line hline
          simpa using List.mem_takeWhile_imp hline
        have hsecond : isFence second = true := by
          have hstops := List.head?_dropWhile_not (!isFence ·) (inclusiveLines rest)
          rw [hdrop] at hstops
          simpa using hstops
        rw [hcut] at hlines
        exact .inr (.inr ⟨_, _, _, _, fenced_of_lines hlines hfence hplain hsecond⟩)

theorem split_eq_ok_iff {header program : String} :
    split content = .ok (header, program) ↔
      ∃ first second, Fenced (withoutMark content.toList) first header.toList second program.toList := by
  constructor
  · intro h
    rcases split_cases content with ⟨herror, -⟩ | ⟨herror, -⟩ | ⟨first, cs, second, ds, hfenced⟩
    · rw [herror] at h
      cases h
    · rw [herror] at h
      cases h
    · rw [split_of_fenced hfenced] at h
      cases h
      rw [String.toList_ofList, String.toList_ofList]
      exact ⟨first, second, hfenced⟩
  · rintro ⟨first, second, hfenced⟩
    rw [split_of_fenced hfenced, String.ofList_toList, String.ofList_toList]

/-- a file is cut, or else there are no two fences in it of which one opens it -/
theorem opensFenced_cases (content : String) :
    (OpensFenced (withoutMark content.toList) ∧ ∃ header program, split content = .ok (header, program)) ∨
      ¬ OpensFenced (withoutMark content.toList) ∧
        (split content = .error .unfenced ∨ split content = .error .unclosed) := by
  rcases split_cases content with ⟨herror, hfirst⟩ | ⟨herror, first, rest, htext, hline, -, hplain⟩ |
    ⟨first, header, second, program, hfenced⟩
  · refine .inr ⟨?_, .inl herror⟩
    rintro ⟨first, rest, htext, hline, hfence, -⟩
    exact hfirst ⟨first, rest, htext, hline, hfence⟩
  · refine .inr ⟨?_, .inr herror⟩
    rintro ⟨first', rest', htext', hline', -, later, hlater, hfence⟩
    obtain ⟨rfl, rfl⟩ := hline.unique hline' (htext.symm.trans htext')
    exact hplain later hlater hfence
  · exact .inl ⟨hfenced.opensFenced, _, _, split_of_fenced hfenced⟩

theorem split_ok_iff :
    (∃ header program, split content = .ok (header, program)) ↔ OpensFenced (withoutMark content.toList) := by
  constructor
  · rintro ⟨header, program, hsplit⟩
    obtain ⟨first, second, hfenced⟩ := split_eq_ok_iff.1 hsplit
    exact hfenced.opensFenced
  · intro hopens
    rcases opensFenced_cases content with ⟨-, hsplit⟩ | ⟨hnot, -⟩
    · exact hsplit
    · exact absurd hopens hnot

theorem withoutMark_cases (cs : List Char) :
    cs = '\ufeff' :: withoutMark cs ∨ cs = withoutMark cs ∧ (withoutMark cs).head? ≠ some '\ufeff' := by
  unfold withoutMark
  split
  · exact .inl rfl
  · rename_i hmark
    refine .inr ⟨rfl, ?_⟩
    intro hhead
    obtain ⟨rest, rfl⟩ := List.head?_eq_some_iff.1 hhead
    exact hmark rest rfl

theorem withoutMark_of_fence {rest : List Char} (h : Fence first) : withoutMark (first ++ rest) = first ++ rest := by
  obtain ⟨blanks, rfl, -⟩ := h
  rfl

theorem parse_of_split_error {e : Complaint} (h : split content = .error e) : parse content = .error e := by
  rw [parse, h]
  rfl

/-- what a file is read as once it is cut: the header says what to expect, or is refused -/
theorem parse_of_split {header program : String} (h : split content = .ok (header, program)) :
    (∃ entries expect, Toml.parse? header = some entries ∧ Expectations.ofEntries entries = .ok expect ∧
        parse content = .ok ⟨expect, program⟩) ∨
      parse content = .error .headerNotDocument ∨ ∃ e, parse content = .error (.headerMisshapen e) := by
  rw [parse, h]
  cases hentries : Toml.parse? header with
  | none =>
    refine .inr (.inl ?_)
    simp only [bind, Except.bind, hentries]
  | some entries =>
    cases hexpect : Expectations.ofEntries entries with
    | error e =>
      refine .inr (.inr ⟨e, ?_⟩)
      simp only [bind, Except.bind, hentries, hexpect, Except.mapError]
    | ok expect =>
      refine .inl ⟨entries, expect, rfl, hexpect, ?_⟩
      simp only [bind, Except.bind, hentries, hexpect, Except.mapError, pure, Except.pure]

/-- a file that is not cut is refused for that reason, and no other file is -/
theorem parse_refused_iff :
    (parse content = .error .unfenced ∨ parse content = .error .unclosed) ↔
      ¬ OpensFenced (withoutMark content.toList) := by
  rcases opensFenced_cases content with ⟨hopens, header, program, hsplit⟩ | ⟨hopens, hsplit⟩
  · simp only [hopens, not_true_eq_false, iff_false]
    rcases parse_of_split hsplit with ⟨_, _, -, -, hparse⟩ | hparse | ⟨e, hparse⟩
    all_goals simp [hparse]
  · simp only [hopens, not_false_eq_true, iff_true]
    exact hsplit.imp parse_of_split_error parse_of_split_error

/-- a test that is read from a file: its program stands in the file, and what it expects stands in the header -/
theorem split_of_parse {t : Golden} (h : parse content = .ok t) :
    ∃ header entries, split content = .ok (header, t.program) ∧ Toml.parse? header = some entries ∧
      Expectations.ofEntries entries = .ok t.expect := by
  cases hsplit : split content with
  | error e =>
    rw [parse_of_split_error hsplit] at h
    cases h
  | ok parts =>
    rcases parse_of_split hsplit with ⟨entries, expect, hentries, hexpect, hparse⟩ | hparse | ⟨e, hparse⟩
    · rw [hparse] at h
      cases h
      exact ⟨parts.1, entries, rfl, hentries, hexpect⟩
    · rw [hparse] at h
      cases h
    · rw [hparse] at h
      cases h

end Golden

/-- **A test file splits losslessly.** Leave out the byte order mark at the start of a file, if there is one. The file is
cut into a header and a program exactly if its first line is a fence and a later line is one; then these two fences, the
header between them and the program behind them make up the file, and no line of the header is a fence. A test that is
read from the file expects what the header says, of that program. The other way round, a header and a program that are
put between and behind two fences are found again, if no line of the header is a fence. -/
theorem golden_splits_losslessly :
    (∀ content : String, ∃ text,
      (content.toList = '\ufeff' :: text ∨ content.toList = text ∧ text.head? ≠ some '\ufeff') ∧
      ((∃ header program, Golden.split content = .ok (header, program)) ↔ OpensFenced text) ∧
      (∀ header program, Golden.split content = .ok (header, program) →
        ∃ first second, Fenced text first header.toList second program.toList) ∧
      ((Golden.parse content = .error .unfenced ∨ Golden.parse content = .error .unclosed) ↔ ¬ OpensFenced text) ∧
      ∀ t, Golden.parse content = .ok t → ∃ header entries, Golden.split content = .ok (header, t.program) ∧
        Toml.parse? header = some entries ∧ Expectations.ofEntries entries = .ok t.expect) ∧
    ∀ first header second program, EndedLine first → Fence first → WholeLines header →
      (∀ line, HasLine header line → ¬ Fence line) → EndedLine second → Fence second →
      Golden.split (String.ofList (first ++ header ++ second ++ program)) =
        .ok (String.ofList header, String.ofList program) := by
  constructor
  · intro content
    refine ⟨Golden.withoutMark content.toList, Golden.withoutMark_cases content.toList, Golden.split_ok_iff, ?_,
      Golden.parse_refused_iff, ?_⟩
    · intro header program hsplit
      exact Golden.split_eq_ok_iff.1 hsplit
    · intro t ht
      exact Golden.split_of_parse ht
  · intro first header second program hfirst hfence hwhole hplain hsecond hfence'
    have hfenced : Fenced (Golden.withoutMark (first ++ header ++ second ++ program)) first header second program := by
      rw [List.append_assoc, List.append_assoc, Golden.withoutMark_of_fence hfence]
      exact ⟨by simp only [List.append_assoc], hfirst, hfence, hwhole, hplain, .inl hsecond, hfence'⟩
    apply Golden.split_of_fenced
    rw [String.toList_ofList]
    exact hfenced

/-- a file with a carriage return and a blank behind its two fences and a third fence in its program, and a file with a
mark and an empty header -/
theorem golden_splits_losslessly_third_fence :
    (EndedLine "---\r\n".toList ∧ Fence "---\r\n".toList ∧ WholeLines "a = 1\n".toList ∧
      (∀ line, HasLine "a = 1\n".toList line → ¬ Fence line) ∧ EndedLine "--- \n".toList ∧ Fence "--- \n".toList ∧
      Golden.split "---\r\na = 1\n--- \n---\n" = .ok ("a = 1\n", "---\n")) ∧
    Golden.split "\ufeff---\n---" = .ok ("", "") ∧ OpensFenced "---\n---".toList ∧
      (∃ first second, Fenced "---\n---".toList first [] second []) ∧
      Golden.parse "\ufeff---\n---" = .ok ⟨{}, ""⟩ ∧
      ∃ header entries, Golden.split "\ufeff---\n---" = .ok (header, "") ∧ Toml.parse? header = some entries ∧
        Expectations.ofEntries entries = .ok {} := by
  have hfirst : EndedLine "---\r\n".toList := ⟨"---\r".toList, by decide, rfl⟩
  have hfence : Fence "---\r\n".toList := ⟨"\r\n".toList, rfl, List.all_eq_true.1 (by decide)⟩
  have hwhole : WholeLines "a = 1\n".toList := .inr ⟨"a = 1".toList, rfl⟩
  have hplain : ∀ line, HasLine "a = 1\n".toList line → ¬ Fence line := by
    have hnone : (inclusiveLines "a = 1\n".toList).all (!Golden.isFence ·) = true := by decide
    intro line hline
    rw [← isFence_iff]
    simpa using List.all_eq_true.1 hnone line (mem_inclusiveLines_iff.2 hline)
  have hsecond : EndedLine "--- \n".toList := ⟨"--- ".toList, by decide, rfl⟩
  have hfence' : Fence "--- \n".toList := ⟨" \n".toList, rfl, List.all_eq_true.1 (by decide)⟩
  have hfound := golden_splits_losslessly.2 _ _ _ "---\n".toList hfirst hfence hwhole hplain hsecond hfence'
  have hmarked : Golden.split "\ufeff---\n---" = .ok ("", "") := by rfl
  have hread : Golden.parse "\ufeff---\n---" = .ok ⟨{}, ""⟩ := eq_ok_of_toOption (by decide +kernel)
  obtain ⟨text, htext, hopens, hparts, -, hparse⟩ := golden_splits_losslessly.1 "\ufeff---\n---"
  have hunmarked : text = "---\n---".toList := by
    rcases htext with htext | ⟨rfl, hhead⟩
    · exact (List.cons.inj htext).2.symm
    · exact absurd rfl hhead
  subst hunmarked
  exact ⟨⟨hfirst, hfence, hwhole, hplain, hsecond, hfence', hfound⟩, hmarked, hopens.1 ⟨_, _, hmarked⟩,
    hparts _ _ hmarked, hread, hparse _ hread⟩

end BlockSketch
