/-
Texts with gaps that string literals fill.

An outline is a text in which some places are left open. `Fits o quotes text` says that `text` is the outline with the
string literals `quotes` in its gaps, from left to right. A literal opens and closes with a quote and has no newline in
it, and that is all that laying out a text can see of it: what happens to a text that fits an outline happens to the
outline, and the literals stay what they are.

Results:
- `Fits.indent`, `Fits.trimEnd`: a text that is indented or loses the blanks at its end fits the outline to which the
  same is done;
- `fits_intercalate`: texts joined by a separator fit the outlines joined by it;
- `Fits.interleave`: a text that fits an outline is the segments of the outline with the literals between them.
-/
import BlockSketch.Library.TextLiteral
import BlockSketch.Proofs.Indentation

namespace BlockSketch

/-- what laying out a text can see of a string literal -/
def Quoted (q : String) : Prop := ∃ body, q.toList = '"' :: (body ++ ['"']) ∧ '\n' ∉ body

theorem quoted_literal (value : String) : Quoted (Library.literal value) := by
  refine ⟨value.toList.flatMap Library.literalChar, Library.literal_toList value, ?_⟩
  intro hmem
  obtain ⟨c, -, hc⟩ := List.mem_flatMap.1 hmem
  exact (Library.ne_of_mem_literalChar hc).1 rfl

/-- a text in which some places are left open -/
abbrev Outline := List (Option Char)

/-- the text is the outline with these literals in its gaps -/
inductive Fits : Outline → List String → List Char → Prop where
  | nil : Fits [] [] []
  | char {o : Outline} {quotes : List String} {text : List Char} (c : Char) (h : Fits o quotes text) :
    Fits (some c :: o) quotes (c :: text)
  | quote {o : Outline} {quotes : List String} {text : List Char} {q : String} (hq : Quoted q)
    (h : Fits o quotes text) : Fits (none :: o) (q :: quotes) (q.toList ++ text)

namespace Outline

def solid (s : String) : Outline := s.toList.map some

end Outline

variable {o o' : Outline} {quotes quotes' : List String} {text text' : List Char}

theorem fits_solid (s : String) : Fits (Outline.solid s) [] s.toList := by
  unfold Outline.solid
  induction s.toList with
  | nil => exact .nil
  | cons c cs ih => exact .char c ih

theorem fits_quote {q : String} (hq : Quoted q) : Fits [none] [q] q.toList := by
  simpa using Fits.quote hq Fits.nil

theorem Fits.append (h : Fits o quotes text) (h' : Fits o' quotes' text') :
    Fits (o ++ o') (quotes ++ quotes') (text ++ text') := by
  induction h with
  | nil => exact h'
  | char c _ ih => exact .char c ih
  | quote hq _ ih =>
    rw [List.append_assoc]
    exact .quote hq ih

theorem Fits.between (h : Fits o quotes text) (before after : String) :
    Fits (Outline.solid before ++ (o ++ Outline.solid after)) quotes (before.toList ++ (text ++ after.toList)) := by
  simpa using (fits_solid before).append (h.append (fits_solid after))

/-! ## Indentation -/

def Outline.indent (width : Nat) : Bool → Outline → Outline
  | start, [] => if start then [] else [some '\n']
  | start, none :: rest => (if start then List.replicate width (some ' ') else []) ++ none :: indent width false rest
  | start, some c :: rest =>
    if c = '\n' then some '\n' :: indent width true rest
    else if c = '\r' ∧ rest.head? = some (some '\n') then indent width start rest
    else (if start then List.replicate width (some ' ') else []) ++ some c :: indent width false rest

theorem fits_blanks (n : Nat) : Fits (List.replicate n (some ' ')) [] (List.replicate n ' ') := by
  induction n with
  | zero => exact .nil
  | succ n ih => exact .char ' ' ih

/-- text and outline go on with a newline at the same time -/
theorem Fits.head_newline (h : Fits o quotes text) : text.head? = some '\n' ↔ o.head? = some (some '\n') := by
  cases h with
  | nil => simp
  | char c _ => simp
  | quote hq _ =>
    obtain ⟨body, hbody, -⟩ := hq
    simp [hbody]

theorem Fits.indent (h : Fits o quotes text) (width : Nat) (start : Bool) :
    Fits (o.indent width start) quotes (Text.indentFrom width start text) := by
  have hblanks (start : Bool) : Fits (if start then List.replicate width (some ' ') else []) []
      (if start then List.replicate width ' ' else []) := by
    cases start
    · exact .nil
    · exact fits_blanks width
  induction h generalizing start with
  | nil =>
    cases start
    · exact .char '\n' .nil
    · exact .nil
  | @char o quotes text c h ih =>
    rw [Outline.indent, Text.indentFrom]
    by_cases hc : c = '\n'
    · rw [if_pos hc, if_pos hc]
      exact .char '\n' (ih true)
    · rw [if_neg hc, if_neg hc]
      by_cases hcr : c = '\r' ∧ text.head? = some '\n'
      · rw [if_pos hcr, if_pos ⟨hcr.1, h.head_newline.1 hcr.2⟩]
        exact ih start
      · rw [if_neg hcr, if_neg fun hcr' => hcr ⟨hcr'.1, h.head_newline.2 hcr'.2⟩]
        exact (hblanks start).append (.char c (ih false))
  | @quote o quotes text q hq h ih =>
    obtain ⟨body, hbody, hn⟩ := id hq
    -- the literal is within one line, and its last character is a quote
    have hwithin : Text.indentFrom width start (q.toList ++ text) =
        (if start then List.replicate width ' ' else []) ++ (q.toList ++ Text.indentFrom width false text) := by
      have h : Text.indentFrom width start ('"' :: body ++ '"' :: text) = _ :=
        Text.indentFrom_within width start (by simpa using hn) (by decide) (by decide)
      simpa [hbody] using h
    rw [hwithin, Outline.indent]
    exact (hblanks start).append (.quote hq (ih false))

/-! ## Blanks at the end -/

def Outline.trimEnd : Outline → Outline
  | [] => []
  | none :: rest => none :: trimEnd rest
  | some c :: rest => if Text.isBlank c = true ∧ trimEnd rest = [] then [] else some c :: trimEnd rest

theorem dropBlankEnd_cons (c : Char) (cs : List Char) :
    Text.dropBlankEnd (c :: cs) =
      if Text.isBlank c = true ∧ Text.dropBlankEnd cs = [] then [] else c :: Text.dropBlankEnd cs := by
  unfold Text.dropBlankEnd
  rw [List.reverse_cons, List.dropWhile_append]
  by_cases hcs : cs.reverse.dropWhile Text.isBlank = []
  · cases hc : Text.isBlank c
    · simp [hcs, hc]
    · simp [hcs, hc]
  · simp [hcs]

theorem dropBlankEnd_append {c : Char} (hc : Text.isBlank c = false) (before after : List Char) :
    Text.dropBlankEnd (before ++ c :: after) = before ++ c :: Text.dropBlankEnd after := by
  induction before with
  | nil => simp [dropBlankEnd_cons, hc]
  | cons x xs ih => rw [List.cons_append, dropBlankEnd_cons, ih]; simp

theorem Fits.eq_nil_iff (h : Fits o quotes text) : text = [] ↔ o = [] := by
  cases h with
  | nil => simp
  | char c _ => simp
  | quote hq _ =>
    obtain ⟨body, hbody, -⟩ := hq
    simp [hbody]

theorem Fits.trimEnd (h : Fits o quotes text) : Fits o.trimEnd quotes (Text.dropBlankEnd text) := by
  induction h with
  | nil => exact .nil
  | @char o quotes text c h ih =>
    rw [Outline.trimEnd, dropBlankEnd_cons]
    simp only [ih.eq_nil_iff]
    by_cases hc : Text.isBlank c = true ∧ o.trimEnd = []
    · rw [if_pos hc, if_pos hc]
      rw [hc.2] at ih
      generalize Text.dropBlankEnd text = trimmed at ih
      cases ih
      exact .nil
    · rw [if_neg hc, if_neg hc]
      exact .char c ih
  | @quote o quotes text q hq h ih =>
    obtain ⟨body, hbody, -⟩ := id hq
    have hend : Text.dropBlankEnd (q.toList ++ text) = q.toList ++ Text.dropBlankEnd text := by
      simpa [hbody] using dropBlankEnd_append (c := '"') rfl ('"' :: body) text
    rw [hend, Outline.trimEnd]
    exact .quote hq ih

/-! ## Many texts -/

/-- the texts are the outlines with these literals in their gaps, one text after the other -/
inductive FitsAll : List Outline → List String → List String → Prop where
  | nil : FitsAll [] [] []
  | cons {o : Outline} {os : List Outline} {quotes quotes' : List String} {text : String} {texts : List String}
    (h : Fits o quotes text.toList) (hs : FitsAll os quotes' texts) : FitsAll (o :: os) (quotes ++ quotes') (text :: texts)

theorem fitsAll_solid (texts : List String) : FitsAll (texts.map Outline.solid) [] texts := by
  induction texts with
  | nil => exact .nil
  | cons text rest ih => exact .cons (fits_solid text) ih

theorem FitsAll.append {os os' : List Outline} {texts texts' : List String} (h : FitsAll os quotes texts)
    (h' : FitsAll os' quotes' texts') : FitsAll (os ++ os') (quotes ++ quotes') (texts ++ texts') := by
  induction h with
  | nil => exact h'
  | cons h _ ih =>
    rw [List.append_assoc]
    exact .cons h ih

theorem fits_intercalate (separator : String) {os : List Outline} {texts : List String} (h : FitsAll os quotes texts) :
    Fits ((Outline.solid separator).intercalate os) quotes (separator.intercalate texts).toList := by
  rw [String.toList_intercalate]
  induction h with
  | nil => exact .nil
  | @cons o os quotes quotes' text texts h hs ih =>
    cases hs with
    | nil => simpa using h
    | cons h' hs' =>
      rw [List.map_cons, List.map_cons, List.intercalate_cons_cons, List.intercalate_cons_cons]
      simpa using (h.append (fits_solid separator)).append ih

/-! ## Segments -/

/-- the parts of an outline between its gaps -/
def Outline.segments : Outline → List (List Char)
  | [] => [[]]
  | none :: rest => [] :: segments rest
  | some c :: rest =>
    match segments rest with
    | [] => [[c]]
    | first :: others => (c :: first) :: others

/-- texts in turn: a segment, a literal, a segment, and so on -/
def interleave : List String → List String → String
  | segment :: segments, quote :: quotes => segment ++ quote ++ interleave segments quotes
  | segments, _ => String.join segments

theorem Outline.segments_ne_nil (o : Outline) : o.segments ≠ [] := by
  induction o with
  | nil => simp [segments]
  | cons c rest ih =>
    cases c with
    | none => simp [segments]
    | some c =>
      unfold segments
      split <;> simp

/-- a text that fits an outline is the segments of the outline with the literals between them -/
theorem Fits.interleave (h : Fits o quotes text) :
    (o.segments.map String.ofList).length = quotes.length + 1 ∧
      (interleave (o.segments.map String.ofList) quotes).toList = text := by
  induction h with
  | nil => exact ⟨rfl, rfl⟩
  | @char o quotes text c h ih =>
    obtain ⟨first, others, hsegments⟩ := List.exists_cons_of_ne_nil o.segments_ne_nil
    have hnew : Outline.segments (some c :: o) = (c :: first) :: others := by rw [Outline.segments, hsegments]
    rw [hsegments] at ih
    rw [hnew]
    refine ⟨by simpa using ih.1, ?_⟩
    cases quotes with
    | nil => simpa [BlockSketch.interleave] using ih.2
    | cons q quotes => simpa [BlockSketch.interleave] using ih.2
  | @quote o quotes text q hq h ih =>
    have hnew : Outline.segments (none :: o) = [] :: o.segments := by rw [Outline.segments]
    rw [hnew]
    refine ⟨by simpa using ih.1, ?_⟩
    simpa [BlockSketch.interleave] using ih.2

end BlockSketch
