/-
Indentation in one pass.

`indentLines` cuts a text into lines, takes their endings off, puts blanks before those that are not empty, and joins
them again. `indentFrom` does the same from left to right: it only has to know whether it is at the start of a line.
What a piece of text becomes then depends on the text before it in that one respect.

Results:
- `toList_indentLines`: the two agree on every text;
- `indentFrom_within`: what is within one line stays as it is.
-/
import BlockSketch.Text.Lines
import Mathlib.Data.List.Basic

namespace BlockSketch.Text

/-- the rest of a text, indented; `start` says whether it starts a line -/
def indentFrom (width : Nat) : Bool → List Char → List Char
  | start, [] => if start then [] else ['\n']
  | start, c :: rest =>
    if c = '\n' then '\n' :: indentFrom width true rest
    else if c = '\r' ∧ rest.head? = some '\n' then indentFrom width start rest
    else (if start then List.replicate width ' ' else []) ++ c :: indentFrom width false rest

/-- a line without its ending, as it is written again -/
def indentedLine (width : Nat) (line : List Char) : List Char :=
  if line = [] then ['\n'] else List.replicate width ' ' ++ (line ++ ['\n'])

theorem toList_indentLine (width : Nat) (line : String) :
    (indentLine width line).toList = indentedLine width line.toList := by
  unfold indentLine indentedLine
  by_cases h : line = ""
  · simp [h]
  · have hne : line.toList ≠ [] := by simpa using h
    simp [h, hne, String.toList_append]

theorem withoutEnding_cons {c : Char} {piece : List Char} (hne : piece ≠ []) (h : ¬(c = '\r' ∧ piece = ['\n'])) :
    withoutEnding (c :: piece) = c :: withoutEnding piece := by
  unfold withoutEnding
  rw [List.reverse_cons]
  generalize hr : piece.reverse = r
  obtain rfl : piece = r.reverse := by rw [← hr, List.reverse_reverse]
  rcases r with _ | ⟨x, _ | ⟨y, r⟩⟩
  · exact absurd rfl hne
  · by_cases hx : x = '\n'
    · have hc : c ≠ '\r' := fun hc => h ⟨hc, by simp [hx]⟩
      simp [hx, hc]
    · simp [hx]
  · by_cases hx : x = '\n'
    · by_cases hy : y = '\r'
      · simp [hx, hy]
      · simp [hx, hy]
    · simp [hx]

theorem inclusiveLines_cons {c : Char} {rest piece : List Char} {pieces : List (List Char)} (hc : c ≠ '\n')
    (h : inclusiveLines rest = piece :: pieces) : inclusiveLines (c :: rest) = (c :: piece) :: pieces := by
  simp [inclusiveLines, hc, h]

theorem ne_nil_of_mem_inclusiveLines {cs : List Char} : ∀ piece ∈ inclusiveLines cs, piece ≠ [] := by
  induction cs with
  | nil => simp [inclusiveLines]
  | cons c rest ih =>
    simp only [inclusiveLines]
    split
    · simpa using ih
    · split
      · simp
      · rename_i hrest
        rw [hrest] at ih
        simpa using fun piece hp => ih piece (List.mem_cons_of_mem _ hp)

/-- from the start of a line or from within one, the first line and then the others are written again -/
theorem indentFrom_eq (width : Nat) (cs : List Char) :
    indentFrom width true cs = (inclusiveLines cs).flatMap (fun piece => indentedLine width (withoutEnding piece)) ∧
      ∀ piece pieces, inclusiveLines cs = piece :: pieces →
        indentFrom width false cs = withoutEnding piece ++
          '\n' :: pieces.flatMap (fun piece => indentedLine width (withoutEnding piece)) := by
  induction cs with
  | nil => exact ⟨rfl, fun piece pieces h => by cases h⟩
  | cons c rest ih =>
    by_cases hc : c = '\n'
    · -- the line ends here
      subst hc
      have hend : withoutEnding ['\n'] = [] := rfl
      refine ⟨?_, fun piece pieces h => ?_⟩
      · simp [indentFrom, inclusiveLines, hend, indentedLine, ih.1]
      · have hpieces : inclusiveLines ('\n' :: rest) = ['\n'] :: inclusiveLines rest := by simp [inclusiveLines]
        rw [hpieces] at h
        cases h
        simp [indentFrom, hend, ih.1]
    · cases hrest : inclusiveLines rest with
      | nil =>
        -- the text ends here, in the middle of a line
        have hnil : rest = [] := by rw [← inclusiveLines_flatten rest, hrest]; rfl
        have hend : withoutEnding [c] = [c] := by simp [withoutEnding, hc]
        subst hnil
        refine ⟨?_, fun piece pieces h => ?_⟩
        · simp [indentFrom, inclusiveLines, hc, hend, indentedLine]
        · have hpieces : inclusiveLines [c] = [[c]] := by simp [inclusiveLines, hc]
          rw [hpieces] at h
          cases h
          simp [indentFrom, hc, hend]
      | cons first others =>
        have hflat : rest = first ++ others.flatten := by rw [← inclusiveLines_flatten rest, hrest]; rfl
        rw [inclusiveLines_cons hc hrest]
        by_cases hcr : c = '\r' ∧ rest.head? = some '\n'
        · -- a line ending of two characters
          obtain ⟨rfl, hhead⟩ := hcr
          obtain ⟨rest', rfl⟩ : ∃ rest', rest = '\n' :: rest' := by
            cases rest with
            | nil => cases hhead
            | cons x rest' => cases hhead; exact ⟨rest', rfl⟩
          have hfirst : first = ['\n'] := by
            simp only [inclusiveLines, if_true] at hrest
            cases hrest
            rfl
          subst hfirst
          have hend : withoutEnding ['\r', '\n'] = withoutEnding ['\n'] := rfl
          have hskip (start : Bool) :
              indentFrom width start ('\r' :: '\n' :: rest') = indentFrom width start ('\n' :: rest') := by
            simp [indentFrom]
          refine ⟨?_, fun piece pieces h => ?_⟩
          · rw [hskip, ih.1, hrest, List.flatMap_cons, List.flatMap_cons, hend]
          · cases h
            rw [hskip, ih.2 _ _ hrest, hend]
        · have hfirst : first ≠ [] := ne_nil_of_mem_inclusiveLines first (by rw [hrest]; exact List.mem_cons_self)
          have hend : withoutEnding (c :: first) = c :: withoutEnding first :=
            withoutEnding_cons hfirst fun hline => hcr ⟨hline.1, by rw [hflat, hline.2]; rfl⟩
          refine ⟨?_, fun piece pieces h => ?_⟩
          · rw [indentFrom, if_neg hc, if_neg hcr, ih.2 _ _ hrest, List.flatMap_cons, hend]
            simp [indentedLine]
          · cases h
            rw [indentFrom, if_neg hc, if_neg hcr, ih.2 _ _ hrest, hend]
            simp

/-- **Indentation goes from left to right.** -/
theorem toList_indentLines (width : Nat) (s : String) :
    (indentLines width s).toList = indentFrom width true s.toList := by
  rw [(indentFrom_eq width s.toList).1, indentLines, lines, String.toList_join, List.map_map, List.flatMap_map]
  refine List.flatMap_congr fun piece _ => ?_
  simp [toList_indentLine]

/-- up to a character that is neither of the two that end lines nothing changes but that a line may start -/
theorem indentFrom_within (width : Nat) (start : Bool) {cs rest : List Char} (hcs : '\n' ∉ cs) {c : Char}
    (hn : c ≠ '\n') (hr : c ≠ '\r') :
    indentFrom width start (cs ++ c :: rest) =
      (if start then List.replicate width ' ' else []) ++ (cs ++ c :: indentFrom width false rest) := by
  induction cs generalizing start with
  | nil => simp [indentFrom, hn, hr]
  | cons x xs ih =>
    obtain ⟨hx, hxs⟩ : x ≠ '\n' ∧ '\n' ∉ xs := by simpa [eq_comm] using hcs
    have hhead : (xs ++ c :: rest).head? ≠ some '\n' := by
      cases xs with
      | nil => simpa using hn
      | cons y ys =>
        simp only [List.mem_cons, not_or] at hxs
        simpa using fun h => hxs.1 h.symm
    rw [List.cons_append, indentFrom, if_neg hx, if_neg fun h => hhead h.2, ih false hxs]
    simp

end BlockSketch.Text
