/-
String literals read back.

A compiler reads a string literal from its opening quote to the first quote that is not escaped. On the way a backslash
and the character behind it are one character of the text, and every other character stands for itself. What
`Library.literal` writes for a text is read as that text, whatever the text is and whatever follows: there may be
backslashes in front of quotes, a backslash at the end, or something that looks like an escape already. No newline and no
tab in it is raw, and it is the only way to write the text without one.

Results:
- `readContents?_literalChar`: one character as it is written is read as that character, and the rest as before;
- `readContents?_literalChars`: so all characters of a text are read back, up to the quote behind them;
- `contents_of_readContents?`: what is read was written that way, unless a newline or a tab stood there raw;
- `literal_reads_back`: a literal is read as its text and leaves what follows, and no other text without raw newlines
  and tabs does.
-/
import BlockSketch.Library.TextLiteral

namespace BlockSketch

open Library

/-! ## The reader -/

/-- what a backslash and a character behind it stand for -/
def unescaped? : Char → Option Char
  | '"' => some '"'
  | '\\' => some '\\'
  | 'n' => some '\n'
  | 't' => some '\t'
  | _ => none

def readAfter (c : Char) (read : List Char × List Char) : List Char × List Char := (c :: read.1, read.2)

/-- the text up to the first quote that is not escaped, and what stands behind that quote -/
def readContents? : List Char → Option (List Char × List Char)
  | [] => none
  | '"' :: rest => some ([], rest)
  | ['\\'] => none
  | '\\' :: c :: rest => (unescaped? c).bind fun d => (readContents? rest).map (readAfter d)
  | c :: rest => (readContents? rest).map (readAfter c)

/-- the text of the string literal that a text starts with, and what stands behind the literal -/
def readLiteral? (s : String) : Option (String × String) :=
  match s.toList with
  | '"' :: rest => (readContents? rest).map fun read => (String.ofList read.1, String.ofList read.2)
  | _ => none

/-! ## Written and read back -/

/-- **One character is read back**: what it is written as merges with nothing behind it. -/
theorem readContents?_literalChar (c : Char) (rest : List Char) :
    readContents? (literalChar c ++ rest) = (readContents? rest).map (readAfter c) := by
  unfold literalChar
  split
  · rfl
  · rfl
  · rfl
  · rfl
  · rename_i hquote hback _ _
    rw [List.singleton_append, readContents?]
    · exact hquote
    · intro hlone
      exact absurd hlone hback
    · intro _ _ hescape
      exact absurd hescape hback

/-- so the characters of a text are, up to the quote that closes the literal -/
theorem readContents?_literalChars (value rest : List Char) :
    readContents? (value.flatMap literalChar ++ '"' :: rest) = some (value, rest) := by
  induction value with
  | nil => rfl
  | cons c value ih =>
    rw [List.flatMap_cons, List.append_assoc, readContents?_literalChar, ih]
    rfl

theorem readLiteral?_literal (value rest : String) : readLiteral? (literal value ++ rest) = some (value, rest) := by
  have hchars : (literal value ++ rest).toList =
      '"' :: (value.toList.flatMap literalChar ++ '"' :: rest.toList) := by
    rw [String.toList_append, literal_toList, List.cons_append, List.append_assoc]
    rfl
  rw [readLiteral?, hchars]
  simp only [readContents?_literalChars, Option.map_some, String.ofList_toList]

/-! ## No raw newlines and tabs -/

theorem ne_of_mem_literal {value : String} {d : Char} (h : d ∈ (literal value).toList) : d ≠ '\n' ∧ d ≠ '\t' := by
  rw [literal_toList, List.mem_cons, List.mem_append, List.mem_flatMap, List.mem_singleton] at h
  rcases h with rfl | ⟨c, -, hc⟩ | rfl
  · decide
  · exact ne_of_mem_literalChar hc
  · decide

/-! ## Read and written again -/

/-- an escape is how the character that it stands for is written -/
theorem literalChar_of_unescaped? {c d : Char} (h : unescaped? c = some d) : literalChar d = ['\\', c] := by
  unfold unescaped? at h
  split at h
  all_goals cases h
  all_goals rfl

theorem literalChar_of_raw {c : Char} (hquote : c ≠ '"') (hback : c ≠ '\\') (hline : c ≠ '\n') (htab : c ≠ '\t') :
    literalChar c = [c] := by
  unfold literalChar
  split
  case h_5 => rfl
  all_goals contradiction

/-- **What is read was written that way**: the text that is read stands in front of a quote and of all that is left, and
without raw newlines and tabs each of its characters is written the way a literal has it. -/
theorem contents_of_readContents? {cs value left : List Char} (h : readContents? cs = some (value, left)) :
    ∃ body, cs = body ++ '"' :: left ∧ ('\n' ∉ body → '\t' ∉ body → body = value.flatMap literalChar) := by
  fun_induction readContents? cs generalizing value with
  | case1 => cases h
  | case2 rest =>
    cases h
    exact ⟨[], rfl, fun _ _ => rfl⟩
  | case3 => cases h
  | case4 c rest ih =>
    obtain ⟨d, hd, hread⟩ := Option.bind_eq_some_iff.1 h
    obtain ⟨read, hrest, hvalue⟩ := Option.map_eq_some_iff.1 hread
    cases hvalue
    obtain ⟨body, rfl, hbody⟩ := ih hrest
    refine ⟨'\\' :: c :: body, rfl, ?_⟩
    intro hline htab
    simp only [List.mem_cons, not_or] at hline htab
    rw [List.flatMap_cons, literalChar_of_unescaped? hd, ← hbody hline.2.2 htab.2.2]
    rfl
  | case5 c rest hquote _ hescape ih =>
    obtain ⟨read, hrest, hvalue⟩ := Option.map_eq_some_iff.1 h
    cases hvalue
    obtain ⟨body, rfl, hbody⟩ := ih hrest
    -- a backslash would have a character behind it, if only the closing quote
    have hback : c ≠ '\\' := by
      intro hc
      cases body with
      | nil => exact hescape _ _ hc rfl
      | cons d body => exact hescape _ _ hc rfl
    refine ⟨c :: body, rfl, ?_⟩
    intro hline htab
    simp only [List.mem_cons, not_or] at hline htab
    rw [List.flatMap_cons, literalChar_of_raw hquote hback (Ne.symm hline.1) (Ne.symm htab.1),
      ← hbody hline.2 htab.2]
    rfl

theorem eq_literal_of_readLiteral? {written value rest : String} (hline : '\n' ∉ written.toList)
    (htab : '\t' ∉ written.toList) (h : readLiteral? (written ++ rest) = some (value, rest)) :
    written = literal value := by
  unfold readLiteral? at h
  split at h
  · rename_i cs hcs
    obtain ⟨⟨contents, left⟩, hread, hvalue⟩ := Option.map_eq_some_iff.1 h
    obtain ⟨body, rfl, hbody⟩ := contents_of_readContents? hread
    obtain ⟨rfl, hleft⟩ := Prod.mk.inj hvalue
    have hwritten : written.toList = '"' :: (body ++ ['"']) := by
      rw [String.toList_append, ← hleft, String.toList_ofList] at hcs
      have hcut : written.toList ++ left = ('"' :: (body ++ ['"'])) ++ left := by
        rw [hcs, List.cons_append, List.append_assoc]
        rfl
      exact List.append_cancel_right hcut
    have hin {c : Char} (hc : c ∈ body) : c ∈ written.toList := by
      rw [hwritten]
      exact List.mem_cons_of_mem _ (List.mem_append_left _ hc)
    apply String.toList_injective
    rw [hwritten, literal_toList, String.toList_ofList,
      hbody (fun hc => hline (hin hc)) (fun hc => htab (hin hc))]
  · cases h

/-- **Literals read back.** A literal followed by any text is read as the text it was made from and leaves what follows,
and there is no newline and no tab in it. Of all texts without newlines and tabs it is the only one that is read so. -/
theorem literal_reads_back (value rest : String) :
    readLiteral? (literal value ++ rest) = some (value, rest) ∧
      '\n' ∉ (literal value).toList ∧ '\t' ∉ (literal value).toList ∧
      ∀ written : String, '\n' ∉ written.toList → '\t' ∉ written.toList →
        readLiteral? (written ++ rest) = some (value, rest) → written = literal value := by
  refine ⟨readLiteral?_literal value rest, ?_, ?_, ?_⟩
  · intro hmem
    exact (ne_of_mem_literal hmem).1 rfl
  · intro hmem
    exact (ne_of_mem_literal hmem).2 rfl
  · intro written hline htab hread
    exact eq_literal_of_readLiteral? hline htab hread

/-- backslashes before an `n`, before a quote and at the end, and a quote right behind the literal -/
theorem literal_reads_back_backslashes :
    readLiteral? ("\"\\\\n\\\"\\\\\"" ++ "\" + x") = some ("\\n\"\\", "\" + x") ∧
      "\"\\\\n\\\"\\\\\"" = literal "\\n\"\\" := by
  have hread : readLiteral? ("\"\\\\n\\\"\\\\\"" ++ "\" + x") = some ("\\n\"\\", "\" + x") := by decide
  exact ⟨hread, (literal_reads_back _ _).2.2.2 _ (by decide) (by decide) hread⟩

end BlockSketch
