/-
Text in a sketch: a string literal in which quotes, backslashes, newlines and tabs are escaped and all else stands for
itself.
-/
import BlockSketch.Sketch.Generator

namespace BlockSketch.Library

/-- how one character is written in a string literal -/
def literalChar : Char → List Char
  | '"' => ['\\', '"']
  | '\\' => ['\\', '\\']
  | '\n' => ['\\', 'n']
  | '\t' => ['\\', 't']
  | c => [c]

def literal (value : String) : String := "\"" ++ String.ofList (value.toList.flatMap literalChar) ++ "\""

theorem literal_toList (value : String) :
    (literal value).toList = '"' :: (value.toList.flatMap literalChar ++ ['"']) := by
  simp [literal, String.toList_append, String.toList_ofList]

/-- newlines and tabs are not written raw -/
theorem ne_of_mem_literalChar {c d : Char} (h : d ∈ literalChar c) : d ≠ '\n' ∧ d ≠ '\t' := by
  unfold literalChar at h
  split at h
  case h_5 hline htab =>
    rw [List.mem_singleton] at h
    rw [h]
    exact ⟨hline, htab⟩
  all_goals
    simp only [List.mem_cons, List.not_mem_nil, or_false] at h
    rcases h with rfl | rfl <;> decide

/-- the text of a block, blanks and all; none is the empty text -/
def textValue (block : Block) (_ : Slots) : Gen OrderedCode :=
  return .atomic (literal ((block.field? "TEXT").getD ""))

end BlockSketch.Library
