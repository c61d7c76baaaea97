/-
Lines of a text.

`inclusiveLines` cuts after every newline and loses nothing (`inclusiveLines_flatten`). `lines` also drops the line
ending, which is a newline or a carriage return directly followed by one; there is no empty line after a final newline.
`indentLines` puts blanks before every line that is not empty and ends each line with a newline.
-/
namespace BlockSketch.Text

/-- the pieces of a text, each up to and including its newline -/
def inclusiveLines : List Char → List (List Char)
  | [] => []
  | c :: rest =>
    if c = '\n' then [c] :: inclusiveLines rest
    else
      match inclusiveLines rest with
      | [] => [[c]]
      | piece :: pieces => (c :: piece) :: pieces

/-- a piece without its line ending -/
def withoutEnding (piece : List Char) : List Char :=
  match piece.reverse with
  | '\n' :: '\r' :: rest => rest.reverse
  | '\n' :: rest => rest.reverse
  | _ => piece

/-- the lines of a text without their endings -/
def lines (s : String) : List String :=
  (inclusiveLines s.toList).map fun piece => String.ofList (withoutEnding piece)

/-- a line with `width` blanks in front, unless it is empty, and a newline after it -/
def indentLine (width : Nat) (line : String) : String :=
  if line.isEmpty then "\n" else String.ofList (List.replicate width ' ') ++ line ++ "\n"

def indentLines (width : Nat) (s : String) : String := String.join ((lines s).map (indentLine width))

theorem inclusiveLines_flatten (cs : List Char) : (inclusiveLines cs).flatten = cs := by
  induction cs with
  | nil => rfl
  | cons c rest ih =>
    simp only [inclusiveLines]
    split
    · simp [ih]
    · split
      · rename_i h
        rw [h] at ih
        simp at ih
        simp [← ih]
      · rename_i h
        rw [h] at ih
        simp at ih
        simp [← ih]

end BlockSketch.Text
