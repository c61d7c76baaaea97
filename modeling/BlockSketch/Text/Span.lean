/-
Places in a source text. A `Span` is a range of byte offsets; `placeOf` turns an offset into the line and column that a
reader counts, both from one, the column in characters.
-/
namespace BlockSketch

/-- a range of byte offsets into a source text -/
structure Span where
  start : Nat
  stop : Nat
  deriving DecidableEq, Repr, Inhabited

namespace Text

/-- line and column of `offset` in a text whose first character stands at `pos`, on `line`, in `column` -/
def placeFrom (offset : Nat) : (pos line column : Nat) → List Char → Nat × Nat
  | _, line, column, [] => (line, column)
  | pos, line, column, c :: rest =>
    if offset < pos + c.utf8Size then (line, column)
    else if c = '\n' then placeFrom offset (pos + c.utf8Size) (line + 1) 1 rest
    else placeFrom offset (pos + c.utf8Size) line (column + 1) rest

/-- line and column of a byte offset, counted from one -/
def placeOf (source : String) (offset : Nat) : Nat × Nat := placeFrom offset 0 1 1 source.toList

end Text

end BlockSketch
