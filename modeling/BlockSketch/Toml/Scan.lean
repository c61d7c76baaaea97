/-
Reading characters of a document from left to right.

A `Cursor` is a byte offset and the characters from there on. A `Scan` reads some of them or fails; failing needs no
reason, because a text that is not a document is answered as a whole. Repetition takes as many steps as there are
characters left, and every step that goes on reads at least one.
-/
import BlockSketch.Text.Span

namespace BlockSketch.Toml

/-- a place in a document and what follows it -/
structure Cursor where
  pos : Nat
  rest : List Char

/-- reads from a cursor, or fails -/
abbrev Scan := StateT Cursor Option

namespace Scan

/-- the byte offset of the next character -/
def here : Scan Nat := do return (← get).pos

/-- the next character, left in place -/
def peek : Scan (Option Char) := do return (← get).rest.head?

def next : Scan Char := fun c =>
  match c.rest with
  | [] => none
  | x :: rest => some (x, ⟨c.pos + x.utf8Size, rest⟩)

/-- exactly the character `x` -/
def literal (x : Char) : Scan Unit := do guard ((← next) == x)

/-- whether these characters come next -/
def sees (xs : List Char) : Scan Bool := do return xs.isPrefixOf (← get).rest

/-- the longest run of characters in a class -/
def run (p : Char → Bool) : Scan (List Char) := fun c =>
  let taken := c.rest.takeWhile p
  some (taken, ⟨taken.foldl (fun pos x => pos + x.utf8Size) c.pos, c.rest.drop taken.length⟩)

/-- exactly `n` characters -/
def skip : Nat → Scan Unit
  | 0 => pure ()
  | n + 1 => do
    let _ ← next
    skip n

/-- at most `fuel` steps, until one has nothing to give -/
def manyUpTo {α : Type} (step : Scan (Option α)) : Nat → Scan (List α)
  | 0 => failure
  | fuel + 1 => do
    match ← step with
    | none => return []
    | some x => return x :: (← manyUpTo step fuel)

/-- steps until one has nothing to give -/
def many {α : Type} (step : Scan (Option α)) : Scan (List α) := fun c => manyUpTo step (c.rest.length + 1) c

/-- what `x` reads, with the span it was read from -/
def spanned {α : Type} (x : Scan α) : Scan (α × Span) := do
  let start ← here
  let a ← x
  return (a, ⟨start, ← here⟩)

/-! ## Blanks, line ends and comments -/

def isSpace (c : Char) : Bool := c == ' ' || c == '\t'

/-- a character outside ASCII -/
def isWide (c : Char) : Bool := 0x80 ≤ c.toNat

def isCommentChar (c : Char) : Bool := c == '\t' || (0x20 ≤ c.toNat && c.toNat ≤ 0x7e) || isWide c

def spaces : Scan Unit := do
  let _ ← run isSpace

/-- a line feed, or a carriage return directly followed by one -/
def newline : Scan Unit := do
  match ← next with
  | '\n' => pure ()
  | '\r' => literal '\n'
  | _ => failure

/-- a number sign and the rest of its line -/
def comment : Scan Unit := do
  literal '#'
  let _ ← run isCommentChar

/-- a line end, or the end of the document -/
def lineEnd : Scan Unit := do
  if (← peek).isSome then newline

/-- what may stand on a line after its content -/
def trailing : Scan Unit := do
  spaces
  if (← peek) == some '#' then comment
  lineEnd

/-- blanks, comments and line ends between the items of an array -/
def filler : Scan Unit := do
  let _ : List Unit ← many do
    match ← peek with
    | some ' ' | some '\t' => return some (← skip 1)
    | some '\n' | some '\r' => return some (← newline)
    | some '#' => do
      comment
      return some (← newline)
    | _ => return none

end Scan

end BlockSketch.Toml
