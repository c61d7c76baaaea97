/-
String literals of a document: on one line or on several, with escapes between double quotes and without them between
single quotes. A literal on several lines starts with three quotes, drops a line end directly after them, reads every
line end as a line feed, and may hold up to two quotes in a row, also directly before the closing three.
-/
import BlockSketch.Toml.Scan

namespace BlockSketch.Toml

namespace Scan

/-- a character that stands for itself between double quotes -/
def isBasicChar (c : Char) : Bool :=
  c == '\t' || c == ' ' || c == '!' || (0x23 ≤ c.toNat && c.toNat ≤ 0x5b) || (0x5d ≤ c.toNat && c.toNat ≤ 0x7e) ||
    isWide c

/-- a character that stands for itself between single quotes -/
def isRawChar (c : Char) : Bool :=
  c == '\t' || (0x20 ≤ c.toNat && c.toNat ≤ 0x26) || (0x28 ≤ c.toNat && c.toNat ≤ 0x7e) || isWide c

def hexValue? (c : Char) : Option Nat :=
  if '0' ≤ c && c ≤ '9' then some (c.toNat - 48)
  else if 'a' ≤ c && c ≤ 'f' then some (c.toNat - 87)
  else if 'A' ≤ c && c ≤ 'F' then some (c.toNat - 55)
  else none

/-- exactly `n` hexadecimal digits after those with value `value` -/
def hexNumber : Nat → Nat → Scan Nat
  | 0, value => pure value
  | n + 1, value => do
    let digit ← hexValue? (← next)
    hexNumber n (16 * value + digit)

/-- the character with a code point, surrogates and numbers beyond the last one having none -/
def scalarChar (n : Nat) : Scan Char :=
  if n < 0xd800 ∨ (0xdfff < n ∧ n < 0x110000) then pure (Char.ofNat n) else failure

/-- what stands for one character after a backslash -/
def escape : Scan Char := do
  literal '\\'
  match ← next with
  | 'b' => return '\x08'
  | 'f' => return '\x0c'
  | 'n' => return '\n'
  | 'r' => return '\r'
  | 't' => return '\t'
  | '"' => return '"'
  | '\\' => return '\\'
  | 'u' => scalarChar (← hexNumber 4 0)
  | 'U' => scalarChar (← hexNumber 8 0)
  | _ => failure

/-- a literal between double quotes on one line -/
def basicString : Scan String := do
  literal '"'
  let cs ← many do
    match ← peek with
    | some '\\' => return some (← escape)
    | some c => if isBasicChar c then return some (← next) else return none
    | none => return none
  literal '"'
  return String.ofList cs

/-- a literal between single quotes on one line -/
def rawString : Scan String := do
  literal '\x27'
  let cs ← run isRawChar
  literal '\x27'
  return String.ofList cs

/-- a backslash at the end of a line is read together with all blanks and line ends after it -/
def continuedLine : Scan Unit := do
  literal '\\'
  spaces
  newline
  let _ : List Unit ← many do
    match ← peek with
    | some ' ' | some '\t' => return some (← skip 1)
    | some '\n' | some '\r' => return some (← newline)
    | _ => return none

/-- the number of quotes directly ahead -/
def quotesAhead (quote : Char) : Scan Nat := do return ((← get).rest.takeWhile (· == quote)).length

/-- one or two quotes that do not end the literal; nothing if three or more stand ahead -/
def innerQuotes (quote : Char) : Scan (Option (List Char)) := do
  let n ← quotesAhead quote
  if n < 3 then
    skip n
    return some (List.replicate n quote)
  else return none

/-- the closing quotes with those, at most two, that belong to the text before them -/
def closingQuotes (quote : Char) : Scan (List Char) := do
  let n ← quotesAhead quote
  guard (3 ≤ n)
  let inner := min (n - 3) 2
  skip (inner + 3)
  return List.replicate inner quote

/-- three quotes and a line end directly after them -/
def openingQuotes (quote : Char) : Scan Unit := do
  literal quote
  literal quote
  literal quote
  match ← peek with
  | some '\n' => newline
  | some '\r' => newline
  | _ => pure ()

/-- a literal between three double quotes -/
def basicLines : Scan String := do
  openingQuotes '"'
  let pieces ← many do
    match ← peek with
    | some '"' => innerQuotes '"'
    | some '\\' =>
      (do continuedLine; return some []) <|> (do return some [← escape])
    | some '\n' | some '\r' => do
      newline
      return some ['\n']
    | some c => if isBasicChar c then return some [← next] else failure
    | none => failure
  let last ← closingQuotes '"'
  return String.ofList (pieces.flatten ++ last)

/-- a literal between three single quotes -/
def rawLines : Scan String := do
  openingQuotes '\x27'
  let pieces ← many do
    match ← peek with
    | some '\x27' => innerQuotes '\x27'
    | some '\n' | some '\r' => do
      newline
      return some ['\n']
    | some c => if isRawChar c then return some [← next] else failure
    | none => failure
  let last ← closingQuotes '\x27'
  return String.ofList (pieces.flatten ++ last)

def stringLiteral : Scan String := do
  if ← sees ['"', '"', '"'] then basicLines
  else if ← sees ['\x27', '\x27', '\x27'] then rawLines
  else if ← sees ['"'] then basicString
  else rawString

end Scan

end BlockSketch.Toml
