/-
Text between double quotes, as messages and log lines show it: the two quoting characters, the usual control characters
and every unprintable character are spelled with a backslash, all else stands for itself.
-/
import BlockSketch.Text.Unprintable

namespace BlockSketch.Text

/-- digits of a number in base sixteen, in lower case, without leading zeros -/
def hexDigits (n : Nat) : List Char := Nat.toDigits 16 n

def quotedChar (c : Char) : List Char :=
  match c with
  | '\x00' => ['\\', '0']
  | '\t' => ['\\', 't']
  | '\r' => ['\\', 'r']
  | '\n' => ['\\', 'n']
  | '"' => ['\\', '"']
  | '\\' => ['\\', '\\']
  | c => if isUnprintable c then ['\\', 'u', '\x7b'] ++ hexDigits c.toNat ++ ['\x7d'] else [c]

def quoted (s : String) : String := "\"" ++ String.ofList (s.toList.flatMap quotedChar) ++ "\""

end BlockSketch.Text
