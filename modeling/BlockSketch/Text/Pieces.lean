/-
Parts of a text: the pieces between marks, endings taken off, and one text inside another.
-/
namespace BlockSketch.Text

/-- the pieces between the occurrences of a mark, one more than there are marks -/
def pieces (mark : Char) : List Char → List (List Char)
  | [] => [[]]
  | c :: rest =>
    if c = mark then [] :: pieces mark rest
    else
      match pieces mark rest with
      | [] => [[c]]
      | piece :: others => (c :: piece) :: others

/-- what stands before the first mark, and what stands after it if there is one -/
def cut (mark : Char) (cs : List Char) : List Char × Option (List Char) :=
  (cs.takeWhile (· != mark),
    match cs.dropWhile (· != mark) with
    | [] => none
    | _ :: rest => some rest)

/-- one list of characters stands somewhere in another -/
def occursIn (part : List Char) : List Char → Bool
  | [] => part.isEmpty
  | c :: rest => part.isPrefixOf (c :: rest) || occursIn part rest

def contains (s part : String) : Bool := occursIn part.toList s.toList

def startsWith (s start : String) : Bool := start.toList.isPrefixOf s.toList

/-- what is left of a text behind another one that it starts with -/
def afterStart? (s start : String) : Option String :=
  if startsWith s start then some (String.ofList (s.toList.drop start.toList.length)) else none

def endsWith (s ending : String) : Bool := ending.toList.isSuffixOf s.toList

/-- an ending taken off as often as it is there, `fuel` times at most -/
def dropEndings (ending : List Char) : Nat → List Char → List Char
  | 0, cs => cs
  | fuel + 1, cs =>
    if ending.isSuffixOf cs then dropEndings ending fuel (cs.take (cs.length - ending.length)) else cs

/-- a text without the copies of an ending it ends with -/
def withoutEndings (s ending : String) : String :=
  String.ofList (dropEndings ending.toList s.toList.length s.toList)

/-- a text without the copies of a mark at either end -/
def stripMarks (mark : Char) (s : String) : String :=
  String.ofList (((s.toList.dropWhile (· == mark)).reverse.dropWhile (· == mark)).reverse)

/-- a text filled up with blanks on the right to a width -/
def padRight (width : Nat) (s : String) : String :=
  s ++ String.ofList (List.replicate (width - s.length) ' ')

end BlockSketch.Text
