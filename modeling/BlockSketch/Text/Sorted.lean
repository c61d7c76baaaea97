/-
Lists of named things in the order of their names. Names compare by code point, which is also the order of their UTF-8
bytes.
-/
namespace BlockSketch.Text

/-- the entries in the order of their names, entries of one name in the order they had -/
def sortByName {α : Type} (entries : List (String × α)) : List (String × α) :=
  entries.mergeSort fun a b => !decide (b.1 < a.1)

def sortNames (names : List String) : List String := names.mergeSort fun a b => !decide (b < a)

end BlockSketch.Text
