/-
ASCII letter case. Letters outside ASCII are their own upper and lower case, so two names that differ in the case of
`é` are different names.
-/
namespace BlockSketch.Text

/-- the text with `A`..`Z` in lower case -/
def lowerAscii (s : String) : String := String.ofList (s.toList.map Char.toLower)

/-- the text with `a`..`z` in upper case -/
def upperAscii (s : String) : String := String.ofList (s.toList.map Char.toUpper)

/-- two texts are the same name up to the case of ASCII letters -/
def sameName (a b : String) : Bool := lowerAscii a == lowerAscii b

theorem sameName_self (a : String) : sameName a a = true := by
  simp [sameName]

theorem sameName_symm (a b : String) : sameName a b = sameName b a := by
  simp [sameName, Bool.beq_comm]

end BlockSketch.Text
