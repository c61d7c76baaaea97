/-
Waiting, and the time since the start, both in milliseconds.
-/
import BlockSketch.Sketch.Generator

namespace BlockSketch.Library

def timeDelay (_ : Block) (slots : Slots) : Gen String := do
  let time ← slots.valueOr "DELAY_TIME_MILI" .atomic "0"
  return "delay(" ++ time ++ ");\n"

/-- the time since the start -/
def timeMillis (_ : Block) (_ : Slots) : Gen OrderedCode := return .atomic "millis()"

end BlockSketch.Library
