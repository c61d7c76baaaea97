/-
Printing on a serial port, which is opened before anything else happens in setup.
-/
import BlockSketch.Library.Field
import BlockSketch.Sketch.Generator
import BlockSketch.Text.Ascii

namespace BlockSketch.Library

/-- the block asks for a line end after what it prints -/
def endsLine (block : Block) : Bool := (block.field? "NEW_LINE").any fun v => Text.sameName (Text.trim v) "true"

def serialPrint (block : Block) (slots : Slots) : Gen String := do
  let port ← field block "SERIAL_ID"
  let content ← slots.valueOr "CONTENT" .lowest "0"
  Gen.reservePin block port .serial "Serial Print"
  Gen.addSetup ("serial_" ++ port) (port ++ ".begin(9600);") true
  let method := if endsLine block then "println" else "print"
  return port ++ "." ++ method ++ "(" ++ content ++ ");\n"

end BlockSketch.Library
