/-
The robot kit: coloured lights, and distance and touch sensors on ports one to eight. All of it goes through one object
`Rob`, which is initialised before anything else happens in setup.
-/
import BlockSketch.Decimal.Numeral
import BlockSketch.Library.Field
import BlockSketch.Sketch.Generator

namespace BlockSketch.Library

/-- contribute what the robot kit needs -/
def robot : Gen Unit := do
  Gen.addInclude "idarduino" "#include <Arduino.h>"
  Gen.addInclude "idsuny" "#include <Suny.h>"
  Gen.addDeclaration "idled_Rob" "Suny Rob;"
  Gen.addSetup "idled_Rob" "Rob.Itit();" true

def colors : List String := ["R", "B", "G", "Cy", "P", "Or", "W", "Y", "V"]

/-- digits, possibly after a plus sign, that name a port from one to eight -/
def isPort (text : String) : Bool :=
  let digits := match text.toList with
    | '+' :: rest => rest
    | cs => cs
  let n := Decimal.digitsValue digits
  !digits.isEmpty && digits.all Char.isDigit && 1 ≤ n && n ≤ 8

def port (block : Block) (name : String) : Gen String := do
  let value ← field block name
  if isPort value then return value else invalidField block name value

def ledColor (block : Block) (_ : Slots) : Gen String := do
  let color ← field block "color"
  if !colors.contains color then invalidField block "color" color
  robot
  return "Rob.SetAllLed(\"" ++ color ++ "\");\n"

/-- the distance that an ultrasonic sensor measures -/
def sonar (block : Block) (_ : Slots) : Gen OrderedCode := do
  let port ← port block "port"
  robot
  return .atomic ("Rob.getSonarValue(" ++ port ++ ")")

def touchSensor (block : Block) (_ : Slots) : Gen OrderedCode := do
  let port ← port block "PORT"
  robot
  return .atomic ("Rob.getTouchLedValue(" ++ port ++ ")")

end BlockSketch.Library
