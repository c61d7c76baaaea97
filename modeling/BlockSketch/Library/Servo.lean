/-
Servos. A servo on pin X is an object `myServoX` that is attached to its pin before anything else happens in setup.
-/
import BlockSketch.Library.Field
import BlockSketch.Sketch.Generator

namespace BlockSketch.Library

/-- claim a pin for a servo and contribute what the servo needs; the name of its object -/
def attach (block : Block) (pin purpose : String) : Gen String := do
  Gen.reservePin block pin .servo purpose
  let servo := "myServo" ++ pin
  Gen.addInclude "servo" "#include <Servo.h>"
  Gen.addDeclaration ("servo_" ++ pin) ("Servo " ++ servo ++ ";")
  Gen.addSetup ("servo_" ++ pin) (servo ++ ".attach(" ++ pin ++ ");") true
  return servo

def servoWrite (block : Block) (slots : Slots) : Gen String := do
  let pin ← field block "SERVO_PIN"
  let angle ← slots.valueOr "SERVO_ANGLE" .atomic "90"
  let servo ← attach block pin "Servo Write"
  return servo ++ ".write(" ++ angle ++ ");\n"

def servoRead (block : Block) (_ : Slots) : Gen OrderedCode := do
  let pin ← field block "SERVO_PIN"
  let servo ← attach block pin "Servo Read"
  return .atomic (servo ++ ".read()")

end BlockSketch.Library
