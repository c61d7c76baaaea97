/-
Reading and writing pins. A pin that is read or written has its mode set in setup.
-/
import BlockSketch.Library.Field
import BlockSketch.Sketch.Generator

namespace BlockSketch.Library

def pinMode (pin mode : String) : Gen Unit :=
  Gen.addSetup ("io_" ++ pin) ("pinMode(" ++ pin ++ ", " ++ mode ++ ");") false

def digitalWrite (block : Block) (slots : Slots) : Gen String := do
  let pin ← field block "PIN"
  let state ← slots.valueOr "STATE" .atomic "LOW"
  Gen.reservePin block pin .digitalOutput "Digital Write"
  pinMode pin "OUTPUT"
  return "digitalWrite(" ++ pin ++ ", " ++ state ++ ");\n"

def digitalRead (block : Block) (_ : Slots) : Gen OrderedCode := do
  let pin ← field block "PIN"
  Gen.reservePin block pin .digitalInput "Digital Read"
  pinMode pin "INPUT"
  return .atomic ("digitalRead(" ++ pin ++ ")")

/-- set the pulse width on a pin -/
def analogWrite (block : Block) (slots : Slots) : Gen String := do
  let pin ← field block "PIN"
  let value ← slots.valueOr "NUM" .atomic "0"
  Gen.reservePin block pin .pwm "Analogue Write"
  pinMode pin "OUTPUT"
  return "analogWrite(" ++ pin ++ ", " ++ value ++ ");\n"

/-- the voltage on a pin -/
def analogRead (block : Block) (_ : Slots) : Gen OrderedCode := do
  let pin ← field block "PIN"
  Gen.reservePin block pin .analogInput "Analogue Read"
  pinMode pin "INPUT"
  return .atomic ("analogRead(" ++ pin ++ ")")

/-- one of the two states of a pin -/
def highLow (block : Block) (_ : Slots) : Gen OrderedCode := do
  let state ← field block "STATE"
  if state == "HIGH" || state == "LOW" then return .atomic state else invalidField block "STATE" state

end BlockSketch.Library
