/-
The boards that are always known.
-/
import BlockSketch.Board.Basic

namespace BlockSketch.Board

/-- the names of the numbers from `first` to `last` -/
def numbered (first last : Nat) : List String := (List.range' first (last + 1 - first)).map toString

/-- `A0`, `A1` and so on, `count` of them -/
def analogNames (count : Nat) : List String := (List.range count).map fun n => "A" ++ toString n

def uno : Board where
  name := "uno"
  description := "Arduino Uno"
  digitalPins := numbered 0 13 ++ analogNames 6
  pwmPins := ["3", "5", "6", "9", "10", "11"]
  analogPins := analogNames 6
  serialPins := ["Serial"]
  i2cPins := ["A4", "A5"]
  spiPins := numbered 10 13

/-- the Arduino Nano: an Uno with two more analog inputs -/
def nano : Board :=
  { uno with name := "nano", description := "Arduino Nano", analogPins := analogNames 8 }

def mega : Board where
  name := "mega"
  description := "Arduino Mega 2560"
  digitalPins := numbered 0 53 ++ analogNames 16
  pwmPins := numbered 2 13 ++ numbered 44 46
  analogPins := analogNames 16
  serialPins := ["Serial", "Serial1", "Serial2", "Serial3"]
  i2cPins := ["20", "21"]
  spiPins := numbered 50 53

def leonardo : Board where
  name := "leonardo"
  description := "Arduino Leonardo"
  digitalPins := numbered 0 13 ++ analogNames 6
  pwmPins := ["3", "5", "6", "9", "10", "11", "13"]
  analogPins := analogNames 6
  serialPins := ["Serial", "Serial1"]
  i2cPins := ["2", "3"]
  spiPins := []

/-- the boards that are always known, in their fixed order -/
def builtins : List Board := [uno, nano, mega, leonardo]

def builtin? (name : String) : Option Board := builtins.find? (·.isNamed name)

end BlockSketch.Board
