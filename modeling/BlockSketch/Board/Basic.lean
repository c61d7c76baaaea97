/-
Boards and the roles their pins can play. A pin is a name that belongs to its board; one pin may be good for several
roles. Board names are compared without regard to the case of ASCII letters.
-/
import BlockSketch.Text.Ascii

namespace BlockSketch

/-- what a pin is used for -/
inductive Role where
  | digitalInput
  | digitalOutput
  | pwm
  | servo
  | analogInput
  | serial
  | i2c
  | spi
  deriving DecidableEq, Repr, Inhabited

namespace Role

/-- every role, in their usual order -/
def all : List Role := [.digitalInput, .digitalOutput, .pwm, .servo, .analogInput, .serial, .i2c, .spi]

def name : Role → String
  | .digitalInput => "digital-input"
  | .digitalOutput => "digital-output"
  | .pwm => "pwm"
  | .servo => "servo"
  | .analogInput => "analog-input"
  | .serial => "serial"
  | .i2c => "i2c"
  | .spi => "spi"

def ofName? (name : String) : Option Role := all.find? fun role => role.name == name

/-- what is said of a name that no role has -/
def unknownMessage (name : String) : String := "unknown pin role '" ++ name ++ "'"

theorem mem_all (r : Role) : r ∈ all := by
  cases r <;> decide

theorem ofName?_name (r : Role) : ofName? r.name = some r := by
  cases r <;> rfl

end Role

/-- a board and its pins by capability -/
structure Board where
  name : String
  description : String := ""
  digitalPins : List String := []
  pwmPins : List String := []
  analogPins : List String := []
  serialPins : List String := []
  i2cPins : List String := []
  spiPins : List String := []
  deriving DecidableEq, Repr

namespace Board

/-- the pins that can play a role; servos hang on the pins with pulse width modulation -/
def eligible (b : Board) : Role → List String
  | .digitalInput => b.digitalPins
  | .digitalOutput => b.digitalPins
  | .pwm => b.pwmPins
  | .servo => b.pwmPins
  | .analogInput => b.analogPins
  | .serial => b.serialPins
  | .i2c => b.i2cPins
  | .spi => b.spiPins

def supports (b : Board) (pin : String) (role : Role) : Bool := (b.eligible role).contains pin

def isNamed (b : Board) (name : String) : Bool := Text.sameName b.name name

end Board

end BlockSketch
