/-
The table of the built-in block types.
-/
import BlockSketch.Library.Clock
import BlockSketch.Library.Control
import BlockSketch.Library.Logic
import BlockSketch.Library.Math
import BlockSketch.Library.PinAccess
import BlockSketch.Library.Robot
import BlockSketch.Library.Serial
import BlockSketch.Library.Servo
import BlockSketch.Library.TextLiteral

namespace BlockSketch

/-- every built-in block type with its generator -/
def Table.builtin : Table where
  entries :=
    [("servo_write", .statement Library.servoWrite),
     ("servo_read", .value Library.servoRead),
     ("led_w_rbg", .statement Library.ledColor),
     ("ulstra", .value Library.sonar),
     ("touch_sensor", .value Library.touchSensor),
     ("math_number", .value Library.mathNumber),
     ("math_arithmetic", .value Library.mathArithmetic),
     ("logic_boolean", .value Library.logicBoolean),
     ("logic_compare", .value Library.logicCompare),
     ("logic_operation", .value Library.logicOperation),
     ("logic_negate", .value Library.logicNegate),
     ("io_digitalwrite", .statement Library.digitalWrite),
     ("io_digitalread", .value Library.digitalRead),
     ("io_analogwrite", .statement Library.analogWrite),
     ("io_analogread", .value Library.analogRead),
     ("io_highlow", .value Library.highLow),
     ("time_delay", .statement Library.timeDelay),
     ("time_millis", .value Library.timeMillis),
     ("controls_if", .statement Library.controlsIf),
     ("controls_repeat_ext", .statement Library.controlsRepeat),
     ("serial_print", .statement Library.serialPrint),
     ("text", .value Library.textValue)]

end BlockSketch
