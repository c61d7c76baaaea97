/-
The built-in block types, and what each of them asks of a pass.

Every built-in generator has the same shape: it checks its block's own field, asks for the code in some of its slots,
claims a pin or none, contributes the boilerplate that goes with the pin or with the robot kit, and puts its text
together. `Kind` is the type of built-in block types; the tables `fieldRule?`, `requests`, `role?`, `needs`,
`expression` and `sentence` say for each of them what stands in these five places, and `Kind.prepare` does it.

Results:
- `builtin_get?`: the built-in table has a generator exactly for the names of kinds;
- `generator_value`, `generator_statement`: the generator of a kind is `prepare` and then the text of the kind.
-/
import BlockSketch.Library.Builtin

namespace BlockSketch

/-- the built-in block types -/
inductive Kind where
  | servoWrite
  | servoRead
  | ledColor
  | sonar
  | touchSensor
  | mathNumber
  | mathArithmetic
  | logicBoolean
  | logicCompare
  | logicOperation
  | logicNegate
  | digitalWrite
  | digitalRead
  | analogWrite
  | analogRead
  | highLow
  | timeDelay
  | timeMillis
  | controlsIf
  | controlsRepeat
  | serialPrint
  | text
  deriving DecidableEq, Repr

/-- a piece of boilerplate that a block needs: a section, and the key, text and rank it is to have there -/
structure Need where
  place : Section
  key : String
  text : String
  runFirst : Bool
  deriving DecidableEq, Repr

/-- a pin that a block claims, the role it is to play, and why -/
structure PinUse where
  pin : String
  role : Role
  purpose : String
  deriving DecidableEq, Repr

/-- the field that a block cannot do without, and which texts it may hold -/
structure FieldRule where
  name : String
  accepts : String → Bool

/-- something a generator asks for while it prepares its text -/
inductive Request where
  /-- the expression in a value slot where a strength is required, or a text in place of a missing one -/
  | value (slot : String) (required : Order) (default : String)
  /-- the statements in a statement slot, indented by one level -/
  | chain (slot : String)
  /-- a name for a loop counter -/
  | counter
  deriving DecidableEq, Repr

def servoName (pin : String) : String := "myServo" ++ pin

/-- what a pin needs to play a role -/
def Role.needs (role : Role) (pin : String) : List Need :=
  match role with
  | .digitalInput | .analogInput => [⟨.setup, "io_" ++ pin, "pinMode(" ++ pin ++ ", " ++ "INPUT" ++ ");", false⟩]
  | .digitalOutput | .pwm => [⟨.setup, "io_" ++ pin, "pinMode(" ++ pin ++ ", " ++ "OUTPUT" ++ ");", false⟩]
  | .servo =>
    [⟨.includes, "servo", "#include <Servo.h>", false⟩,
     ⟨.declarations, "servo_" ++ pin, "Servo " ++ servoName pin ++ ";", false⟩,
     ⟨.setup, "servo_" ++ pin, servoName pin ++ ".attach(" ++ pin ++ ");", true⟩]
  | .serial => [⟨.setup, "serial_" ++ pin, pin ++ ".begin(9600);", true⟩]
  | .i2c | .spi => []

def robotNeeds : List Need :=
  [⟨.includes, "idarduino", "#include <Arduino.h>", false⟩, ⟨.includes, "idsuny", "#include <Suny.h>", false⟩,
   ⟨.declarations, "idled_Rob", "Suny Rob;", false⟩, ⟨.setup, "idled_Rob", "Rob.Itit();", true⟩]

namespace Kind

/-! ## The tables -/

/-- every kind, in the order of the built-in table -/
def all : List Kind :=
  [.servoWrite, .servoRead, .ledColor, .sonar, .touchSensor, .mathNumber, .mathArithmetic, .logicBoolean, .logicCompare,
   .logicOperation, .logicNegate, .digitalWrite, .digitalRead, .analogWrite, .analogRead, .highLow, .timeDelay,
   .timeMillis, .controlsIf, .controlsRepeat, .serialPrint, .text]

def name : Kind → String
  | .servoWrite => "servo_write"
  | .servoRead => "servo_read"
  | .ledColor => "led_w_rbg"
  | .sonar => "ulstra"
  | .touchSensor => "touch_sensor"
  | .mathNumber => "math_number"
  | .mathArithmetic => "math_arithmetic"
  | .logicBoolean => "logic_boolean"
  | .logicCompare => "logic_compare"
  | .logicOperation => "logic_operation"
  | .logicNegate => "logic_negate"
  | .digitalWrite => "io_digitalwrite"
  | .digitalRead => "io_digitalread"
  | .analogWrite => "io_analogwrite"
  | .analogRead => "io_analogread"
  | .highLow => "io_highlow"
  | .timeDelay => "time_delay"
  | .timeMillis => "time_millis"
  | .controlsIf => "controls_if"
  | .controlsRepeat => "controls_repeat_ext"
  | .serialPrint => "serial_print"
  | .text => "text"

def ofName? (name : String) : Option Kind := all.find? fun k => k.name == name

def generator : Kind → Generator
  | .servoWrite => .statement Library.servoWrite
  | .servoRead => .value Library.servoRead
  | .ledColor => .statement Library.ledColor
  | .sonar => .value Library.sonar
  | .touchSensor => .value Library.touchSensor
  | .mathNumber => .value Library.mathNumber
  | .mathArithmetic => .value Library.mathArithmetic
  | .logicBoolean => .value Library.logicBoolean
  | .logicCompare => .value Library.logicCompare
  | .logicOperation => .value Library.logicOperation
  | .logicNegate => .value Library.logicNegate
  | .digitalWrite => .statement Library.digitalWrite
  | .digitalRead => .value Library.digitalRead
  | .analogWrite => .statement Library.analogWrite
  | .analogRead => .value Library.analogRead
  | .highLow => .value Library.highLow
  | .timeDelay => .statement Library.timeDelay
  | .timeMillis => .value Library.timeMillis
  | .controlsIf => .statement Library.controlsIf
  | .controlsRepeat => .statement Library.controlsRepeat
  | .serialPrint => .statement Library.serialPrint
  | .text => .value Library.textValue

/-- how the blocks of a kind stand in a program -/
def shape : Kind → Shape
  | .servoWrite | .ledColor | .digitalWrite | .analogWrite | .timeDelay | .controlsIf | .controlsRepeat
  | .serialPrint => .statement
  | _ => .value

def fieldRule? : Kind → Option FieldRule
  | .servoWrite | .servoRead => some ⟨"SERVO_PIN", fun _ => true⟩
  | .digitalWrite | .digitalRead | .analogWrite | .analogRead => some ⟨"PIN", fun _ => true⟩
  | .serialPrint => some ⟨"SERIAL_ID", fun _ => true⟩
  | .ledColor => some ⟨"color", Library.colors.contains⟩
  | .sonar => some ⟨"port", Library.isPort⟩
  | .touchSensor => some ⟨"PORT", Library.isPort⟩
  | .mathNumber => some ⟨"NUM", Library.isNumber⟩
  | .mathArithmetic => some ⟨"OP", ["ADD", "MINUS", "MULTIPLY", "DIVIDE", "MODULO"].contains⟩
  | .logicBoolean => some ⟨"BOOL", fun v => ["TRUE", "FALSE"].contains (Text.upperAscii v)⟩
  | .logicCompare => some ⟨"OP", ["EQ", "NEQ", "LT", "LTE", "GT", "GTE"].contains⟩
  | .logicOperation => some ⟨"OP", ["AND", "OR"].contains⟩
  | .highLow => some ⟨"STATE", ["HIGH", "LOW"].contains⟩
  | .logicNegate | .timeDelay | .timeMillis | .controlsIf | .controlsRepeat | .text => none

/-- the text of a block's own field, nothing if the block has none -/
def word (k : Kind) (b : Block) : String := (k.fieldRule?.bind fun rule => Library.field? b rule.name).getD ""

/-- what is wrong with a block's own field -/
def fault? (k : Kind) (b : Block) : Option Fault :=
  match k.fieldRule? with
  | none => none
  | some rule =>
    match Library.field? b rule.name with
    | none => some (.missingField b.kind rule.name)
    | some value => if rule.accepts value then none else some (.invalidField b.kind rule.name value)

def operator (k : Kind) (word : String) : Library.Operator :=
  let named? := match k with
    | .mathArithmetic => Library.arithmeticOperator? word
    | .logicCompare => Library.comparison? word
    | .logicOperation => Library.connective? word
    | _ => none
  named?.getD ⟨"", .lowest⟩

/-- what a conditional asks for: condition and body of every branch, and the body of the last resort -/
def branchRequests (ns : List Nat) (hasElse : Bool) : List Request :=
  ns.flatMap (fun n => [.value ("IF" ++ toString n) .lowest "false", .chain ("DO" ++ toString n)]) ++
    if hasElse then [.chain "ELSE"] else []

/-- what the generator asks for, in that order -/
def requests (k : Kind) (b : Block) (word : String) : List Request :=
  let order := (k.operator word).order
  match k with
  | .servoWrite => [.value "SERVO_ANGLE" .atomic "90"]
  | .mathArithmetic | .logicCompare => [.value "A" order "0", .value "B" order.tighter "0"]
  | .logicOperation => [.value "A" order "false", .value "B" order "false"]
  | .logicNegate => [.value "BOOL" .unaryPrefix "false"]
  | .digitalWrite => [.value "STATE" .atomic "LOW"]
  | .analogWrite => [.value "NUM" .atomic "0"]
  | .timeDelay => [.value "DELAY_TIME_MILI" .atomic "0"]
  | .controlsIf => branchRequests (List.range (Library.branchCount b)) (b.hasStatement "ELSE")
  | .controlsRepeat => [.value "TIMES" Order.relational.tighter "0", .counter, .chain "DO"]
  | .serialPrint => [.value "CONTENT" .lowest "0"]
  | .servoRead | .ledColor | .sonar | .touchSensor | .mathNumber | .logicBoolean | .digitalRead | .analogRead | .highLow
  | .timeMillis | .text => []

/-- the role for which a block claims the pin its field names, and why -/
def role? : Kind → Option (Role × String)
  | .servoWrite => some (.servo, "Servo Write")
  | .servoRead => some (.servo, "Servo Read")
  | .digitalWrite => some (.digitalOutput, "Digital Write")
  | .digitalRead => some (.digitalInput, "Digital Read")
  | .analogWrite => some (.pwm, "Analogue Write")
  | .analogRead => some (.analogInput, "Analogue Read")
  | .serialPrint => some (.serial, "Serial Print")
  | _ => none

def pinUse? (k : Kind) (word : String) : Option PinUse := k.role?.map fun (role, purpose) => ⟨word, role, purpose⟩

/-- the blocks of the kind belong to the robot kit -/
def isRobot : Kind → Bool
  | .ledColor | .sonar | .touchSensor => true
  | _ => false

/-- the boilerplate that a block needs itself, in that order -/
def needs (k : Kind) (word : String) : List Need :=
  if k.isRobot then robotNeeds else (k.pinUse? word).elim [] fun use => use.role.needs use.pin

/-- the branches of a conditional from the conditions and bodies in turn; a body without a condition comes last -/
def branchTexts : List String → List String
  | [] => []
  | [body] => [Library.braced body]
  | condition :: body :: rest => ("if (" ++ condition ++ ") " ++ Library.braced body) :: branchTexts rest

/-- the expression of a value block around the texts it asked for -/
def expression (k : Kind) (b : Block) (word : String) (texts : List String) : OrderedCode :=
  match k with
  | .servoRead => .atomic (servoName word ++ ".read()")
  | .sonar => .atomic ("Rob.getSonarValue(" ++ word ++ ")")
  | .touchSensor => .atomic ("Rob.getTouchLedValue(" ++ word ++ ")")
  | .mathNumber => ⟨word, if word.toList.head? == some '-' then .unaryPrefix else .atomic⟩
  | .mathArithmetic | .logicCompare | .logicOperation =>
    Library.binaryCode (k.operator word) (texts.getD 0 "") (texts.getD 1 "")
  | .logicBoolean => .atomic (if Text.upperAscii word = "TRUE" then "true" else "false")
  | .logicNegate => ⟨"!" ++ texts.getD 0 "", .unaryPrefix⟩
  | .digitalRead => .atomic ("digitalRead(" ++ word ++ ")")
  | .analogRead => .atomic ("analogRead(" ++ word ++ ")")
  | .highLow => .atomic word
  | .timeMillis => .atomic "millis()"
  | .text => .atomic (Library.literal ((b.field? "TEXT").getD ""))
  | _ => .atomic ""

/-- the statement of a statement block around the texts it asked for -/
def sentence (k : Kind) (b : Block) (word : String) (texts : List String) : String :=
  match k with
  | .servoWrite => servoName word ++ ".write(" ++ texts.getD 0 "" ++ ");\n"
  | .ledColor => "Rob.SetAllLed(\"" ++ word ++ "\");\n"
  | .digitalWrite => "digitalWrite(" ++ word ++ ", " ++ texts.getD 0 "" ++ ");\n"
  | .analogWrite => "analogWrite(" ++ word ++ ", " ++ texts.getD 0 "" ++ ");\n"
  | .timeDelay => "delay(" ++ texts.getD 0 "" ++ ");\n"
  | .controlsIf => " else ".intercalate (branchTexts texts) ++ "\n"
  | .controlsRepeat =>
    let counter := texts.getD 1 ""
    "for (int " ++ counter ++ " = 0; " ++ counter ++ " < " ++ texts.getD 0 "" ++ "; " ++ counter ++ "++) " ++
      Library.braced (texts.getD 2 "") ++ "\n"
  | .serialPrint =>
    word ++ "." ++ (if Library.endsLine b then "println" else "print") ++ "(" ++ texts.getD 0 "" ++ ");\n"
  | _ => ""

/-! ## Kinds and the built-in table -/

theorem mem_all (k : Kind) : k ∈ all := by
  cases k <;> decide

theorem ofName?_name (k : Kind) : ofName? k.name = some k := by
  cases k <;> rfl

theorem name_of_ofName? {name : String} {k : Kind} (h : ofName? name = some k) : k.name = name := by
  simpa using List.find?_some h

theorem lookup_kinds {β : Type} (g : Kind → β) (kinds : List Kind) (name : String) :
    (kinds.map fun k => (k.name, g k)).lookup name = (kinds.find? fun k => k.name == name).map g := by
  induction kinds with
  | nil => rfl
  | cons k rest ih =>
    rw [List.map_cons, List.lookup_cons, List.find?_cons, Bool.beq_comm]
    cases k.name == name with
    | true => rfl
    | false => exact ih

/-- the built-in table has a generator exactly for the names of kinds -/
theorem builtin_get? (name : String) : Table.builtin.get? name = (ofName? name).map generator := by
  have h : Table.builtin.entries = all.map fun k => (k.name, k.generator) := rfl
  rw [Table.get?, h, lookup_kinds]
  rfl

/-! ## What a generator does -/

end Kind

/-- answer a request from the slots of a block -/
def Request.ask (slots : Slots) : Request → Gen String
  | .value slot required default => slots.valueOr slot required default
  | .chain slot => slots.body slot
  | .counter => Gen.distinctName "count"

def Request.askAll (slots : Slots) : List Request → Gen (List String)
  | [] => return []
  | request :: rest => do
    let text ← request.ask slots
    let texts ← askAll slots rest
    return text :: texts

/-- claim the pin, if there is one, on behalf of a block -/
def PinUse.claim (block : Block) : Option PinUse → Gen Unit
  | none => return
  | some use => Gen.reservePin block use.pin use.role use.purpose

def Need.contributeAll : List Need → Gen Unit
  | [] => return
  | need :: rest => do
    let _ ← Gen.contribute need.place need.key need.text need.runFirst
    contributeAll rest

theorem Gen.fail_bind {α β : Type} (fault : Fault) (g : α → Gen β) : Gen.fail fault >>= g = Gen.fail fault := rfl

namespace Kind

/-- what follows once the field is found right: ask for the parts of the text, claim the pin, contribute -/
def gather (k : Kind) (b : Block) (slots : Slots) : Gen (List String) := do
  let texts ← Request.askAll slots (k.requests b (k.word b))
  PinUse.claim b (k.pinUse? (k.word b))
  Need.contributeAll (k.needs (k.word b))
  return texts

/-- check the block's field, then gather the rest -/
def prepare (k : Kind) (b : Block) (slots : Slots) : Gen (List String) :=
  match k.fault? b with
  | some fault => Gen.fail fault
  | none => k.gather b slots

/-- a generator that checks the field of its kind and then goes on in its own way does what `prepare` does, if it
refuses the same texts and goes on as `gather` does with the others -/
theorem field_bind_eq (k : Kind) (b : Block) (slots : Slots) {rule : FieldRule} (hr : k.fieldRule? = some rule)
    {α : Type} (f : List String → α) (body : String → Gen α)
    (hbad : ∀ v, rule.accepts v = false → body v = Gen.fail (.invalidField b.kind rule.name v))
    (hgood : ∀ v, rule.accepts v = true → k.word b = v → body v = do return f (← k.gather b slots)) :
    (Library.field b rule.name >>= body) = do return f (← k.prepare b slots) := by
  unfold prepare fault? Library.field
  rw [hr]
  cases hv : Library.field? b rule.name with
  | none => simp only [hv, Gen.fail_bind]
  | some v =>
    cases ha : rule.accepts v with
    | false =>
      simp only [hv, ha, pure_bind, hbad v ha]
      rfl
    | true =>
      have hw : k.word b = v := by simp [word, hr, hv]
      simp only [hv, ha, pure_bind, if_true]
      exact hgood v ha hw

theorem attach_eq (b : Block) (pin purpose : String) :
    Library.attach b pin purpose = do
      PinUse.claim b (some ⟨pin, .servo, purpose⟩)
      Need.contributeAll (Role.servo.needs pin)
      return servoName pin := by
  simp [Library.attach, PinUse.claim, Need.contributeAll, Role.needs, servoName, Gen.addInclude, Gen.addDeclaration,
    Gen.addSetup]

theorem robot_eq : Library.robot = Need.contributeAll robotNeeds := by
  simp [Library.robot, Need.contributeAll, robotNeeds, Gen.addInclude, Gen.addDeclaration, Gen.addSetup]

theorem servoRead_eq (b : Block) (slots : Slots) :
    Library.servoRead b slots = do
      return Kind.servoRead.expression b (Kind.servoRead.word b) (← Kind.servoRead.prepare b slots) := by
  refine field_bind_eq .servoRead b slots rfl _ _ (fun v ha => by cases ha) fun v _ hw => ?_
  simp only [gather, hw, requests, Request.askAll, attach_eq, pure_bind, bind_assoc]
  rfl

theorem servoWrite_eq (b : Block) (slots : Slots) :
    Library.servoWrite b slots = do
      return Kind.servoWrite.sentence b (Kind.servoWrite.word b) (← Kind.servoWrite.prepare b slots) := by
  refine field_bind_eq .servoWrite b slots rfl _ _ (fun v ha => by cases ha) fun v _ hw => ?_
  simp only [gather, hw, requests, Request.askAll, Request.ask, attach_eq, pure_bind, bind_assoc]
  rfl

theorem digitalWrite_eq (b : Block) (slots : Slots) :
    Library.digitalWrite b slots = do
      return Kind.digitalWrite.sentence b (Kind.digitalWrite.word b) (← Kind.digitalWrite.prepare b slots) := by
  refine field_bind_eq .digitalWrite b slots rfl _ _ (fun v ha => by cases ha) fun v _ hw => ?_
  simp only [gather, hw, requests, Request.askAll, Request.ask, pure_bind, bind_assoc]
  rfl

theorem digitalRead_eq (b : Block) (slots : Slots) :
    Library.digitalRead b slots = do
      return Kind.digitalRead.expression b (Kind.digitalRead.word b) (← Kind.digitalRead.prepare b slots) := by
  refine field_bind_eq .digitalRead b slots rfl _ _ (fun v ha => by cases ha) fun v _ hw => ?_
  simp only [gather, hw, requests, Request.askAll, pure_bind, bind_assoc]
  rfl

theorem analogWrite_eq (b : Block) (slots : Slots) :
    Library.analogWrite b slots = do
      return Kind.analogWrite.sentence b (Kind.analogWrite.word b) (← Kind.analogWrite.prepare b slots) := by
  refine field_bind_eq .analogWrite b slots rfl _ _ (fun v ha => by cases ha) fun v _ hw => ?_
  simp only [gather, hw, requests, Request.askAll, Request.ask, pure_bind, bind_assoc]
  rfl

theorem analogRead_eq (b : Block) (slots : Slots) :
    Library.analogRead b slots = do
      return Kind.analogRead.expression b (Kind.analogRead.word b) (← Kind.analogRead.prepare b slots) := by
  refine field_bind_eq .analogRead b slots rfl _ _ (fun v ha => by cases ha) fun v _ hw => ?_
  simp only [gather, hw, requests, Request.askAll, pure_bind, bind_assoc]
  rfl

theorem serialPrint_eq (b : Block) (slots : Slots) :
    Library.serialPrint b slots = do
      return Kind.serialPrint.sentence b (Kind.serialPrint.word b) (← Kind.serialPrint.prepare b slots) := by
  refine field_bind_eq .serialPrint b slots rfl _ _ (fun v ha => by cases ha) fun v _ hw => ?_
  simp only [gather, hw, requests, Request.askAll, Request.ask, pure_bind, bind_assoc]
  rfl

theorem sonar_eq (b : Block) (slots : Slots) :
    Library.sonar b slots = do
      return Kind.sonar.expression b (Kind.sonar.word b) (← Kind.sonar.prepare b slots) := by
  simp only [Library.sonar, Library.port, bind_assoc]
  refine field_bind_eq .sonar b slots rfl _ _ (fun v ha => ?_) fun v ha hw => ?_
  · simp only at ha
    simp only [ha]
    rfl
  · simp only at ha
    simp only [ha, if_true, gather, hw, requests, Request.askAll, pinUse?, role?, Option.map_none, PinUse.claim, needs,
      isRobot, robot_eq, pure_bind, bind_assoc]
    rfl

theorem touchSensor_eq (b : Block) (slots : Slots) :
    Library.touchSensor b slots = do
      return Kind.touchSensor.expression b (Kind.touchSensor.word b) (← Kind.touchSensor.prepare b slots) := by
  simp only [Library.touchSensor, Library.port, bind_assoc]
  refine field_bind_eq .touchSensor b slots rfl _ _ (fun v ha => ?_) fun v ha hw => ?_
  · simp only at ha
    simp only [ha]
    rfl
  · simp only at ha
    simp only [ha, if_true, gather, hw, requests, Request.askAll, pinUse?, role?, Option.map_none, PinUse.claim, needs,
      isRobot, robot_eq, pure_bind, bind_assoc]
    rfl

theorem ledColor_eq (b : Block) (slots : Slots) :
    Library.ledColor b slots = do
      return Kind.ledColor.sentence b (Kind.ledColor.word b) (← Kind.ledColor.prepare b slots) := by
  refine field_bind_eq .ledColor b slots rfl _ _ (fun v ha => ?_) fun v ha hw => ?_
  · simp only at ha
    simp only [ha, Bool.not_false, if_true]
    rfl
  · simp only at ha
    simp only [ha, gather, hw, requests, Request.askAll, pinUse?, role?, Option.map_none, PinUse.claim, needs, isRobot,
      robot_eq, if_true, pure_bind, bind_assoc]
    rfl

theorem mathNumber_eq (b : Block) (slots : Slots) :
    Library.mathNumber b slots = do
      return Kind.mathNumber.expression b (Kind.mathNumber.word b) (← Kind.mathNumber.prepare b slots) := by
  refine field_bind_eq .mathNumber b slots rfl _ _ (fun v ha => ?_) fun v ha hw => ?_
  · simp only at ha
    simp only [ha, Bool.not_false, if_true]
    rfl
  · simp only at ha
    simp only [ha, gather, hw, requests, Request.askAll, pure_bind, bind_assoc]
    rfl

theorem highLow_eq (b : Block) (slots : Slots) :
    Library.highLow b slots = do
      return Kind.highLow.expression b (Kind.highLow.word b) (← Kind.highLow.prepare b slots) := by
  refine field_bind_eq .highLow b slots rfl _ _ (fun v ha => ?_) fun v ha hw => ?_
  · have hv : (v == "HIGH" || v == "LOW") = false := by simpa using ha
    simp only [hv]
    rfl
  · have hv : (v == "HIGH" || v == "LOW") = true := by simpa using ha
    simp only [hv, gather, hw, requests, Request.askAll, pure_bind, bind_assoc]
    rfl

theorem logicBoolean_eq (b : Block) (slots : Slots) :
    Library.logicBoolean b slots = do
      return Kind.logicBoolean.expression b (Kind.logicBoolean.word b) (← Kind.logicBoolean.prepare b slots) := by
  refine field_bind_eq .logicBoolean b slots rfl _ _ (fun v ha => ?_) fun v ha hw => ?_
  · split
    · rename_i hv; simp [hv] at ha
    · rename_i hv; simp [hv] at ha
    · rfl
  · have hv : Text.upperAscii v = "TRUE" ∨ Text.upperAscii v = "FALSE" := by simpa using ha
    simp only [gather, hw, requests, Request.askAll, pure_bind, bind_assoc]
    rcases hv with hv | hv
    · simp only [hv, expression]; rfl
    · simp only [hv, expression]; rfl

theorem arithmeticOperator?_isSome (v : String) :
    (Library.arithmeticOperator? v).isSome = ["ADD", "MINUS", "MULTIPLY", "DIVIDE", "MODULO"].contains v := by
  unfold Library.arithmeticOperator?
  split <;> simp_all

theorem mathArithmetic_eq (b : Block) (slots : Slots) :
    Library.mathArithmetic b slots = do
      return Kind.mathArithmetic.expression b (Kind.mathArithmetic.word b) (← Kind.mathArithmetic.prepare b slots) := by
  simp only [Library.mathArithmetic, Library.operator, bind_assoc]
  refine field_bind_eq .mathArithmetic b slots rfl _ _ (fun v ha => ?_) fun v ha hw => ?_
  · have hn : Library.arithmeticOperator? v = none :=
      Option.isNone_iff_eq_none.1 (Option.isSome_eq_false_iff.1 ((arithmeticOperator?_isSome v).trans ha))
    simp only [hn, Library.invalidField, Gen.fail_bind]
  · obtain ⟨o, ho⟩ := Option.isSome_iff_exists.1 ((arithmeticOperator?_isSome v).trans ha)
    have hk : Kind.mathArithmetic.operator v = o := by simp [operator, ho]
    have he (texts : List String) : Kind.mathArithmetic.expression b v texts =
        Library.binaryCode o (texts.getD 0 "") (texts.getD 1 "") := by
      rw [← hk]; rfl
    simp only [ho, gather, hw, requests, hk, he, Request.askAll, Request.ask, pure_bind, bind_assoc]
    rfl

theorem comparison?_isSome (v : String) :
    (Library.comparison? v).isSome = ["EQ", "NEQ", "LT", "LTE", "GT", "GTE"].contains v := by
  unfold Library.comparison?
  split <;> simp_all

theorem logicCompare_eq (b : Block) (slots : Slots) :
    Library.logicCompare b slots = do
      return Kind.logicCompare.expression b (Kind.logicCompare.word b) (← Kind.logicCompare.prepare b slots) := by
  simp only [Library.logicCompare, Library.operator, bind_assoc]
  refine field_bind_eq .logicCompare b slots rfl _ _ (fun v ha => ?_) fun v ha hw => ?_
  · have hn : Library.comparison? v = none :=
      Option.isNone_iff_eq_none.1 (Option.isSome_eq_false_iff.1 ((comparison?_isSome v).trans ha))
    simp only [hn, Library.invalidField, Gen.fail_bind]
  · obtain ⟨o, ho⟩ := Option.isSome_iff_exists.1 ((comparison?_isSome v).trans ha)
    have hk : Kind.logicCompare.operator v = o := by simp [operator, ho]
    have he (texts : List String) : Kind.logicCompare.expression b v texts =
        Library.binaryCode o (texts.getD 0 "") (texts.getD 1 "") := by
      rw [← hk]; rfl
    simp only [ho, gather, hw, requests, hk, he, Request.askAll, Request.ask, pure_bind, bind_assoc]
    rfl

theorem connective?_isSome (v : String) : (Library.connective? v).isSome = ["AND", "OR"].contains v := by
  unfold Library.connective?
  split <;> simp_all

theorem logicOperation_eq (b : Block) (slots : Slots) :
    Library.logicOperation b slots = do
      return Kind.logicOperation.expression b (Kind.logicOperation.word b) (← Kind.logicOperation.prepare b slots) := by
  simp only [Library.logicOperation, Library.operator, bind_assoc]
  refine field_bind_eq .logicOperation b slots rfl _ _ (fun v ha => ?_) fun v ha hw => ?_
  · have hn : Library.connective? v = none :=
      Option.isNone_iff_eq_none.1 (Option.isSome_eq_false_iff.1 ((connective?_isSome v).trans ha))
    simp only [hn, Library.invalidField, Gen.fail_bind]
  · obtain ⟨o, ho⟩ := Option.isSome_iff_exists.1 ((connective?_isSome v).trans ha)
    have hk : Kind.logicOperation.operator v = o := by simp [operator, ho]
    have he (texts : List String) : Kind.logicOperation.expression b v texts =
        Library.binaryCode o (texts.getD 0 "") (texts.getD 1 "") := by
      rw [← hk]; rfl
    simp only [ho, gather, hw, requests, hk, he, Request.askAll, Request.ask, pure_bind, bind_assoc]
    rfl

theorem timeDelay_eq (b : Block) (slots : Slots) :
    Library.timeDelay b slots = do
      return Kind.timeDelay.sentence b (Kind.timeDelay.word b) (← Kind.timeDelay.prepare b slots) := by
  simp only [Library.timeDelay, prepare, fault?, fieldRule?, gather, requests, Request.askAll, Request.ask, pure_bind,
    bind_assoc]
  rfl

theorem timeMillis_eq (b : Block) (slots : Slots) :
    Library.timeMillis b slots = do
      return Kind.timeMillis.expression b (Kind.timeMillis.word b) (← Kind.timeMillis.prepare b slots) := by
  simp only [Library.timeMillis, prepare, fault?, fieldRule?, gather, requests, Request.askAll, pure_bind, bind_assoc]
  rfl

theorem logicNegate_eq (b : Block) (slots : Slots) :
    Library.logicNegate b slots = do
      return Kind.logicNegate.expression b (Kind.logicNegate.word b) (← Kind.logicNegate.prepare b slots) := by
  simp only [Library.logicNegate, prepare, fault?, fieldRule?, gather, requests, Request.askAll, Request.ask, pure_bind,
    bind_assoc]
  rfl

theorem text_eq (b : Block) (slots : Slots) :
    Library.textValue b slots = do
      return Kind.text.expression b (Kind.text.word b) (← Kind.text.prepare b slots) := by
  simp only [Library.textValue, prepare, fault?, fieldRule?, gather, requests, Request.askAll, pure_bind, bind_assoc]
  rfl

theorem controlsRepeat_eq (b : Block) (slots : Slots) :
    Library.controlsRepeat b slots = do
      return Kind.controlsRepeat.sentence b (Kind.controlsRepeat.word b) (← Kind.controlsRepeat.prepare b slots) := by
  simp only [Library.controlsRepeat, prepare, fault?, fieldRule?, gather, requests, Request.askAll, Request.ask,
    pure_bind, bind_assoc]
  rfl

/-- branch by branch, or all requests in a row: the same questions in the same order -/
theorem branches_eq (slots : Slots) (ns : List Nat) (hasElse : Bool) {α : Type} (g : List String → Gen α) :
    (do
      let branches ← ns.mapM (Library.branch slots)
      let otherwise ← if hasElse then do pure [Library.braced (← slots.body "ELSE")] else pure []
      g (branches ++ otherwise)) =
    (do
      let texts ← Request.askAll slots (branchRequests ns hasElse)
      g (branchTexts texts)) := by
  unfold branchRequests
  induction ns generalizing g with
  | nil =>
    cases hasElse with
    | true => simp [Request.askAll, Request.ask, branchTexts]
    | false => simp [Request.askAll, branchTexts]
  | cons n rest ih =>
    simp only [List.mapM_cons, Library.branch, List.flatMap_cons, List.cons_append, List.nil_append, Request.askAll,
      Request.ask, branchTexts, bind_assoc, pure_bind]
    refine bind_congr fun condition => bind_congr fun body => ?_
    exact ih fun texts => g (("if (" ++ condition ++ ") " ++ Library.braced body) :: texts)

theorem controlsIf_eq (b : Block) (slots : Slots) :
    Library.controlsIf b slots = do
      return Kind.controlsIf.sentence b (Kind.controlsIf.word b) (← Kind.controlsIf.prepare b slots) := by
  unfold Library.controlsIf
  rw [branches_eq slots _ _ fun texts => return " else ".intercalate texts ++ "\n"]
  simp only [prepare, fault?, fieldRule?, gather, requests, pure_bind, bind_assoc]
  rfl

theorem generator_value (k : Kind) (h : k.shape = .value) :
    k.generator = .value fun b slots => do return k.expression b (k.word b) (← k.prepare b slots) := by
  cases k <;> cases h
  all_goals refine congrArg Generator.value (funext fun b => funext fun slots => ?_)
  · exact servoRead_eq b slots
  · exact sonar_eq b slots
  · exact touchSensor_eq b slots
  · exact mathNumber_eq b slots
  · exact mathArithmetic_eq b slots
  · exact logicBoolean_eq b slots
  · exact logicCompare_eq b slots
  · exact logicOperation_eq b slots
  · exact logicNegate_eq b slots
  · exact digitalRead_eq b slots
  · exact analogRead_eq b slots
  · exact highLow_eq b slots
  · exact timeMillis_eq b slots
  · exact text_eq b slots

theorem generator_statement (k : Kind) (h : k.shape = .statement) :
    k.generator = .statement fun b slots => do return k.sentence b (k.word b) (← k.prepare b slots) := by
  cases k <;> cases h
  all_goals refine congrArg Generator.statement (funext fun b => funext fun slots => ?_)
  · exact servoWrite_eq b slots
  · exact ledColor_eq b slots
  · exact digitalWrite_eq b slots
  · exact analogWrite_eq b slots
  · exact timeDelay_eq b slots
  · exact controlsIf_eq b slots
  · exact controlsRepeat_eq b slots
  · exact serialPrint_eq b slots

end Kind

end BlockSketch
