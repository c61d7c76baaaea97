/-
Generated expressions are read back as the blocks they were made from.

`Block.tree` is what a value block means: operators applied to the trees of the blocks in its slots, with the default
word where a slot is empty. It knows nothing of texts, strengths and parentheses. `Block.clause` is the same for
statements: which expression stands as a statement of its own, as a condition, or as the bound of a loop.

Results:
- `readsAt_of_admissible`: the text of a value block has exactly its tree as a reading, at the level of its strength;
- `written_of_admissible`: every expression in the text of a statement block has exactly its tree as a reading;
- `generated_expressions_read_back`: both, for every block that is generated for a built-in board.
-/
import BlockSketch.Board.Builtin
import BlockSketch.Proofs.Reading
import BlockSketch.Proofs.Walk

namespace BlockSketch

open Scanner

/-! ## What blocks mean -/

def Binary.ofWord? : String → Option Binary
  | "ADD" => some .add
  | "MINUS" => some .subtract
  | "MULTIPLY" => some .multiply
  | "DIVIDE" => some .divide
  | "MODULO" => some .remainder
  | "EQ" => some .equal
  | "NEQ" => some .notEqual
  | "LT" => some .less
  | "LTE" => some .lessEqual
  | "GT" => some .greater
  | "GTE" => some .greaterEqual
  | "AND" => some .both
  | "OR" => some .either
  | _ => none

/-- the operator that a word names between two trees -/
def Expr.operation (word : String) (x y : Expr) : Expr :=
  match Binary.ofWord? word with
  | some op => .binary op x y
  | none => .name ""

/-- what a value block means, given what stands in its slots; a statement means no expression -/
def Kind.meaning (k : Kind) (b : Block) (operand : String → String → Expr) : Expr :=
  let word := k.word b
  match k with
  | .mathNumber => .signed word
  | .mathArithmetic | .logicCompare => .operation word (operand "A" "0") (operand "B" "0")
  | .logicOperation => .operation word (operand "A" "false") (operand "B" "false")
  | .logicNegate => .unary .not (operand "BOOL" "false")
  | .logicBoolean => .name (if Text.upperAscii word = "TRUE" then "true" else "false")
  | .highLow => .name word
  | .digitalRead => .call (.name "digitalRead") [.word word]
  | .analogRead => .call (.name "analogRead") [.word word]
  | .servoRead => .call (.member (.name (servoName word)) "read") []
  | .sonar => .call (.member (.name "Rob") "getSonarValue") [.signed word]
  | .touchSensor => .call (.member (.name "Rob") "getTouchLedValue") [.signed word]
  | .timeMillis => .call (.name "millis") []
  | .text => .text ((b.field? "TEXT").getD "")
  | .servoWrite | .ledColor | .digitalWrite | .analogWrite | .timeDelay | .controlsIf | .controlsRepeat
  | .serialPrint => .name ""

/-- the expressions of a statement and how they stand in it -/
inductive Clause where
  /-- an expression, for what it does -/
  | simple (e : Expr)
  /-- the conditions of the branches in order -/
  | conditional (conditions : List Expr)
  /-- a loop that counts as long as its condition holds -/
  | loop (counter : String) (condition : Expr)

/-- what a statement block does, given what stands in its slots and the name of its counter -/
def Kind.clause (k : Kind) (b : Block) (counter : String) (operand : String → String → Expr) : Clause :=
  let word := k.word b
  match k with
  | .servoWrite => .simple (.call (.member (.name (servoName word)) "write") [operand "SERVO_ANGLE" "90"])
  | .ledColor => .simple (.call (.member (.name "Rob") "SetAllLed") [.text word])
  | .digitalWrite => .simple (.call (.name "digitalWrite") [.word word, operand "STATE" "LOW"])
  | .analogWrite => .simple (.call (.name "analogWrite") [.word word, operand "NUM" "0"])
  | .timeDelay => .simple (.call (.name "delay") [operand "DELAY_TIME_MILI" "0"])
  | .serialPrint =>
    .simple (.call (.member (.name word) (if Library.endsLine b then "println" else "print")) [operand "CONTENT" "0"])
  | .controlsRepeat => .loop counter (.binary .less (.name counter) (operand "TIMES" "0"))
  | .controlsIf =>
    .conditional ((List.range (Library.branchCount b)).map fun n => operand ("IF" ++ toString n) "false")
  | _ => .simple (.name "")

namespace Block

def tree : Block → Expr :=
  fold fun b values _ =>
    b.kind?.elim (.name "") fun k => k.meaning b fun slot default => (values slot).getD (.word default)

/-- the tree in a value slot, or the default word -/
def operand (b : Block) (slot default : String) : Expr := ((b.input? slot).map tree).getD (.word default)

/-- what a statement block does after `loops` loops -/
def clause (b : Block) (loops : Nat) : Clause :=
  b.kind?.elim (.simple (.name "")) fun k => k.clause b (counterName (loops + 1)) b.operand

theorem tree_of_kind {b : Block} {k : Kind} (h : b.kind? = some k) : b.tree = k.meaning b b.operand := by
  rw [tree, fold_eq, h]
  rfl

theorem clause_of_kind {b : Block} {k : Kind} (h : b.kind? = some k) (loops : Nat) :
    b.clause loops = k.clause b (counterName (loops + 1)) b.operand := by
  rw [clause, h]
  rfl

end Block

/-- the text is the statement, and each of its expressions is read as meant and in no other way -/
inductive Clause.WrittenAs : Clause → String → Prop where
  | simple {e : Expr} {phrase : String} (h : ReadsOnly phrase e) : WrittenAs (.simple e) (phrase ++ ";\n")
  | conditional {conditions : List Expr} {branches : List (String × String)} (otherwise : Option String)
    (h : List.Forall₂ (fun branch e => ReadsOnly branch.1 e) branches conditions) :
    WrittenAs (.conditional conditions)
      (" else ".intercalate (branches.map (fun branch => "if (" ++ branch.1 ++ ") " ++ Library.braced branch.2) ++
        otherwise.toList.map Library.braced) ++ "\n")
  | loop (counter : String) {condition : Expr} {phrase : String} (body : String) (h : ReadsOnly phrase condition) :
    WrittenAs (.loop counter condition)
      ("for (int " ++ counter ++ " = 0; " ++ phrase ++ "; " ++ counter ++ "++) " ++ Library.braced body ++ "\n")

/-! ## Words that generators take over -/

theorem word_accepted {k : Kind} {b : Block} {rule : FieldRule} (hf : k.fault? b = none)
    (hr : k.fieldRule? = some rule) : rule.accepts (k.word b) = true := by
  simp only [Kind.fault?, hr] at hf
  cases hv : Library.field? b rule.name with
  | none => rw [hv] at hf; cases hf
  | some v =>
    have hw : k.word b = v := by simp [Kind.word, hr, hv]
    rw [hv] at hf
    rw [hw]
    by_contra ha
    simp [ha] at hf

/-- the pins of the built-in boards are words, and their serial ports are names -/
theorem builtin_pins : ∀ board ∈ Board.builtins,
    (∀ role ∈ Role.all, ∀ pin ∈ board.eligible role, isPlainWord pin = true) ∧
      ∀ pin ∈ board.serialPins, isIdentifier pin = true := by
  decide +kernel

theorem isPlainWord_of_supports {board : Board} {pin : String} {role : Role} (hb : board ∈ Board.builtins)
    (h : board.supports pin role = true) : isPlainWord pin = true :=
  (builtin_pins board hb).1 role (Role.mem_all role) pin (List.contains_iff_mem.1 h)

theorem isIdentifier_of_serial {board : Board} {pin : String} (hb : board ∈ Board.builtins)
    (h : board.supports pin .serial = true) : isIdentifier pin = true :=
  (builtin_pins board hb).2 pin (List.contains_iff_mem.1 h)

theorem isIdentifier_servoName {pin : String} (h : isPlainWord pin = true) : isIdentifier (servoName pin) = true := by
  simp only [isPlainWord, Bool.and_eq_true] at h
  have hchars : (servoName pin).toList = ['m', 'y', 'S', 'e', 'r', 'v', 'o'] ++ pin.toList := by
    simp [servoName, String.toList_append]
  simp only [isIdentifier, isPlainWord, hchars, List.all_append, h.2]
  rfl

/-! ## Operands -/

/-- the text in a value slot where a strength is required, or the default word -/
def Block.operandText (b : Block) (slot : String) (required : Order) (default : String) : String :=
  (((b.input? slot).map Block.expression).map (·.embed required)).getD default

/-- the texts in the value slots of a block mean the trees there -/
def Block.OperandsRead (b : Block) : Prop :=
  ∀ slot required default, .value slot required default ∈ b.requests →
    ReadsAt required.level (b.operandText slot required default) (b.operand slot default)

theorem isPlainWord_default {k : Kind} {b : Block} {word slot default : String} {required : Order}
    (h : .value slot required default ∈ k.requests b word) : isPlainWord default = true := by
  have hmem : default ∈ ["0", "90", "LOW", "false"] := by
    cases k <;> simp only [Kind.requests, Kind.branchRequests, List.mem_append, List.mem_flatMap, List.mem_cons,
      List.not_mem_nil, or_false] at h <;> grind
  exact (by decide : ∀ d ∈ ["0", "90", "LOW", "false"], isPlainWord d = true) default hmem

theorem operandsRead_of_inputs {b : Block} {k : Kind} (hk : b.kind? = some k)
    (h : ∀ slot required default c, .value slot required default ∈ b.requests → b.input? slot = some c →
      ReadsAt c.expression.order.level c.expression.text c.tree) : b.OperandsRead := by
  intro slot required default hreq
  unfold Block.operandText Block.operand
  cases hc : b.input? slot with
  | none =>
    rw [Block.requests_of_kind hk] at hreq
    exact (readsAt_word (isPlainWord_default hreq)).looser (Nat.zero_le _)
  | some c => exact readsAt_embed (h slot required default c hreq hc) required

/-! ## Value blocks -/

/-- what is known of a block that the walk gets past on a built-in board -/
structure Block.Settled (b : Block) (k : Kind) : Prop where
  kind : b.kind? = some k
  fault : k.fault? b = none
  operands : b.OperandsRead
  /-- its pin is a word, and its serial port a name -/
  pin : ∀ use, k.pinUse? (k.word b) = some use →
    isPlainWord use.pin = true ∧ (use.role = .serial → isIdentifier use.pin = true)

/-- arithmetic and comparisons: the operator that the word names, its level, and what it asks for on either side -/
theorem operator_of_word {k : Kind} {rule : FieldRule} {word : String} (hk : k = .mathArithmetic ∨ k = .logicCompare)
    (hr : k.fieldRule? = some rule) (hw : rule.accepts word = true) :
    ∃ op n, Binary.ofWord? word = some op ∧ (k.operator word).sign = op.symbol ∧ op.level = n + 1 ∧
      (k.operator word).order.level = n + 1 ∧ (k.operator word).order.tighter.level = n := by
  rcases hk with rfl | rfl
  · cases hr
    simp only [List.contains_cons, List.contains_nil, Bool.or_false, Bool.or_eq_true, beq_iff_eq] at hw
    rcases hw with rfl | rfl | rfl | rfl | rfl
    · exact ⟨.add, 2, rfl, rfl, rfl, rfl, rfl⟩
    · exact ⟨.subtract, 2, rfl, rfl, rfl, rfl, rfl⟩
    · exact ⟨.multiply, 1, rfl, rfl, rfl, rfl, rfl⟩
    · exact ⟨.divide, 1, rfl, rfl, rfl, rfl, rfl⟩
    · exact ⟨.remainder, 1, rfl, rfl, rfl, rfl, rfl⟩
  · cases hr
    simp only [List.contains_cons, List.contains_nil, Bool.or_false, Bool.or_eq_true, beq_iff_eq] at hw
    rcases hw with rfl | rfl | rfl | rfl | rfl | rfl
    · exact ⟨.equal, 4, rfl, rfl, rfl, rfl, rfl⟩
    · exact ⟨.notEqual, 4, rfl, rfl, rfl, rfl, rfl⟩
    · exact ⟨.less, 3, rfl, rfl, rfl, rfl, rfl⟩
    · exact ⟨.lessEqual, 3, rfl, rfl, rfl, rfl, rfl⟩
    · exact ⟨.greater, 3, rfl, rfl, rfl, rfl, rfl⟩
    · exact ⟨.greaterEqual, 3, rfl, rfl, rfl, rfl, rfl⟩

/-- the connectives: the operator that the word names and its level -/
theorem connective_of_word {word : String} (hw : ["AND", "OR"].contains word = true) :
    ∃ op n, Binary.ofWord? word = some op ∧ (Kind.logicOperation.operator word).sign = op.symbol ∧
      op.regroupable = true ∧ op.level = n + 1 ∧ (Kind.logicOperation.operator word).order.level = n + 1 := by
  simp only [List.contains_cons, List.contains_nil, Bool.or_false, Bool.or_eq_true, beq_iff_eq] at hw
  rcases hw with rfl | rfl
  · exact ⟨.both, 5, rfl, rfl, rfl, rfl, rfl⟩
  · exact ⟨.either, 6, rfl, rfl, rfl, rfl, rfl⟩

theorem readsAt_operation {k : Kind} {b : Block} (h : b.Settled k)
    (hk : k = .mathArithmetic ∨ k = .logicCompare) (indent loops : Nat) :
    ReadsAt (k.expression b (k.word b) (b.texts indent loops).1).order.level
      (k.expression b (k.word b) (b.texts indent loops).1).text (k.meaning b b.operand) := by
  have hrule : ∃ rule, k.fieldRule? = some rule := by rcases hk with rfl | rfl <;> exact ⟨_, rfl⟩
  obtain ⟨rule, hr⟩ := hrule
  obtain ⟨op, n, hop, hsign, hlevel, horder, htighter⟩ := operator_of_word hk hr (word_accepted h.fault hr)
  have hrequests : b.requests = [.value "A" (k.operator (k.word b)).order "0",
      .value "B" (k.operator (k.word b)).order.tighter "0"] := by
    rw [Block.requests_of_kind h.kind]
    rcases hk with rfl | rfl <;> rfl
  have hx := h.operands "A" _ "0" (by rw [hrequests]; exact List.mem_cons_self)
  have hy := h.operands "B" _ "0" (by rw [hrequests]; exact List.mem_cons_of_mem _ List.mem_cons_self)
  rw [horder] at hx
  rw [htighter] at hy
  have hread := readsAt_binary op hlevel hx hy
  have htexts : (b.texts indent loops).1 = [b.operandText "A" (k.operator (k.word b)).order "0",
      b.operandText "B" (k.operator (k.word b)).order.tighter "0"] := by
    rw [Block.texts, hrequests]
    rfl
  have hmeaning : k.meaning b b.operand = .binary op (b.operand "A" "0") (b.operand "B" "0") := by
    rcases hk with rfl | rfl <;> simp only [Kind.meaning, Expr.operation, hop]
  have hexpr : k.expression b (k.word b) (b.texts indent loops).1 =
      Library.binaryCode (k.operator (k.word b)) (b.operandText "A" (k.operator (k.word b)).order "0")
        (b.operandText "B" (k.operator (k.word b)).order.tighter "0") := by
    rw [htexts]
    rcases hk with rfl | rfl <;> rfl
  rw [hexpr, hmeaning]
  simp only [Library.binaryCode, hsign, horder]
  exact hread

theorem readsAt_connective {b : Block} (h : b.Settled .logicOperation) (indent loops : Nat) :
    ReadsAt (Kind.logicOperation.expression b (Kind.logicOperation.word b) (b.texts indent loops).1).order.level
      (Kind.logicOperation.expression b (Kind.logicOperation.word b) (b.texts indent loops).1).text
      (Kind.logicOperation.meaning b b.operand) := by
  obtain ⟨op, n, hop, hsign, hregroup, hlevel, horder⟩ := connective_of_word (word_accepted h.fault rfl)
  generalize hw : Kind.logicOperation.word b = word at hop hsign horder ⊢
  have hrequests : b.requests = [.value "A" (Kind.logicOperation.operator word).order "false",
      .value "B" (Kind.logicOperation.operator word).order "false"] := by
    rw [Block.requests_of_kind h.kind, hw]
    rfl
  have hx := h.operands "A" _ "false" (by rw [hrequests]; exact List.mem_cons_self)
  have hy := h.operands "B" _ "false" (by rw [hrequests]; exact List.mem_cons_of_mem _ List.mem_cons_self)
  rw [horder] at hx hy
  have hread := readsAt_run op hregroup hlevel hx hy
  have hmeaning :
      Kind.logicOperation.meaning b b.operand = .binary op (b.operand "A" "false") (b.operand "B" "false") := by
    simp only [Kind.meaning, hw, Expr.operation, hop]
  have hexpr : Kind.logicOperation.expression b word (b.texts indent loops).1 =
      Library.binaryCode (Kind.logicOperation.operator word)
        (b.operandText "A" (Kind.logicOperation.operator word).order "false")
        (b.operandText "B" (Kind.logicOperation.operator word).order "false") := by
    rw [Block.texts, hrequests]
    rfl
  rw [hexpr, hmeaning]
  simp only [Library.binaryCode, hsign, horder]
  exact hread

theorem readsAt_negation {b : Block} (h : b.Settled .logicNegate) (indent loops : Nat) :
    ReadsAt 1 (Kind.logicNegate.expression b (Kind.logicNegate.word b) (b.texts indent loops).1).text
      (Kind.logicNegate.meaning b b.operand) := by
  have hrequests : b.requests = [.value "BOOL" .unaryPrefix "false"] := Block.requests_of_kind h.kind
  have hx := h.operands "BOOL" .unaryPrefix "false" (by rw [hrequests]; exact List.mem_cons_self)
  rw [Block.texts, hrequests]
  exact readsAt_not hx

/-- what stands for itself: numbers, truth values and levels, in whatever slots they have -/
theorem readsAt_constant {k : Kind} {b : Block} (h : b.Settled k)
    (hk : k = .mathNumber ∨ k = .logicBoolean ∨ k = .highLow ∨ k = .text) (texts : List String) :
    ReadsAt 1 (k.expression b (k.word b) texts).text (k.meaning b b.operand) := by
  rcases hk with rfl | rfl | rfl | rfl
  · exact readsAt_number (word_accepted h.fault rfl)
  · have htrue : ReadsAt 1 "true" (.name "true") := (readsAt_word (by decide)).looser (Nat.zero_le 1)
    have hfalse : ReadsAt 1 "false" (.name "false") := (readsAt_word (by decide)).looser (Nat.zero_le 1)
    simp only [Kind.expression, Kind.meaning, OrderedCode.atomic]
    split
    · exact htrue
    · exact hfalse
  · have hw := word_accepted h.fault rfl
    simp only [Kind.expression, Kind.meaning, OrderedCode.atomic]
    generalize Kind.highLow.word b = word at hw ⊢
    simp only [List.contains_cons, List.contains_nil, Bool.or_false, Bool.or_eq_true, beq_iff_eq] at hw
    rcases hw with rfl | rfl
    · exact (readsAt_word (by decide) : ReadsAt 0 "HIGH" (.name "HIGH")).looser (Nat.zero_le 1)
    · exact (readsAt_word (by decide) : ReadsAt 0 "LOW" (.name "LOW")).looser (Nat.zero_le 1)
  · exact (readsAt_literal _).looser (Nat.zero_le 1)

/-- a call with its name and the opening parenthesis in one literal -/
theorem readsAt_callText {a call arguments : String} {f : Expr} {es : List Expr} (hf : ReadsCallee a f)
    (hcall : call = a ++ "(") (hes : ReadsArguments arguments es) :
    ReadsAt 0 (call ++ arguments ++ ")") (.call f es) := by
  subst hcall
  exact readsAt_call hf hes

/-- calls that ask for nothing but their own field -/
theorem readsAt_query {k : Kind} {b : Block} (h : b.Settled k)
    (hk : k = .digitalRead ∨ k = .analogRead ∨ k = .servoRead ∨ k = .sonar ∨ k = .touchSensor ∨ k = .timeMillis)
    (texts : List String) : ReadsAt 0 (k.expression b (k.word b) texts).text (k.meaning b b.operand) := by
  rcases hk with rfl | rfl | rfl | rfl | rfl | rfl
  · have hpin := readsAt_word (h.pin _ rfl).1
    exact readsAt_callText (readsCallee_name "digitalRead" (by decide)) (by decide)
      (readsArguments_one hpin (by decide))
  · have hpin := readsAt_word (h.pin _ rfl).1
    exact readsAt_callText (readsCallee_name "analogRead" (by decide)) (by decide)
      (readsArguments_one hpin (by decide))
  · have hname := isIdentifier_servoName (h.pin _ rfl).1
    have hread := readsAt_call (readsCallee_member _ "read" hname (by decide)) readsArguments_nil
    have htext : servoName (Kind.servoRead.word b) ++ "." ++ "read" ++ "(" ++ "" ++ ")" =
        servoName (Kind.servoRead.word b) ++ ".read()" := by
      simp only [String.append_assoc]
      rfl
    rw [htext] at hread
    exact hread
  · have hport := readsAt_port (word_accepted h.fault rfl)
    exact readsAt_callText (readsCallee_member "Rob" "getSonarValue" (by decide) (by decide)) (by decide)
      (readsArguments_one hport (by decide))
  · have hport := readsAt_port (word_accepted h.fault rfl)
    exact readsAt_callText (readsCallee_member "Rob" "getTouchLedValue" (by decide) (by decide)) (by decide)
      (readsArguments_one hport (by decide))
  · exact readsAt_call (readsCallee_name "millis" (by decide)) readsArguments_nil

theorem readsAt_of_settled {k : Kind} {b : Block} (h : b.Settled k) (hs : k.shape = .value) (indent loops : Nat) :
    ReadsAt (k.expression b (k.word b) (b.texts indent loops).1).order.level
      (k.expression b (k.word b) (b.texts indent loops).1).text (k.meaning b b.operand) := by
  have hquery : (k = .digitalRead ∨ k = .analogRead ∨ k = .servoRead ∨ k = .sonar ∨ k = .touchSensor ∨
      k = .timeMillis) → ReadsAt 1 (k.expression b (k.word b) (b.texts indent loops).1).text (k.meaning b b.operand) :=
    fun hk => (readsAt_query h hk _).looser (Nat.zero_le 1)
  cases k with
  | mathArithmetic => exact readsAt_operation h (.inl rfl) indent loops
  | logicCompare => exact readsAt_operation h (.inr rfl) indent loops
  | logicOperation => exact readsAt_connective h indent loops
  | logicNegate => exact readsAt_negation h indent loops
  | mathNumber =>
    have hread := readsAt_constant h (.inl rfl) (b.texts indent loops).1
    simp only [Kind.expression] at hread ⊢
    split <;> exact hread
  | logicBoolean => exact readsAt_constant h (.inr (.inl rfl)) _
  | highLow => exact readsAt_constant h (.inr (.inr (.inl rfl))) _
  | text => exact readsAt_constant h (.inr (.inr (.inr rfl))) _
  | digitalRead => exact hquery (.inl rfl)
  | analogRead => exact hquery (.inr (.inl rfl))
  | servoRead => exact hquery (.inr (.inr (.inl rfl)))
  | sonar => exact hquery (.inr (.inr (.inr (.inl rfl))))
  | touchSensor => exact hquery (.inr (.inr (.inr (.inr (.inl rfl)))))
  | timeMillis => exact hquery (.inr (.inr (.inr (.inr (.inr rfl)))))
  | _ => cases hs

variable {board : Board} {shape : Shape} {level : Nat}

theorem settled_of_admissible (hboard : board ∈ Board.builtins) {b : Block}
    (h : ∀ action ∈ b.actions shape level, action.Admissible board)
    (hinputs : ∀ slot c, b.input? slot = some c →
      (∀ action ∈ c.actions .value (level + 1), action.Admissible board) →
        ReadsAt c.expression.order.level c.expression.text c.tree) :
    ∃ k, b.Settled k ∧ k.shape = shape := by
  obtain ⟨-, k, hk, hshape, hfault⟩ := Block.refusal?_eq_none_iff.1 (Block.refusal?_of_admissible h)
  have huse : b.pinUse? = k.pinUse? (k.word b) := by simp [Block.pinUse?, hk]
  refine ⟨k, ⟨hk, hfault, ?_, ?_⟩, hshape⟩
  · exact operandsRead_of_inputs hk fun slot required default c hreq hc =>
      hinputs slot c hc (Block.admissible_input h hreq hc)
  · intro use hu
    have hsupports := Block.supports_of_admissible h (huse.trans hu)
    refine ⟨isPlainWord_of_supports hboard hsupports, fun hrole => ?_⟩
    rw [hrole] at hsupports
    exact isIdentifier_of_serial hboard hsupports

/-- **The text of a value block means its tree**, at the level of its strength, if nothing is against the walk. -/
theorem readsAt_of_admissible (hboard : board ∈ Board.builtins) (b : Block) (level : Nat)
    (h : ∀ action ∈ b.actions .value level, action.Admissible board) :
    ReadsAt b.expression.order.level b.expression.text b.tree := by
  induction b using Block.induct generalizing level with
  | step b hv _ =>
    obtain ⟨k, hsettled, hshape⟩ := settled_of_admissible hboard h fun slot c hc hadm => hv slot c hc (level + 1) hadm
    rw [(Block.expression_of_kind hsettled.kind hshape 0 0).1, Block.tree_of_kind hsettled.kind]
    exact readsAt_of_settled hsettled hshape 0 0

/-! ## Statement blocks -/

theorem written_simple {n : Nat} {phrase text : String} {e : Expr} (h : ReadsAt n phrase e) (hn : n ≤ topLevel)
    (ht : text = phrase ++ ";\n") : (Clause.simple e).WrittenAs text := by
  subst ht
  exact .simple (readsOnly_of_readsAt h hn)

theorem isIdentifier_counterName (n : Nat) : isIdentifier (counterName n) = true := by
  unfold counterName
  split
  · decide
  · have hdigits : (toString n).toList.all isWordChar = true := by
      rw [List.all_eq_true]
      intro c hc
      have hmem : c ∈ Nat.toDigits 10 n := by
        rw [← Nat.toList_repr]
        exact hc
      exact isWordChar_digit (Nat.isDigit_of_mem_toDigits (by decide) (by decide) hmem)
    have hchars : (counterBase ++ toString n).toList = ['c', 'o', 'u', 'n', 't'] ++ (toString n).toList := by
      rw [String.toList_append]
      rfl
    simp only [isIdentifier, isPlainWord, hchars, List.all_append, hdigits]
    rfl

theorem literal_color : ∀ color ∈ Library.colors, Library.literal color = "\"" ++ color ++ "\"" := by
  decide

/-- a call with its name and the opening parenthesis in one text, as a statement -/
theorem written_callText {a call arguments : String} {f : Expr} {es : List Expr} (hf : ReadsCallee a f)
    (hcall : call = a ++ "(") (hes : ReadsArguments arguments es) :
    (Clause.simple (.call f es)).WrittenAs (call ++ arguments ++ ");\n") := by
  have hend : ");\n" = ")" ++ ";\n" := by decide
  refine written_simple (readsAt_callText hf hcall hes) (by decide) ?_
  rw [hend, ← String.append_assoc]

theorem written_call {k : Kind} {b : Block} (h : b.Settled k)
    (hk : k = .servoWrite ∨ k = .ledColor ∨ k = .digitalWrite ∨ k = .analogWrite ∨ k = .timeDelay ∨ k = .serialPrint)
    (counter : String) (indent loops : Nat) :
    (k.clause b counter b.operand).WrittenAs (k.sentence b (k.word b) (b.texts indent loops).1) := by
  have hrequests := Block.requests_of_kind h.kind
  rw [Block.texts, hrequests]
  rcases hk with rfl | rfl | rfl | rfl | rfl | rfl
  · have hx := h.operands "SERVO_ANGLE" .atomic "90" (by rw [hrequests]; exact List.mem_cons_self)
    have hname := isIdentifier_servoName (h.pin _ rfl).1
    have hcall : servoName (Kind.servoWrite.word b) ++ ".write(" =
        servoName (Kind.servoWrite.word b) ++ "." ++ "write" ++ "(" := by
      rw [String.append_assoc, String.append_assoc, show ".write(" = "." ++ ("write" ++ "(") by decide]
    exact written_callText (readsCallee_member _ "write" hname (by decide)) hcall (readsArguments_one hx (by decide))
  · have hcolor := literal_color _ (List.contains_iff_mem.1 (word_accepted h.fault rfl))
    have hwritten := written_callText (readsCallee_member "Rob" "SetAllLed" (by decide) (by decide)) rfl
      (readsArguments_one (readsAt_literal (Kind.ledColor.word b)) (by decide))
    have htext : "Rob" ++ "." ++ "SetAllLed" ++ "(" ++ Library.literal (Kind.ledColor.word b) ++ ");\n" =
        "Rob.SetAllLed(\"" ++ Kind.ledColor.word b ++ "\");\n" := by
      rw [hcolor, show "Rob.SetAllLed(\"" = "Rob" ++ "." ++ "SetAllLed" ++ "(" ++ "\"" by decide,
        show "\");\n" = "\"" ++ ");\n" by decide]
      simp only [String.append_assoc]
    rw [htext] at hwritten
    exact hwritten
  · have hx := h.operands "STATE" .atomic "LOW" (by rw [hrequests]; exact List.mem_cons_self)
    have hpin := readsAt_word (h.pin _ rfl).1
    have hwritten := written_callText (readsCallee_name "digitalWrite" (by decide)) rfl
      (readsArguments_cons hpin (by decide) (readsArguments_one hx (by decide)))
    simp only [← String.append_assoc] at hwritten
    exact hwritten
  · have hx := h.operands "NUM" .atomic "0" (by rw [hrequests]; exact List.mem_cons_self)
    have hpin := readsAt_word (h.pin _ rfl).1
    have hwritten := written_callText (readsCallee_name "analogWrite" (by decide)) rfl
      (readsArguments_cons hpin (by decide) (readsArguments_one hx (by decide)))
    simp only [← String.append_assoc] at hwritten
    exact hwritten
  · have hx := h.operands "DELAY_TIME_MILI" .atomic "0" (by rw [hrequests]; exact List.mem_cons_self)
    exact written_callText (readsCallee_name "delay" (by decide)) (by decide) (readsArguments_one hx (by decide))
  · have hx := h.operands "CONTENT" .lowest "0" (by rw [hrequests]; exact List.mem_cons_self)
    have hport := (h.pin _ rfl).2 rfl
    have hmethod : isIdentifier (if Library.endsLine b then "println" else "print") = true := by
      split <;> decide
    exact written_callText (readsCallee_member _ _ hport hmethod) rfl (readsArguments_one hx (by decide))

/-- a loop: the counter stays below the bound -/
theorem written_loop {b : Block} (h : b.Settled .controlsRepeat) (indent loops : Nat) :
    (Kind.controlsRepeat.clause b (counterName (loops + 1)) b.operand).WrittenAs
      (Kind.controlsRepeat.sentence b (Kind.controlsRepeat.word b) (b.texts indent loops).1) := by
  have hrequests : b.requests = [.value "TIMES" Order.relational.tighter "0", .counter, .chain "DO"] :=
    Block.requests_of_kind h.kind
  have hx := h.operands "TIMES" Order.relational.tighter "0" (by rw [hrequests]; exact List.mem_cons_self)
  have hidentifier := isIdentifier_counterName (loops + 1)
  have hcounter : ReadsAt 4 (counterName (loops + 1)) (.name (counterName (loops + 1))) := by
    obtain ⟨⟨ts, hs, hd⟩, ho⟩ := readsCallee_name _ hidentifier
    exact ⟨⟨ts, _, hs, hd.looser_of_le (by decide), .refl _⟩, ho⟩
  have hread : ReadsAt 4
      (counterName (loops + 1) ++ " " ++ "<" ++ " " ++ b.operandText "TIMES" Order.relational.tighter "0")
      (.binary .less (.name (counterName (loops + 1))) (b.operand "TIMES" "0")) :=
    readsAt_binary .less rfl hcounter hx
  have hwritten := Clause.WrittenAs.loop (counterName (loops + 1))
    (bodyText indent ((b.statement "DO").map (Block.code indent)) (loops + 1)).1 (readsOnly_of_readsAt hread (by decide))
  have htext (c t before : String) : before ++ (c ++ " " ++ "<" ++ " " ++ t) = before ++ c ++ " < " ++ t := by
    rw [show " < " = " " ++ "<" ++ " " by decide]
    simp only [String.append_assoc]
  rw [htext] at hwritten
  rw [Block.texts, hrequests]
  exact hwritten

/-- branch by branch: the texts that answer the requests of a conditional are its conditions and bodies in turn -/
theorem written_branches {b : Block} (indent : Nat) {ns : List Nat} (hasElse : Bool) (loops : Nat)
    (h : ∀ n ∈ ns,
      ReadsOnly (b.operandText ("IF" ++ toString n) .lowest "false") (b.operand ("IF" ++ toString n) "false")) :
    ∃ (branches : List (String × String)) (otherwise : Option String),
      Kind.branchTexts (Request.texts (fun slot => (b.input? slot).map Block.expression)
          (fun slot => bodyText indent ((b.statement slot).map (Block.code indent)))
          (Kind.branchRequests ns hasElse) loops).1 =
        branches.map (fun branch => "if (" ++ branch.1 ++ ") " ++ Library.braced branch.2) ++
          otherwise.toList.map Library.braced ∧
      List.Forall₂ (fun branch e => ReadsOnly branch.1 e) branches
        (ns.map fun n => b.operand ("IF" ++ toString n) "false") := by
  induction ns generalizing loops with
  | nil =>
    cases hasElse with
    | true => exact ⟨[], some _, rfl, .nil⟩
    | false => exact ⟨[], none, rfl, .nil⟩
  | cons n rest ih =>
    obtain ⟨branches, otherwise, htexts, hread⟩ :=
      ih (bodyText indent ((b.statement ("DO" ++ toString n)).map (Block.code indent)) loops).2
        fun m hm => h m (List.mem_cons_of_mem n hm)
    refine ⟨(b.operandText ("IF" ++ toString n) .lowest "false",
      (bodyText indent ((b.statement ("DO" ++ toString n)).map (Block.code indent)) loops).1) :: branches, otherwise, ?_,
      .cons (h n List.mem_cons_self) hread⟩
    rw [List.map_cons, List.cons_append, ← htexts]
    rfl

theorem written_conditional {b : Block} (h : b.Settled .controlsIf) (counter : String) (indent loops : Nat) :
    (Kind.controlsIf.clause b counter b.operand).WrittenAs
      (Kind.controlsIf.sentence b (Kind.controlsIf.word b) (b.texts indent loops).1) := by
  have hrequests : b.requests =
      Kind.branchRequests (List.range (Library.branchCount b)) (b.hasStatement "ELSE") := Block.requests_of_kind h.kind
  have hconditions (n : Nat) (hn : n ∈ List.range (Library.branchCount b)) :
      ReadsOnly (b.operandText ("IF" ++ toString n) .lowest "false") (b.operand ("IF" ++ toString n) "false") := by
    refine readsOnly_of_readsAt (h.operands _ .lowest "false" ?_) (by decide)
    rw [hrequests, Kind.branchRequests, List.mem_append, List.mem_flatMap]
    exact .inl ⟨n, hn, List.mem_cons_self⟩
  obtain ⟨branches, otherwise, htexts, hread⟩ := written_branches indent (b.hasStatement "ELSE") loops hconditions
  have hwritten := Clause.WrittenAs.conditional otherwise hread
  rw [← htexts, ← hrequests] at hwritten
  exact hwritten

theorem written_of_settled {k : Kind} {b : Block} (h : b.Settled k) (hs : k.shape = .statement) (indent loops : Nat) :
    (b.clause loops).WrittenAs (k.sentence b (k.word b) (b.texts indent loops).1) := by
  rw [Block.clause_of_kind h.kind]
  cases k with
  | controlsIf => exact written_conditional h _ indent loops
  | controlsRepeat => exact written_loop h indent loops
  | servoWrite => exact written_call h (.inl rfl) _ indent loops
  | ledColor => exact written_call h (.inr (.inl rfl)) _ indent loops
  | digitalWrite => exact written_call h (.inr (.inr (.inl rfl))) _ indent loops
  | analogWrite => exact written_call h (.inr (.inr (.inr (.inl rfl)))) _ indent loops
  | timeDelay => exact written_call h (.inr (.inr (.inr (.inr (.inl rfl))))) _ indent loops
  | serialPrint => exact written_call h (.inr (.inr (.inr (.inr (.inr rfl))))) _ indent loops
  | _ => cases hs

/-- **The text of a statement block is its clause**, if nothing is against the walk. -/
theorem written_of_admissible (hboard : board ∈ Board.builtins) {b : Block} (indent loops : Nat)
    (h : ∀ action ∈ b.actions .statement level, action.Admissible board) :
    (b.clause loops).WrittenAs (b.code indent loops).1 := by
  obtain ⟨k, hsettled, hshape⟩ := settled_of_admissible hboard h fun slot c hc hadm =>
    readsAt_of_admissible hboard c (level + 1) hadm
  rw [Block.code_of_kind hsettled.kind hshape]
  exact written_of_settled hsettled hshape indent loops

/-- **Generated expressions are read back.** Whatever state a walk starts from on a built-in board: the text of a value
block has exactly one reading, which is the tree of the block up to the grouping of runs of `&&` and of `||`; and in the
text of a statement block the calls, conditions and loop bounds are read back in the same way. -/
theorem generated_expressions_read_back (b : Block) (p : Pass) (hboard : p.board ∈ Board.builtins) :
    (∀ code q, valueCode Table.builtin b p = .ok code q → ReadsOnly code.text b.tree) ∧
      ∀ code q, statementCode Table.builtin b p = .ok code q → (b.clause (p.uses counterBase)).WrittenAs code := by
  have hsees : p.Sees p.indent p.depth (p.uses counterBase) := ⟨rfl, rfl, rfl⟩
  constructor
  · intro code q hrun
    have hwalk := valueCode_performs b p.indent p.depth (p.uses counterBase) p hsees
    cases hact : Action.performAll (b.actions .value (p.depth + 1)) p with
    | error e r => rw [hact, hrun] at hwalk; cases hwalk
    | ok u r =>
      rw [hact, hrun] at hwalk
      cases hwalk.1
      exact readsOnly_of_readsAt (readsAt_of_admissible hboard b _ (performAll_admissible hact)) (Order.level_le_top _)
  · intro code q hrun
    have hwalk := statementCode_performs b p.indent p.depth (p.uses counterBase) p hsees
    cases hact : Action.performAll (b.actions .statement (p.depth + 1)) p with
    | error e r => rw [hact, hrun] at hwalk; cases hwalk
    | ok u r =>
      rw [hact, hrun] at hwalk
      cases hwalk.1
      exact written_of_admissible hboard p.indent _ (performAll_admissible hact)

def bareBlock (kind : String) (fields : List (String × String)) (inputs : List (String × Block)) : Block :=
  ⟨kind, kind, fields, inputs, [], default⟩

/-- a condition with a subtraction on the right of a subtraction, a run of `&&` on the right of `&&`, and an operand
missing -/
def sampleCondition : Block :=
  bareBlock "logic_operation" [("OP", "AND")]
    [("A", bareBlock "logic_compare" [("OP", "LT")]
      [("A", bareBlock "math_arithmetic" [("OP", "MINUS")]
        [("A", bareBlock "math_number" [("NUM", "1")] []),
         ("B", bareBlock "math_arithmetic" [("OP", "MINUS")]
          [("A", bareBlock "math_number" [("NUM", " 2 ")] []), ("B", bareBlock "math_number" [("NUM", "-3")] [])])]),
       ("B", bareBlock "io_analogread" [("PIN", "A0")] [])]),
     ("B", bareBlock "logic_operation" [("OP", "AND")]
      [("A", bareBlock "logic_negate" [] [("BOOL", bareBlock "io_highlow" [("STATE", "HIGH")] [])])])]

def sampleLoop : Block := bareBlock "controls_repeat_ext" [] [("TIMES", sampleCondition)]

/-- the condition alone, and as the bound of a loop -/
theorem generated_expressions_read_back_sample :
    Board.uno ∈ Board.builtins ∧
      ReadsOnly "1 - (2 - -3) < analogRead(A0) && !HIGH && false" sampleCondition.tree ∧
      (sampleLoop.clause 0).WrittenAs
        "for (int count = 0; count < (1 - (2 - -3) < analogRead(A0) && !HIGH && false); count++) \x7b\n\x7d\n" := by
  have hboard : Board.uno ∈ Board.builtins := List.mem_cons_self
  have hvalue : result? (valueCode Table.builtin sampleCondition { board := Board.uno, indent := 2 }) =
      some ⟨"1 - (2 - -3) < analogRead(A0) && !HIGH && false", .logicalAnd⟩ := by decide +kernel
  have hloop : result? (statementCode Table.builtin sampleLoop { board := Board.uno, indent := 2 }) =
      some "for (int count = 0; count < (1 - (2 - -3) < analogRead(A0) && !HIGH && false); count++) \x7b\n\x7d\n" := by
    decide +kernel
  obtain ⟨q, hq⟩ := result?_eq_some hvalue
  obtain ⟨r, hr⟩ := result?_eq_some hloop
  have hread := (generated_expressions_read_back sampleCondition _ hboard).1 _ q hq
  have hwritten := (generated_expressions_read_back sampleLoop _ hboard).2 _ r hr
  exact ⟨hboard, hread, hwritten⟩

end BlockSketch
