/-
The walk through a block, said without a state.

`Block.expression` and `Block.code` are the texts that a block becomes; the only thing they depend on besides the block
is the width of a level and, for statements, how many loops came before. `Block.actions` lists everything the walk does
to the pass on the way, in order: a block's operands come before its own claim, and its claim before its boilerplate.
All three are folds over the block tree.

Results:
- `valueCode_performs`, `chainCode_performs`: walking an expression or a chain does exactly the actions listed for it,
  with their outcome, and gives the text listed for it;
- `refusal?_eq_none_iff`: what has to be right about a block itself for the walk to get past it;
- `runProgram_eq`: a run does the actions of both chains and then lays out the sketch.
So every question about a walk is a question about a list of actions.
-/
import BlockSketch.Proofs.Actions
import BlockSketch.Proofs.BlockTree
import Mathlib.Data.List.Basic

namespace BlockSketch

open BlockSketch.Action

/-! ## A block and its own part in a walk -/

namespace Block

def kind? (b : Block) : Option Kind := Kind.ofName? b.kind

/-- why a block cannot stand where it stands, as far as the block itself shows: the fault the walk raises at it -/
def refusal? (b : Block) (shape : Shape) (level : Nat) : Option Fault :=
  if Pass.maxDepth < level then some (.nestingTooDeep Pass.maxDepth)
  else
    match b.kind? with
    | none => some (.unknownBlockType b.kind)
    | some k => if k.shape = shape then k.fault? b else some (.wrongBlockShape b.kind shape)

def requests (b : Block) : List Request := b.kind?.elim [] fun k => k.requests b (k.word b)

def pinUse? (b : Block) : Option PinUse := b.kind?.bind fun k => k.pinUse? (k.word b)

def ownNeeds (b : Block) : List Need := b.kind?.elim [] fun k => k.needs (k.word b)

/-- what the block itself does once its slots are done with -/
def ownActions (b : Block) : List Action := b.pinUse?.toList.map (claim b) ++ b.ownNeeds.map contribute

/-- the note taken when a statement is reached -/
def opening (b : Block) : Shape → List Action
  | .value => []
  | .statement => [note (.statement b.id b.kind)]

end Block

/-! ## Texts -/

def counterName (n : Nat) : String := if n = 1 then counterBase else counterBase ++ toString n

/-- the text that answers a request after `loops` loops, and how many loops there are then -/
def Request.text (values : String → Option OrderedCode) (chains : String → Nat → String × Nat) :
    Request → Nat → String × Nat
  | .value slot required default, loops => (((values slot).map (·.embed required)).getD default, loops)
  | .chain slot, loops => chains slot loops
  | .counter, loops => (counterName (loops + 1), loops + 1)

def Request.texts (values : String → Option OrderedCode) (chains : String → Nat → String × Nat) :
    List Request → Nat → List String × Nat
  | [], loops => ([], loops)
  | request :: rest, loops =>
    let (text, loops') := request.text values chains loops
    let (others, loops'') := texts values chains rest loops'
    (text :: others, loops'')

/-- the text of a chain from the texts of its statements -/
def chainText : List (Nat → String × Nat) → Nat → String × Nat
  | [], loops => ("", loops)
  | statement :: rest, loops =>
    let (first, loops') := statement loops
    let (others, loops'') := chainText rest loops'
    (first ++ others, loops'')

/-- the text of a chain in a statement slot, indented by one level -/
def bodyText (indent : Nat) (chain : List (Nat → String × Nat)) (loops : Nat) : String × Nat :=
  (Text.indentLines indent (chainText chain loops).1, (chainText chain loops).2)

namespace Block

def expression : Block → OrderedCode :=
  fold fun b values _ =>
    b.kind?.elim (.atomic "") fun k =>
      k.expression b (k.word b) (Request.texts values (fun _ loops => ("", loops)) b.requests 0).1

/-- the statement that a block becomes after `loops` loops, and how many loops there are then -/
def code (indent : Nat) : Block → Nat → String × Nat :=
  fold fun b _ chains loops =>
    let (texts, loops') := Request.texts (fun slot => (b.input? slot).map expression)
      (fun slot => bodyText indent (chains slot)) b.requests loops
    (b.kind?.elim "" fun k => endLine (k.sentence b (k.word b) texts), loops')

/-- the texts that the block asks for after `loops` loops, and how many loops there are then -/
def texts (indent : Nat) (b : Block) (loops : Nat) : List String × Nat :=
  Request.texts (fun slot => (b.input? slot).map expression)
    (fun slot => bodyText indent ((b.statement slot).map (code indent))) b.requests loops

/-- everything the walk through a block does to a pass, if the block stands at `level` and is to be of `shape` -/
def actions : Block → Shape → Nat → List Action :=
  fold fun b values chains shape level =>
    b.opening shape ++
      match b.refusal? shape level with
      | some fault => [fail b fault]
      | none =>
        b.requests.flatMap (fun request =>
          match request with
          | .value slot _ _ => (values slot).elim [] fun child => child .value (level + 1)
          | .chain slot => (chains slot).flatMap fun child => child .statement (level + 1)
          | .counter => [count]) ++ b.ownActions

end Block

/-- the text of a chain of blocks after `loops` loops, and how many loops there are then -/
def chainCodeText (indent : Nat) (chain : List Block) : Nat → String × Nat := chainText (chain.map (Block.code indent))

def chainActions (chain : List Block) (level : Nat) : List Action :=
  chain.flatMap fun b => b.actions .statement level

/-- what a request does, asked by a block that stands at `level` -/
def Request.actions (b : Block) (level : Nat) : Request → List Action
  | .value slot _ _ => (b.input? slot).elim [] fun c => c.actions .value (level + 1)
  | .chain slot => chainActions (b.statement slot) (level + 1)
  | .counter => [count]

theorem chainCodeText_nil (indent loops : Nat) : chainCodeText indent [] loops = ("", loops) := rfl

theorem chainCodeText_cons (indent : Nat) (b : Block) (rest : List Block) (loops : Nat) :
    chainCodeText indent (b :: rest) loops =
      ((b.code indent loops).1 ++ (chainCodeText indent rest (b.code indent loops).2).1,
        (chainCodeText indent rest (b.code indent loops).2).2) := rfl

theorem Request.texts_cons (values : String → Option OrderedCode) (chains : String → Nat → String × Nat)
    (request : Request) (rest : List Request) (loops : Nat) :
    Request.texts values chains (request :: rest) loops =
      ((request.text values chains loops).1 :: (Request.texts values chains rest (request.text values chains loops).2).1,
        (Request.texts values chains rest (request.text values chains loops).2).2) := rfl

namespace Block

theorem expression_eq (b : Block) :
    b.expression = b.kind?.elim (.atomic "") fun k =>
      k.expression b (k.word b)
        (Request.texts (fun slot => (b.input? slot).map expression) (fun _ loops => ("", loops)) b.requests 0).1 := by
  rw [expression, fold_eq]

theorem code_eq (indent : Nat) (b : Block) (loops : Nat) :
    b.code indent loops =
      (b.kind?.elim "" fun k => endLine (k.sentence b (k.word b) (b.texts indent loops).1),
        (b.texts indent loops).2) := by
  rw [code, fold_eq]
  rfl

theorem actions_eq (b : Block) (shape : Shape) (level : Nat) :
    b.actions shape level = b.opening shape ++
      match b.refusal? shape level with
      | some fault => [fail b fault]
      | none => b.requests.flatMap (Request.actions b level) ++ b.ownActions := by
  rw [actions, fold_eq]
  congr 1
  cases b.refusal? shape level with
  | some fault => rfl
  | none =>
    simp only
    congr 1
    refine List.flatMap_congr fun request _ => ?_
    cases request with
    | value slot required default =>
      simp only [Request.actions]
      cases b.input? slot with
      | none => rfl
      | some c => rfl
    | chain slot => simp [Request.actions, chainActions, List.flatMap_map, actions]
    | counter => rfl

end Block

/-! ## Requests do what is listed -/

variable {indent depth loops loops' : Nat}

theorem performs_perform {action : Action} (hloops : ∀ p q, action.perform p = .ok () q →
    p.uses counterBase = loops → q.uses counterBase = loops') :
    Performs action.perform indent depth loops [action] () loops' := by
  intro p hp
  have hframe := perform_frame action p
  rw [performAll_cons]
  cases h : action.perform p with
  | ok u q =>
    rw [h] at hframe
    exact ⟨rfl, hframe.indent.trans hp.indent, hframe.depth.trans hp.depth, hloops p q h hp.loops⟩
  | error e q => rfl

theorem performs_claim (b : Block) (use? : Option PinUse) :
    Performs (PinUse.claim b use?) indent depth loops (use?.toList.map (claim b)) () loops := by
  cases use? with
  | none => exact performs_pure ()
  | some use =>
    have h1 : Performs (claim b use).perform indent depth loops [claim b use] () loops := by
      refine performs_perform fun p q h hp => ?_
      obtain ⟨pins, -, rfl⟩ := perform_claim_ok h
      exact hp
    exact h1

theorem performs_contributeAll (needs : List Need) (indent depth loops : Nat) :
    Performs (Need.contributeAll needs) indent depth loops (needs.map contribute) () loops := by
  induction needs with
  | nil => exact performs_pure ()
  | cons need rest ih =>
    have h1 : Performs (contribute need).perform indent depth loops [contribute need] () loops := by
      refine performs_perform fun p q h hp => ?_
      rw [perform_contribute] at h
      cases h
      exact hp
    have h2 := performs_bind h1 (g := fun _ => Need.contributeAll rest) ih
    have he : Need.contributeAll (need :: rest) = (contribute need).perform >>= fun _ => Need.contributeAll rest := by
      simp [Need.contributeAll, perform]
    rw [he]
    exact h2

theorem uses_countUse (p : Pass) (base : String) : (p.countUse base).uses base = p.uses base + 1 := by
  simp [Pass.uses, Pass.countUse]

theorem performs_counter :
    Performs (Gen.distinctName counterBase) indent depth loops [count] (counterName (loops + 1)) (loops + 1) := by
  intro p hp
  have h : performAll [count] p = .ok () (p.countUse counterBase) := rfl
  rw [h]
  refine ⟨?_, hp.indent, hp.depth, ?_⟩
  · rw [← hp.loops]; rfl
  · rw [uses_countUse, hp.loops]

theorem performs_indented {x : Gen String} {actions : List Action} {text : String}
    (hx : Performs x indent depth loops actions text loops') :
    Performs (do Gen.indented (← x)) indent depth loops actions (Text.indentLines indent text) loops' := by
  have hi : Performs (Gen.indented text) indent depth loops' [] (Text.indentLines indent text) loops' := by
    intro p hp
    refine ⟨?_, hp⟩
    rw [← hp.indent]
    rfl
  have h := performs_bind hx hi
  rwa [List.append_nil] at h

/-- the walk through a block does what is listed for it, wherever the block stands and however many loops came before -/
def Block.WalkedAsListed (b : Block) : Prop :=
  ∀ indent depth loops,
    Performs (valueCode Table.builtin b) indent depth loops (b.actions .value (depth + 1)) b.expression loops ∧
    Performs (statementCode Table.builtin b) indent depth loops (b.actions .statement (depth + 1))
      (b.code indent loops).1 (b.code indent loops).2

theorem performs_chain {chain : List Block} (h : ∀ b ∈ chain, b.WalkedAsListed) :
    Performs (chainCode Table.builtin chain) indent depth loops (chainActions chain (depth + 1))
      (chainCodeText indent chain loops).1 (chainCodeText indent chain loops).2 := by
  induction chain generalizing loops with
  | nil =>
    have he : chainCode Table.builtin [] = pure "" := by rw [chainCode]
    rw [he]
    exact performs_pure ""
  | cons b rest ih =>
    rw [chainCode_cons]
    have h1 := (h b List.mem_cons_self indent depth loops).2
    have h2 := @ih (b.code indent loops).2 fun c hc => h c (List.mem_cons_of_mem b hc)
    exact performs_bind h1 (performs_map (fun others => (b.code indent loops).1 ++ others) h2)

theorem performs_request {b : Block} (hv : ∀ slot c, b.input? slot = some c → c.WalkedAsListed)
    (hs : ∀ slot c, c ∈ b.statement slot → c.WalkedAsListed) (request : Request) :
    Performs (request.ask (b.slots Table.builtin)) indent depth loops (request.actions b depth)
      (request.text (fun slot => (b.input? slot).map Block.expression)
        (fun slot => bodyText indent ((b.statement slot).map (Block.code indent))) loops).1
      (request.text (fun slot => (b.input? slot).map Block.expression)
        (fun slot => bodyText indent ((b.statement slot).map (Block.code indent))) loops).2 := by
  cases request with
  | value slot required default =>
    simp only [Request.ask, Slots.valueOr, Block.slots, Request.actions, Request.text]
    cases h : b.input? slot with
    | none => exact performs_pure default
    | some c => exact performs_map (·.embed required) (hv slot c h indent depth loops).1
  | chain slot => exact performs_indented (performs_chain (hs slot))
  | counter => exact performs_counter

theorem performs_requests {b : Block} (hv : ∀ slot c, b.input? slot = some c → c.WalkedAsListed)
    (hs : ∀ slot c, c ∈ b.statement slot → c.WalkedAsListed) (requests : List Request) :
    Performs (Request.askAll (b.slots Table.builtin) requests) indent depth loops
      (requests.flatMap (Request.actions b depth))
      (Request.texts (fun slot => (b.input? slot).map Block.expression)
        (fun slot => bodyText indent ((b.statement slot).map (Block.code indent))) requests loops).1
      (Request.texts (fun slot => (b.input? slot).map Block.expression)
        (fun slot => bodyText indent ((b.statement slot).map (Block.code indent))) requests loops).2 := by
  induction requests generalizing loops with
  | nil => exact performs_pure []
  | cons request rest ih =>
    rw [Request.texts_cons, List.flatMap_cons, Request.askAll]
    exact performs_bind (performs_request hv hs request) (performs_map _ ih)

/-! ## The walk does what is listed -/

theorem Kind.requests_of_value {k : Kind} (hk : k.shape = .value) (b : Block) (word : String) {request : Request}
    (h : request ∈ k.requests b word) : ∃ slot required default, request = .value slot required default := by
  cases k <;> cases hk <;> simp only [requests, List.mem_cons, List.not_mem_nil, or_false] at h
  all_goals grind

/-- answers to requests for values do not depend on chains and loops -/
theorem Request.texts_of_values (values : String → Option OrderedCode) (chains chains' : String → Nat → String × Nat)
    {requests : List Request} (h : ∀ r ∈ requests, ∃ slot required default, r = .value slot required default)
    (loops loops' : Nat) :
    Request.texts values chains requests loops = ((Request.texts values chains' requests loops').1, loops) := by
  induction requests with
  | nil => rfl
  | cons request rest ih =>
    obtain ⟨slot, required, default, rfl⟩ := h request List.mem_cons_self
    have hrest := ih fun r hr => h r (List.mem_cons_of_mem _ hr)
    simp only [Request.texts_cons, Request.text, hrest]

theorem Block.requests_of_kind {b : Block} {k : Kind} (h : b.kind? = some k) : b.requests = k.requests b (k.word b) := by
  simp [requests, h]

/-- the expression of a value block is made of the texts it asks for, and no loop is counted on the way -/
theorem Block.expression_of_kind {b : Block} {k : Kind} (hk : b.kind? = some k) (hs : k.shape = .value)
    (indent loops : Nat) :
    b.expression = k.expression b (k.word b) (b.texts indent loops).1 ∧ (b.texts indent loops).2 = loops := by
  have hr : ∀ r ∈ b.requests, ∃ slot required default, r = .value slot required default := by
    rw [requests_of_kind hk]
    exact fun r h => Kind.requests_of_value hs b _ h
  have ht := Request.texts_of_values (fun slot => (b.input? slot).map expression)
    (fun slot => bodyText indent ((b.statement slot).map (code indent))) (fun _ loops => ("", loops)) hr loops 0
  rw [expression_eq, hk, texts, ht]
  exact ⟨rfl, rfl⟩

theorem performs_gather (indent depth loops : Nat) {b : Block} {k : Kind} (hk : b.kind? = some k)
    (hv : ∀ slot c, b.input? slot = some c → c.WalkedAsListed)
    (hs : ∀ slot c, c ∈ b.statement slot → c.WalkedAsListed) :
    Performs (k.gather b (b.slots Table.builtin)) indent depth loops
      (b.requests.flatMap (Request.actions b depth) ++ b.ownActions) (b.texts indent loops).1
      (b.texts indent loops).2 := by
  have huse : b.pinUse? = k.pinUse? (k.word b) := by simp [Block.pinUse?, hk]
  have hneeds : b.ownNeeds = k.needs (k.word b) := by simp [Block.ownNeeds, hk]
  rw [Block.ownActions, huse, hneeds, Kind.gather, ← Block.requests_of_kind hk]
  refine performs_bind (performs_requests hv hs b.requests) (performs_bind (performs_claim b _) ?_)
  have h := performs_bind (g := fun _ => pure (b.texts indent loops).1)
    (performs_contributeAll (k.needs (k.word b)) indent depth (b.texts indent loops).2)
    (performs_pure _)
  rwa [List.append_nil] at h

/-- the part of the walk that expressions and statements share: the fault is found, or the generator of the kind runs -/
theorem performs_generator {α : Type} {b : Block} {shape : Shape} {x : Gen α} {a : α}
    (hv : ∀ slot c, b.input? slot = some c → c.WalkedAsListed)
    (hs : ∀ slot c, c ∈ b.statement slot → c.WalkedAsListed)
    (hunknown : b.kind? = none → x = Gen.fail (.unknownBlockType b.kind))
    (hshape : ∀ k, b.kind? = some k → k.shape ≠ shape → x = Gen.fail (.wrongBlockShape b.kind shape))
    (hkind : ∀ k, b.kind? = some k → k.shape = shape → ∃ f : List String → α,
      (x = do return f (← k.prepare b (b.slots Table.builtin))) ∧
        b.texts indent loops = ((b.texts indent loops).1, loops') ∧ f (b.texts indent loops).1 = a) :
    Performs (Gen.blaming b (Gen.descend x)) indent depth loops
      (match b.refusal? shape (depth + 1) with
        | some fault => [fail b fault]
        | none => b.requests.flatMap (Request.actions b (depth + 1)) ++ b.ownActions) a loops' := by
  by_cases hdeep : Pass.maxDepth < depth + 1
  · rw [Block.refusal?, if_pos hdeep]
    exact performs_too_deep b x a (by omega)
  have hd : depth < Pass.maxDepth := by omega
  rw [Block.refusal?, if_neg hdeep]
  cases hk : b.kind? with
  | none =>
    rw [hunknown hk]
    exact performs_fail b _ a hd
  | some k =>
    by_cases hks : k.shape = shape
    · obtain ⟨f, hx, hl, ha⟩ := hkind k hk hks
      simp only [if_pos hks]
      rw [hx, Kind.prepare]
      cases k.fault? b with
      | some fault => exact performs_fail b fault a hd
      | none =>
        have hg := performs_gather indent (depth + 1) loops hk hv hs
        rw [hl] at hg
        rw [← ha]
        exact performs_blaming b (performs_descend hd (performs_map f hg))
    · simp only [if_neg hks]
      rw [hshape k hk hks]
      exact performs_fail b _ a hd

theorem builtin_get?_of_kind {b : Block} {k : Kind} (h : b.kind? = some k) :
    Table.builtin.get? b.kind = some k.generator := by
  rw [Kind.builtin_get?, show Kind.ofName? b.kind = some k from h]
  rfl

theorem builtin_get?_of_unknown {b : Block} (h : b.kind? = none) : Table.builtin.get? b.kind = none := by
  rw [Kind.builtin_get?, show Kind.ofName? b.kind = none from h]
  rfl

theorem performs_value {b : Block} (hv : ∀ slot c, b.input? slot = some c → c.WalkedAsListed)
    (hs : ∀ slot c, c ∈ b.statement slot → c.WalkedAsListed) :
    Performs (valueCode Table.builtin b) indent depth loops (b.actions .value (depth + 1)) b.expression loops := by
  rw [valueCode_eq, Block.actions_eq]
  refine performs_generator hv hs ?_ ?_ ?_
  · intro hk
    rw [builtin_get?_of_unknown hk]
  · intro k hk hshape
    have hstatement : k.shape = .statement := by cases hs : k.shape with
      | value => exact absurd hs hshape
      | statement => rfl
    rw [builtin_get?_of_kind hk, Kind.generator_statement k hstatement]
  · intro k hk hshape
    obtain ⟨he, hl⟩ := Block.expression_of_kind hk hshape indent loops
    refine ⟨k.expression b (k.word b), ?_, Prod.ext rfl hl, he.symm⟩
    rw [builtin_get?_of_kind hk, Kind.generator_value k hshape]

theorem performs_statement {b : Block} (hv : ∀ slot c, b.input? slot = some c → c.WalkedAsListed)
    (hs : ∀ slot c, c ∈ b.statement slot → c.WalkedAsListed) :
    Performs (statementCode Table.builtin b) indent depth loops (b.actions .statement (depth + 1))
      (b.code indent loops).1 (b.code indent loops).2 := by
  rw [statementCode_eq, Block.actions_eq, Block.code_eq]
  have hnote : Performs (note (.statement b.id b.kind)).perform indent depth loops (b.opening .statement) () loops :=
    performs_perform fun p q h hp => by cases h; exact hp
  refine performs_bind hnote ?_
  have hcode : (b.kind?.elim "" fun k => endLine (k.sentence b (k.word b) (b.texts indent loops).1)) =
      endLine (b.kind?.elim "" fun k => k.sentence b (k.word b) (b.texts indent loops).1) := by
    cases b.kind? with
    | none => rfl
    | some k => rfl
  rw [hcode]
  refine performs_map endLine (performs_generator hv hs ?_ ?_ ?_)
  · intro hk
    rw [builtin_get?_of_unknown hk]
  · intro k hk hshape
    have hvalue : k.shape = .value := by cases hs : k.shape with
      | value => rfl
      | statement => exact absurd hs hshape
    rw [builtin_get?_of_kind hk, Kind.generator_value k hvalue]
  · intro k hk hshape
    refine ⟨k.sentence b (k.word b), ?_, rfl, by rw [hk]; rfl⟩
    rw [builtin_get?_of_kind hk, Kind.generator_statement k hshape]

theorem Block.walkedAsListed (b : Block) : b.WalkedAsListed :=
  Block.induct (P := WalkedAsListed) (fun _ hv hs _ _ _ => ⟨performs_value hv hs, performs_statement hv hs⟩) b

/-- walking an expression does what is listed for it and gives its text -/
theorem valueCode_performs (b : Block) (indent depth loops : Nat) :
    Performs (valueCode Table.builtin b) indent depth loops (b.actions .value (depth + 1)) b.expression loops :=
  (b.walkedAsListed indent depth loops).1

/-- walking a chain does what is listed for it and gives its text -/
theorem chainCode_performs (chain : List Block) (indent depth loops : Nat) :
    Performs (chainCode Table.builtin chain) indent depth loops (chainActions chain (depth + 1))
      (chainCodeText indent chain loops).1 (chainCodeText indent chain loops).2 :=
  performs_chain fun b _ => b.walkedAsListed

theorem statementCode_performs (b : Block) (indent depth loops : Nat) :
    Performs (statementCode Table.builtin b) indent depth loops (b.actions .statement (depth + 1))
      (b.code indent loops).1 (b.code indent loops).2 :=
  (b.walkedAsListed indent depth loops).2

/-! ## Statements end in a newline -/

theorem endLine_newline (s : String) : endLine (s ++ "\n") = s ++ "\n" := by
  have hlast : (s ++ "\n").toList.getLast? = some '\n' := by simp [String.toList_append]
  simp [endLine]

theorem append_newline {ending rest : String} (h : ending = rest ++ "\n") (s : String) :
    ∃ t, s ++ ending = t ++ "\n" :=
  ⟨s ++ rest, by rw [h, String.append_assoc]⟩

theorem Kind.sentence_newline {k : Kind} (hs : k.shape = .statement) (b : Block) (word : String) (texts : List String) :
    ∃ s, k.sentence b word texts = s ++ "\n" := by
  have hcall : ");\n" = ");" ++ "\n" := by decide
  have hquote : "\");\n" = "\");" ++ "\n" := by decide
  cases k with
  | servoWrite => exact append_newline hcall _
  | ledColor => exact append_newline hquote _
  | digitalWrite => exact append_newline hcall _
  | analogWrite => exact append_newline hcall _
  | timeDelay => exact append_newline hcall _
  | serialPrint => exact append_newline hcall _
  | controlsIf => exact ⟨_, rfl⟩
  | controlsRepeat => exact ⟨_, rfl⟩
  | _ => cases hs

theorem Block.code_of_kind {b : Block} {k : Kind} (hk : b.kind? = some k) (hs : k.shape = .statement)
    (indent loops : Nat) :
    (b.code indent loops).1 = k.sentence b (k.word b) (b.texts indent loops).1 := by
  obtain ⟨s, hsentence⟩ := Kind.sentence_newline hs b (k.word b) (b.texts indent loops).1
  have hcode : (b.code indent loops).1 = endLine (k.sentence b (k.word b) (b.texts indent loops).1) := by
    rw [code_eq, hk]
    rfl
  rw [hcode, hsentence, endLine_newline]

theorem Block.code_ne_empty {b : Block} {k : Kind} (hk : b.kind? = some k) (hs : k.shape = .statement)
    (indent loops : Nat) : (b.code indent loops).1 ≠ "" := by
  obtain ⟨s, hsentence⟩ := Kind.sentence_newline hs b (k.word b) (b.texts indent loops).1
  rw [code_of_kind hk hs, hsentence]
  simp

/-! ## What an admissible walk shows -/

namespace Block

/-- a block is let through where it stands if it is not too deep, of the right shape, and its own field is right -/
theorem refusal?_eq_none_iff {b : Block} {shape : Shape} {level : Nat} :
    b.refusal? shape level = none ↔
      level ≤ Pass.maxDepth ∧ ∃ k, b.kind? = some k ∧ k.shape = shape ∧ k.fault? b = none := by
  unfold refusal?
  by_cases hdeep : Pass.maxDepth < level
  · rw [if_pos hdeep]
    constructor
    · intro h; cases h
    · rintro ⟨hle, -⟩; omega
  · rw [if_neg hdeep]
    cases b.kind? with
    | none => simp
    | some k =>
      by_cases hs : k.shape = shape
      · simp [hs, Nat.le_of_not_lt hdeep]
      · simp [hs]

variable {b : Block} {shape : Shape} {level : Nat} {board : Board}

theorem refusal?_of_admissible (h : ∀ action ∈ b.actions shape level, action.Admissible board) :
    b.refusal? shape level = none := by
  cases hr : b.refusal? shape level with
  | none => rfl
  | some fault =>
    have hmem : fail b fault ∈ b.actions shape level := by simp [actions_eq, hr]
    exact (h _ hmem).elim

/-- the actions of a block that is let through -/
theorem mem_actions (hr : b.refusal? shape level = none) {action : Action} :
    action ∈ b.actions shape level ↔
      action ∈ b.opening shape ∨ (∃ request ∈ b.requests, action ∈ request.actions b level) ∨ action ∈ b.ownActions := by
  rw [actions_eq, hr]
  simp only [List.mem_append, List.mem_flatMap]

theorem admissible_input (h : ∀ action ∈ b.actions shape level, action.Admissible board) {slot : String}
    {required : Order} {default : String} (hreq : .value slot required default ∈ b.requests) {c : Block}
    (hc : b.input? slot = some c) : ∀ action ∈ c.actions .value (level + 1), action.Admissible board := by
  intro action ha
  refine h action ((mem_actions (refusal?_of_admissible h)).2 (.inr (.inl ⟨_, hreq, ?_⟩)))
  simp only [Request.actions, hc]
  exact ha

theorem supports_of_admissible (h : ∀ action ∈ b.actions shape level, action.Admissible board) {use : PinUse}
    (hu : b.pinUse? = some use) : board.supports use.pin use.role = true := by
  have hmem : claim b use ∈ b.actions shape level := by
    refine (mem_actions (refusal?_of_admissible h)).2 (.inr (.inr ?_))
    simp [ownActions, hu]
  exact h _ hmem

end Block

/-! ## Whole programs -/

/-- the statements of the setup chain as one piece of boilerplate -/
def userSetup (code : String) : Need := ⟨.setup, "user_setup", code, false⟩

namespace Program

def setupText (program : Program) (indent : Nat) : String := (chainCodeText indent program.setup 0).1

/-- the text of the main chain, whose loops are counted on from the setup chain -/
def mainText (program : Program) (indent : Nat) : String :=
  (chainCodeText indent program.main (chainCodeText indent program.setup 0).2).1

/-- what a run contributes between the two chains -/
def setupNeeds (program : Program) (indent : Nat) : List Need :=
  if (program.setupText indent).isEmpty then [] else [userSetup (program.setupText indent)]

/-- everything a run does before the sketch is laid out -/
def actions (program : Program) (board : Board) (indent : Nat) : List Action :=
  note (.passStarted board.name) ::
    (chainActions program.setup 1 ++ ((program.setupNeeds indent).map contribute ++ chainActions program.main 1))

def start (program : Program) (board : Board) (indent : Nat) : Pass := { board, indent, sourceId := program.sourceId }

end Program

/-- the walk of a run: both chains, with the setup statements contributed in between -/
def walkProgram (program : Program) (board : Board) : Gen String := do
  (note (.passStarted board.name)).perform
  let setup ← chainCode Table.builtin program.setup
  Need.contributeAll (if setup.isEmpty then [] else [userSetup setup])
  chainCode Table.builtin program.main

/-- a run is its walk and then the layout, from whatever state it starts -/
theorem runProgram_eq_walk (program : Program) (p : Pass) :
    runProgram Table.builtin program p =
      (walkProgram program p.board >>= Gen.finish) { p with sourceId := program.sourceId } := by
  have hwalk : walkProgram program p.board >>= Gen.finish = (do
      Gen.note (.passStarted p.board.name)
      let setup ← chainCode Table.builtin program.setup
      if !setup.isEmpty then Gen.addSetup "user_setup" setup false
      let main ← chainCode Table.builtin program.main
      Gen.finish main) := by
    unfold walkProgram
    simp only [bind_assoc]
    refine bind_congr fun _ => bind_congr fun setup => ?_
    cases setup.isEmpty with
    | true => rfl
    | false => rfl
  rw [hwalk]
  rfl

theorem walkProgram_performs (program : Program) (board : Board) (indent : Nat) :
    Performs (walkProgram program board) indent 0 0 (program.actions board indent) (program.mainText indent)
      (chainCodeText indent program.main (chainCodeText indent program.setup 0).2).2 := by
  have hnote : Performs (note (.passStarted board.name)).perform indent 0 0 [note (.passStarted board.name)] () 0 :=
    performs_perform fun p q h hp => by cases h; exact hp
  have hsetup := chainCode_performs program.setup indent 0 0
  have huser := performs_contributeAll (program.setupNeeds indent) indent 0 (chainCodeText indent program.setup 0).2
  have hmain := chainCode_performs program.main indent 0 (chainCodeText indent program.setup 0).2
  exact performs_bind hnote (performs_bind hsetup (performs_bind huser hmain))

/-- a run does what is listed for the program and then lays out the sketch around the text of the main chain -/
theorem runProgram_eq (program : Program) (board : Board) (indent : Nat) :
    runProgram Table.builtin program { board, indent } =
      match performAll (program.actions board indent) (program.start board indent) with
      | .ok _ q => Gen.finish (program.mainText indent) q
      | .error e q => .error e q := by
  have h := walkProgram_performs program board indent (program.start board indent) ⟨rfl, rfl, rfl⟩
  rw [runProgram_eq_walk]
  show EStateM.bind _ _ (program.start board indent) = _
  cases hact : performAll (program.actions board indent) (program.start board indent) with
  | ok u q => rw [hact] at h; simp only [EStateM.bind, h.1]
  | error e q => rw [hact] at h; simp only [EStateM.bind, h]

end BlockSketch
