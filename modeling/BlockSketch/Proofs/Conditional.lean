/-
The rounds of a conditional.

A conditional goes through its branches in rounds, from branch 0 on. A round asks for the condition in `IFn` and then for
the statements in `DOn`; after it the conditional goes on if one of the two slots of the next branch is there, and is done
otherwise. `Rounds` says just that: it sets no limit to the number of rounds, and an endless conditional would have no
rounds at all. That there is an end comes from the names of the slots. Different branches have different names, so the
branches cannot outnumber the slots.

Results:
- `branchCount_isLeast`, `branchCount_le`: the number of branches is the first number from 1 on without a branch, and there
  is at most one branch more than slots;
- `rounds_end`: from every state the rounds come to an end;
- `Rounds.length_le`: there is one round for each branch, and fewer exactly if a slot fails;
- `Rounds.run`: what the generator does with its branches is what the rounds do;
- `conditional_follows_rounds`: the code of a conditional, and how it fails, told by its rounds.
-/
import BlockSketch.Proofs.Success
import Mathlib.Order.Bounds.Basic

namespace BlockSketch

/-! ## What a slot gives -/

/-- a slot of a conditional gives a text: a condition stands as it is and is false if there is none, statements are
indented by one level and are nothing if there are none -/
inductive Gives (b : Block) (table : Table) : Slot → Pass → String → Pass → Prop where
  | condition {name : String} {c : Block} {p q : Pass} {code : OrderedCode} (hinput : b.input? name = some c)
      (hcode : valueCode table c p = .ok code q) : Gives b table ⟨.value, name⟩ p code.text q
  | noCondition {name : String} {p : Pass} (hinput : b.input? name = none) : Gives b table ⟨.value, name⟩ p "false" p
  | statements {name : String} {chain : List Block} {p q : Pass} {code : String}
      (hchain : b.statements.lookup name = some chain) (hcode : chainCode table chain p = .ok code q) :
      Gives b table ⟨.statement, name⟩ p (Text.indentLines q.indent code) q
  | noStatements {name : String} {p : Pass} (hchain : b.statements.lookup name = none) :
      Gives b table ⟨.statement, name⟩ p "" p

/-- a slot of a conditional fails: the blocks in it do -/
inductive Fails (b : Block) (table : Table) : Slot → Pass → Failure → Pass → Prop where
  | condition {name : String} {c : Block} {p q : Pass} {e : Failure} (hinput : b.input? name = some c)
      (hcode : valueCode table c p = .error e q) : Fails b table ⟨.value, name⟩ p e q
  | statements {name : String} {chain : List Block} {p q : Pass} {e : Failure}
      (hchain : b.statements.lookup name = some chain) (hcode : chainCode table chain p = .error e q) :
      Fails b table ⟨.statement, name⟩ p e q

def conditionSlot (n : Nat) : Slot := ⟨.value, "IF" ++ toString n⟩

def bodySlot (n : Nat) : Slot := ⟨.statement, "DO" ++ toString n⟩

def elseSlot : Slot := ⟨.statement, "ELSE"⟩

/-- the step with which a conditional asks for a slot -/
def Slot.ask (slots : Slots) (slot : Slot) : Gen String :=
  match slot.shape with
  | .value => slots.valueOr slot.name .lowest "false"
  | .statement => slots.body slot.name

theorem OrderedCode.embed_lowest (code : OrderedCode) : code.embed .lowest = code.text := by
  obtain ⟨text, order⟩ := code
  cases order <;> rfl

namespace Gen

variable {α β : Type} {x : Gen α} {f : α → Gen β} {p q : Pass}

theorem bind_of_ok {a : α} (h : x p = .ok a q) : (x >>= f) p = f a q := by
  simp only [bind, EStateM.bind, h]

theorem bind_of_error {e : Failure} (h : x p = .error e q) : (x >>= f) p = .error e q := by
  simp only [bind, EStateM.bind, h]

end Gen

section Slots

variable {b : Block} {table : Table} {slot : Slot} {p q : Pass}

theorem Gives.ask {text : String} (h : Gives b table slot p text q) : slot.ask (b.slots table) p = .ok text q := by
  cases h with
  | condition hinput hcode =>
    simp only [Slot.ask, Slots.valueOr, Block.slots, hinput, Option.map_some]
    rw [Gen.bind_of_ok hcode, OrderedCode.embed_lowest]
    rfl
  | noCondition hinput =>
    simp only [Slot.ask, Slots.valueOr, Block.slots, hinput, Option.map_none]
    rfl
  | statements hchain hcode =>
    simp only [Slot.ask, Slots.body, Block.slots, Block.statement, hchain, Option.getD_some]
    rw [Gen.bind_of_ok hcode]
    rfl
  | noStatements hchain =>
    simp only [Slot.ask, Slots.body, Block.slots, Block.statement, hchain, Option.getD_none, chainCode]
    rfl

theorem Fails.ask {e : Failure} (h : Fails b table slot p e q) : slot.ask (b.slots table) p = .error e q := by
  cases h with
  | condition hinput hcode =>
    simp only [Slot.ask, Slots.valueOr, Block.slots, hinput, Option.map_some]
    rw [Gen.bind_of_error hcode]
  | statements hchain hcode =>
    simp only [Slot.ask, Slots.body, Block.slots, Block.statement, hchain, Option.getD_some]
    rw [Gen.bind_of_error hcode]

theorem gives_or_fails (b : Block) (table : Table) (slot : Slot) (p : Pass) :
    (∃ text q, Gives b table slot p text q) ∨ ∃ e q, Fails b table slot p e q := by
  obtain ⟨shape, name⟩ := slot
  cases shape with
  | value =>
    cases hinput : b.input? name with
    | none => exact .inl ⟨_, _, .noCondition hinput⟩
    | some c =>
      cases hcode : valueCode table c p with
      | ok code q => exact .inl ⟨_, _, .condition hinput hcode⟩
      | error e q => exact .inr ⟨_, _, .condition hinput hcode⟩
  | statement =>
    cases hchain : b.statements.lookup name with
    | none => exact .inl ⟨_, _, .noStatements hchain⟩
    | some chain =>
      cases hcode : chainCode table chain p with
      | ok code q => exact .inl ⟨_, _, .statements hchain hcode⟩
      | error e q => exact .inr ⟨_, _, .statements hchain hcode⟩

end Slots

/-! ## Rounds -/

/-- neither of the two slots of branch n is there -/
def Block.LacksBranch (b : Block) (n : Nat) : Prop :=
  b.input? ("IF" ++ toString n) = none ∧ b.statements.lookup ("DO" ++ toString n) = none

/-- the rounds of a conditional from branch n on: the condition and the statements of each round that was completed, and
the failure that ended them, if it was one -/
inductive Rounds (b : Block) (table : Table) :
    Nat → Pass → List (String × String) → Option Failure → Pass → Prop where
  | conditionFails {n : Nat} {p q : Pass} {e : Failure} (hcondition : Fails b table (conditionSlot n) p e q) :
      Rounds b table n p [] (some e) q
  | bodyFails {n : Nat} {p q r : Pass} {condition : String} {e : Failure}
      (hcondition : Gives b table (conditionSlot n) p condition q) (hbody : Fails b table (bodySlot n) q e r) :
      Rounds b table n p [] (some e) r
  | last {n : Nat} {p q r : Pass} {condition body : String}
      (hcondition : Gives b table (conditionSlot n) p condition q) (hbody : Gives b table (bodySlot n) q body r)
      (hnext : b.LacksBranch (n + 1)) : Rounds b table n p [(condition, body)] none r
  | next {n : Nat} {p q r s : Pass} {condition body : String} {done : List (String × String)}
      {failure : Option Failure} (hcondition : Gives b table (conditionSlot n) p condition q)
      (hbody : Gives b table (bodySlot n) q body r) (hnext : ¬ b.LacksBranch (n + 1))
      (hrest : Rounds b table (n + 1) r done failure s) : Rounds b table n p ((condition, body) :: done) failure s

/-! ## The number of branches -/

section Count

variable {b : Block} {n : Nat}

theorem Block.hasBranch_eq_false_iff : Library.hasBranch b n = false ↔ b.LacksBranch n := by
  simp [Library.hasBranch, Block.hasStatement, Block.LacksBranch]

theorem branchCount_pos (b : Block) : 0 < Library.branchCount b := by
  rw [lt_branchCount_iff]
  intro m hm hm'
  omega

theorem branchCount_le (b : Block) : Library.branchCount b ≤ b.inputs.length + b.statements.length + 1 := by
  have hle := (List.takeWhile_prefix (Library.hasBranch b)
    (l := List.range' 1 (b.inputs.length + b.statements.length))).length_le
  rw [List.length_range'] at hle
  rw [Library.branchCount]
  omega

theorem succ_lt_branchCount (hn : n < Library.branchCount b) (hnext : ¬ b.LacksBranch (n + 1)) :
    n + 1 < Library.branchCount b := by
  rw [lt_branchCount_iff] at hn ⊢
  intro m hm hm'
  rcases Nat.lt_or_eq_of_le hm' with hlt | rfl
  · exact hn m hm (by omega)
  · rw [← Block.hasBranch_eq_false_iff] at hnext
    simpa using hnext

theorem branchCount_eq_succ (hn : n < Library.branchCount b) (hnext : b.LacksBranch (n + 1)) :
    Library.branchCount b = n + 1 := by
  have hnot : ¬ n + 1 < Library.branchCount b := by
    rw [lt_branchCount_iff]
    intro hall
    have hthere := hall (n + 1) (by omega) (Nat.le_refl _)
    rw [Block.hasBranch_eq_false_iff.2 hnext] at hthere
    cases hthere
  omega

/-- the branches end at the first number from 1 on that has neither slot -/
theorem branchCount_isLeast (b : Block) : IsLeast {n | 1 ≤ n ∧ b.LacksBranch n} (Library.branchCount b) := by
  constructor
  · refine ⟨branchCount_pos b, ?_⟩
    by_contra hlacks
    obtain ⟨n, hn⟩ : ∃ n, Library.branchCount b = n + 1 := ⟨_, (Nat.succ_pred_eq_of_pos (branchCount_pos b)).symm⟩
    rw [hn] at hlacks
    have hlt := succ_lt_branchCount (by omega) hlacks
    omega
  · rintro n ⟨hn, hlacks⟩
    by_contra hlt
    have hthere := lt_branchCount_iff.1 (Nat.lt_of_not_le hlt) n hn (Nat.le_refl n)
    rw [Block.hasBranch_eq_false_iff.2 hlacks] at hthere
    cases hthere

-- a name that only looks like that of branch 1 does not count, and branch 3 stands after a gap
example : Library.branchCount ⟨"a", "controls_if", [], [("IF01", ⟨"b", "text", [], [], [], ⟨0, 0⟩⟩),
    ("IF3", ⟨"c", "text", [], [], [], ⟨0, 0⟩⟩)], [("DO1", [])], ⟨0, 0⟩⟩ = 2 := by decide

end Count

/-! ## The end of the rounds -/

section Run

variable {b : Block} {table : Table} {n : Nat} {p q r : Pass} {done : List (String × String)}
  {failure : Option Failure}

/-- **The rounds come to an end** from every branch and every state, for each of them leaves fewer branches to go. -/
theorem rounds_end (b : Block) (table : Table) (n : Nat) (hn : n < Library.branchCount b) (p : Pass) :
    ∃ done failure q, Rounds b table n p done failure q := by
  rcases gives_or_fails b table (conditionSlot n) p with ⟨condition, q, hcondition⟩ | ⟨e, q, hcondition⟩
  · rcases gives_or_fails b table (bodySlot n) q with ⟨body, r, hbody⟩ | ⟨e, r, hbody⟩
    · by_cases hnext : b.LacksBranch (n + 1)
      · exact ⟨_, _, _, .last hcondition hbody hnext⟩
      · have hlt := succ_lt_branchCount hn hnext
        obtain ⟨done, failure, s, hrest⟩ := rounds_end b table (n + 1) hlt r
        exact ⟨_, _, _, .next hcondition hbody hnext hrest⟩
    · exact ⟨_, _, _, .bodyFails hcondition hbody⟩
  · exact ⟨_, _, _, .conditionFails hcondition⟩
termination_by Library.branchCount b - n

/-- each branch has its round, and fewer rounds are completed exactly if one of them fails -/
theorem Rounds.length_le (h : Rounds b table n p done failure q) (hn : n < Library.branchCount b) :
    n + done.length ≤ Library.branchCount b ∧ (n + done.length = Library.branchCount b ↔ failure = none) := by
  induction h with
  | conditionFails _ =>
    simp only [List.length_nil, reduceCtorEq, iff_false]
    omega
  | bodyFails _ _ =>
    simp only [List.length_nil, reduceCtorEq, iff_false]
    omega
  | last _ _ hnext => simp [branchCount_eq_succ hn hnext]
  | next _ _ hnext _ ih =>
    have hrest := ih (succ_lt_branchCount hn hnext)
    rw [List.length_cons, ← Nat.add_assoc, Nat.add_right_comm]
    exact hrest

def branchText (branch : String × String) : String := "if (" ++ branch.1 ++ ") \x7b\n" ++ branch.2 ++ "\x7d"

theorem branchText_eq (condition body : String) :
    "if (" ++ condition ++ ") " ++ Library.braced body = branchText (condition, body) := by
  have hopen : ") " ++ "\x7b\n" = ") \x7b\n" := by decide
  simp only [Library.braced, branchText, ← hopen, String.append_assoc]

theorem branch_eq_ask (slots : Slots) (n : Nat) :
    Library.branch slots n = do
      let condition ← (conditionSlot n).ask slots
      let body ← (bodySlot n).ask slots
      return branchText (condition, body) := by
  simp only [Library.branch, branchText_eq]
  rfl

/-- one round -/
theorem branch_of_gives {condition body : String} (hcondition : Gives b table (conditionSlot n) p condition q)
    (hbody : Gives b table (bodySlot n) q body r) :
    Library.branch (b.slots table) n p = .ok (branchText (condition, body)) r := by
  rw [branch_eq_ask, Gen.bind_of_ok hcondition.ask, Gen.bind_of_ok hbody.ask]
  rfl

theorem branches_of_error {e : Failure} (hn : n < Library.branchCount b)
    (hround : Library.branch (b.slots table) n p = .error e q) :
    (List.range' n (Library.branchCount b - n)).mapM (Library.branch (b.slots table)) p = .error e q := by
  have hleft : Library.branchCount b - n = Library.branchCount b - (n + 1) + 1 := by omega
  rw [hleft, List.range'_succ, List.mapM_cons, Gen.bind_of_error hround]

/-- **What the generator does** with its branches from one of them on is what the rounds do. -/
theorem Rounds.run (h : Rounds b table n p done failure q) (hn : n < Library.branchCount b) :
    (List.range' n (Library.branchCount b - n)).mapM (Library.branch (b.slots table)) p =
      failure.elim (.ok (done.map branchText) q) (.error · q) := by
  induction h with
  | conditionFails hcondition =>
    apply branches_of_error hn
    rw [branch_eq_ask, Gen.bind_of_error hcondition.ask]
  | bodyFails hcondition hbody =>
    apply branches_of_error hn
    rw [branch_eq_ask, Gen.bind_of_ok hcondition.ask, Gen.bind_of_error hbody.ask]
  | @last n p q r condition body hcondition hbody hnext =>
    have hone : Library.branchCount b - n = 1 := by
      rw [branchCount_eq_succ hn hnext]
      omega
    rw [hone, List.range'_one, List.mapM_cons, Gen.bind_of_ok (branch_of_gives hcondition hbody), List.mapM_nil]
    rfl
  | @next n p q r s condition body done failure hcondition hbody hnext _ ih =>
    have hlt := succ_lt_branchCount hn hnext
    have hleft : Library.branchCount b - n = Library.branchCount b - (n + 1) + 1 := by omega
    rw [hleft, List.range'_succ, List.mapM_cons, Gen.bind_of_ok (branch_of_gives hcondition hbody)]
    cases failure with
    | none =>
      rw [Gen.bind_of_ok (ih hlt)]
      rfl
    | some e =>
      rw [Gen.bind_of_error (ih hlt)]
      rfl

end Run

/-! ## The code of a conditional -/

/-- what happens otherwise: the text in its slot, if the slot is there -/
inductive Otherwise (b : Block) (table : Table) : Pass → Option String → Pass → Prop where
  | absent {p : Pass} (hslot : b.hasStatement "ELSE" = false) : Otherwise b table p none p
  | present {p q : Pass} {body : String} (hslot : b.hasStatement "ELSE" = true)
      (hbody : Gives b table elseSlot p body q) : Otherwise b table p (some body) q

/-- what is written after the first branch -/
def furtherText : List (String × String) → Option String → String
  | [], none => "\n"
  | [], some body => " else \x7b\n" ++ body ++ "\x7d\n"
  | (condition, body) :: rest, otherwise =>
    " else if (" ++ condition ++ ") \x7b\n" ++ body ++ "\x7d" ++ furtherText rest otherwise

theorem furtherText_some (body : String) : furtherText [] (some body) = " else " ++ (Library.braced body ++ "\n") := by
  have hopen : " else " ++ "\x7b\n" = " else \x7b\n" := by decide
  have hclose : "\x7d" ++ "\n" = "\x7d\n" := by decide
  simp only [furtherText, Library.braced, ← hopen, ← hclose, String.append_assoc]

theorem furtherText_cons (second : String × String) (rest : List (String × String)) (otherwise : Option String) :
    furtherText (second :: rest) otherwise = " else " ++ (branchText second ++ furtherText rest otherwise) := by
  have hopen : " else " ++ "if (" = " else if (" := by decide
  simp only [furtherText, branchText, ← hopen, String.append_assoc]

theorem intercalate_branches (first : String × String) (rest : List (String × String)) (otherwise : Option String) :
    " else ".intercalate ((first :: rest).map branchText ++ otherwise.toList.map Library.braced) ++ "\n" =
      branchText first ++ furtherText rest otherwise := by
  induction rest generalizing first with
  | nil =>
    cases otherwise with
    | none => simp [furtherText]
    | some body =>
      rw [furtherText_some]
      simp [String.append_assoc]
  | cons second rest ih =>
    have hjoin := ih second
    simp only [List.map_cons, List.cons_append] at hjoin ⊢
    rw [String.intercalate_cons_cons, furtherText_cons, ← hjoin]
    simp only [String.append_assoc]

section Code

variable {b : Block} {table : Table} {p q r : Pass} {done : List (String × String)} {e : Failure}

theorem otherwise_or_fails (b : Block) (table : Table) (p : Pass) :
    (∃ otherwise q, Otherwise b table p otherwise q) ∨ ∃ e q, Fails b table elseSlot p e q := by
  cases hslot : b.hasStatement "ELSE" with
  | false => exact .inl ⟨_, _, .absent hslot⟩
  | true =>
    rcases gives_or_fails b table elseSlot p with ⟨body, q, hbody⟩ | ⟨e, q, hbody⟩
    · exact .inl ⟨_, _, .present hslot hbody⟩
    · exact .inr ⟨e, q, hbody⟩

theorem Fails.hasStatement {name : String} (h : Fails b table ⟨.statement, name⟩ p e q) :
    b.hasStatement name = true := by
  cases h with
  | statements hchain _ => simp [Block.hasStatement, hchain]

theorem Rounds.runAll {failure : Option Failure} (h : Rounds b table 0 p done failure q) :
    (List.range (Library.branchCount b)).mapM (Library.branch (b.slots table)) p =
      failure.elim (.ok (done.map branchText) q) (.error · q) := by
  rw [List.range_eq_range']
  exact h.run (branchCount_pos b)

theorem Rounds.code {first : String × String} {rest : List (String × String)} {otherwise : Option String}
    (h : Rounds b table 0 p (first :: rest) none r) (hotherwise : Otherwise b table r otherwise q) :
    Library.controlsIf b (b.slots table) p = .ok (branchText first ++ furtherText rest otherwise) q := by
  rw [Library.controlsIf, Gen.bind_of_ok h.runAll, ← intercalate_branches]
  cases hotherwise with
  | absent hslot =>
    simp only [hslot]
    rfl
  | present hslot hbody =>
    have hask : (b.slots table).body "ELSE" r = .ok _ q := hbody.ask
    simp only [hslot, if_true, pure_bind]
    rw [Gen.bind_of_ok hask]
    rfl

theorem Rounds.code_error (h : Rounds b table 0 p done (some e) q) :
    Library.controlsIf b (b.slots table) p = .error e q := by
  rw [Library.controlsIf, Gen.bind_of_error h.runAll]

theorem Rounds.code_error_else (h : Rounds b table 0 p done none r) (helse : Fails b table elseSlot r e q) :
    Library.controlsIf b (b.slots table) p = .error e q := by
  have hask : (b.slots table).body "ELSE" r = .error e q := helse.ask
  rw [Library.controlsIf, Gen.bind_of_ok h.runAll]
  simp only [helse.hasStatement, if_true]
  rw [Gen.bind_of_error hask]

/-- from every state a conditional gives its code, or fails in a round, or fails in what happens otherwise -/
theorem conditional_cases (b : Block) (table : Table) (p : Pass) :
    (∃ first rest otherwise r q, Rounds b table 0 p (first :: rest) none r ∧ Otherwise b table r otherwise q ∧
        Library.controlsIf b (b.slots table) p = .ok (branchText first ++ furtherText rest otherwise) q) ∨
      ∃ e q, ((∃ done, Rounds b table 0 p done (some e) q) ∨
          ∃ done r, Rounds b table 0 p done none r ∧ Fails b table elseSlot r e q) ∧
        Library.controlsIf b (b.slots table) p = .error e q := by
  obtain ⟨done, failure, r, hrounds⟩ := rounds_end b table 0 (branchCount_pos b) p
  cases failure with
  | some e => exact .inr ⟨e, r, .inl ⟨done, hrounds⟩, hrounds.code_error⟩
  | none =>
    rcases otherwise_or_fails b table r with ⟨otherwise, q, hotherwise⟩ | ⟨e, q, helse⟩
    · cases done with
      | nil => cases hrounds
      | cons first rest => exact .inl ⟨first, rest, otherwise, r, q, hrounds, hotherwise, hrounds.code hotherwise⟩
    · exact .inr ⟨e, q, .inr ⟨done, r, hrounds, helse⟩, hrounds.code_error_else helse⟩

end Code

/-- **A conditional follows its rounds.** There is a first number `k` from 1 on that has neither of the two slots of a
branch, and it is at most one more than the slots. From every state the rounds of the conditional come to an end: after
`k` of them, or before that because a slot fails. The conditional gives code exactly if no slot fails; its code is then
the first branch, the other branches in order behind `else`, and at last what happens otherwise if there is a slot for
it. It fails exactly where the first slot fails, the slots being asked in the order of the rounds and `ELSE` at last. -/
theorem conditional_follows_rounds (b : Block) (table : Table) :
    ∃ k, IsLeast {n | 1 ≤ n ∧ b.LacksBranch n} k ∧ k ≤ b.inputs.length + b.statements.length + 1 ∧
      ∀ p : Pass,
        ((∃ done q, Rounds b table 0 p done none q ∧ done.length = k) ∨
          ∃ done e q, Rounds b table 0 p done (some e) q ∧ done.length < k) ∧
        (∀ code q, Library.controlsIf b (b.slots table) p = .ok code q ↔
          ∃ condition body rest otherwise r, Rounds b table 0 p ((condition, body) :: rest) none r ∧
            rest.length + 1 = k ∧ Otherwise b table r otherwise q ∧
            code = "if (" ++ condition ++ ") \x7b\n" ++ body ++ "\x7d" ++ furtherText rest otherwise) ∧
        (∀ e q, Library.controlsIf b (b.slots table) p = .error e q ↔
          (∃ done, Rounds b table 0 p done (some e) q) ∨
            ∃ done r, Rounds b table 0 p done none r ∧ Fails b table elseSlot r e q) := by
  refine ⟨Library.branchCount b, branchCount_isLeast b, branchCount_le b, ?_⟩
  intro p
  have hlength {done : List (String × String)} {failure : Option Failure} {q : Pass}
      (h : Rounds b table 0 p done failure q) :
      done.length ≤ Library.branchCount b ∧ (done.length = Library.branchCount b ↔ failure = none) := by
    have hle := h.length_le (branchCount_pos b)
    rwa [Nat.zero_add] at hle
  refine ⟨?_, ?_, ?_⟩
  · obtain ⟨done, failure, q, hrounds⟩ := rounds_end b table 0 (branchCount_pos b) p
    obtain ⟨hle, heq⟩ := hlength hrounds
    cases failure with
    | none => exact .inl ⟨done, q, hrounds, heq.2 rfl⟩
    | some e =>
      have hne : done.length ≠ Library.branchCount b := fun h => by cases heq.1 h
      exact .inr ⟨done, e, q, hrounds, by omega⟩
  · intro code q
    constructor
    · intro hcode
      rcases conditional_cases b table p with
        ⟨first, rest, otherwise, r, q', hrounds, hotherwise, hok⟩ | ⟨e, q', -, herror⟩
      · rw [hok] at hcode
        cases hcode
        exact ⟨first.1, first.2, rest, otherwise, r, hrounds, (hlength hrounds).2.2 rfl, hotherwise, rfl⟩
      · rw [herror] at hcode
        cases hcode
    · rintro ⟨condition, body, rest, otherwise, r, hrounds, -, hotherwise, rfl⟩
      exact hrounds.code hotherwise
  · intro e q
    constructor
    · intro herror
      rcases conditional_cases b table p with
        ⟨first, rest, otherwise, r, q', -, -, hok⟩ | ⟨e', q', hfails, herror'⟩
      · rw [hok] at herror
        cases herror
      · rw [herror'] at herror
        cases herror
        exact hfails
    · rintro (⟨done, hrounds⟩ | ⟨done, r, hrounds, helse⟩)
      · exact hrounds.code_error
      · exact hrounds.code_error_else helse

end BlockSketch
