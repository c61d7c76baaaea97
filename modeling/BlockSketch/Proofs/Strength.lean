/-
Declared strengths, and the one text that does not live up to its own.

Code comes with the strength with which it binds, and is put without parentheses wherever no more than that is asked for.
`BindsAs o text e` is what the strength promises: the text, read by the grammar of expressions, means the tree and is an
expression of that strength or a tighter one. An atomic text is a literal, a name, a call or an expression in
parentheses; nothing stands in front of it.

The level at which a generated text is read back is known. Within the first two levels it is the root of the tree that
decides: a tree without a sign at its root has a reading without a sign in front.

Results:
- `bindsAs_embed`: code that keeps its promise can be put wherever any strength is asked for;
- `bindsAs_of_settled`: the code of every value block keeps its promise, numbers behind a plus sign excepted;
- `not_bindsAs_of_sign`: a text with a sign in front keeps no promise tighter than `unaryPrefix`;
- `declared_strengths_kept`: what generation declares is kept up to that, and `plus_number_not_atomic`, a case of it.
-/
import BlockSketch.Proofs.ReadBack

namespace BlockSketch

open Scanner

/-! ## What a strength promises -/

/-- the words are a literal, a name, an expression in parentheses or a call -/
inductive DerivesAtom : Expr → List Token → Prop where
  | number (literal : String) : DerivesAtom (.number literal) [.number literal]
  | name (letters : String) : DerivesAtom (.name letters) [.name letters]
  | text (contents : String) : DerivesAtom (.text contents) [.text contents]
  | group {e : Expr} {ts : List Token} (h : Derives (.expression topLevel e) ts) :
    DerivesAtom e (.symbol "(" :: (ts ++ [.symbol ")"]))
  | call {f : Expr} {es : List Expr} {ts us : List Token} (hf : Derives (.expression 0 f) ts)
    (hes : Derives (.arguments es) us) : DerivesAtom (.call f es) (ts ++ .symbol "(" :: (us ++ [.symbol ")"]))

/-- the words are an expression of the strength or of a tighter one -/
def Order.Admits (o : Order) (e : Expr) (ts : List Token) : Prop :=
  match o with
  | .atomic => DerivesAtom e ts
  | .unaryPostfix => Derives (.expression 0 e) ts
  | _ => Derives (.expression o.level e) ts

/-- the text is an expression of the strength or of a tighter one, and means the tree -/
def BindsAs (o : Order) (text : String) (e : Expr) : Prop :=
  ∃ ts e', scan? text.toList = some ts ∧ o.Admits e' ts ∧ Regroups e' e

theorem DerivesAtom.derives {e : Expr} {ts : List Token} (h : DerivesAtom e ts) : Derives (.expression 0 e) ts := by
  cases h with
  | number literal => exact .number literal
  | name letters => exact .name letters
  | text contents => exact .text contents
  | group h => exact .group h
  | call hf hes => exact .call hf hes

/-- from prefix operators on, strengths are levels of the grammar -/
theorem Order.admits_iff_of_prefix {o : Order} (h : Order.unaryPrefix.rank ≤ o.rank) {e : Expr} {ts : List Token} :
    o.Admits e ts ↔ Derives (.expression o.level e) ts := by
  cases o with
  | atomic => exact absurd h (by decide)
  | unaryPostfix => exact absurd h (by decide)
  | _ => exact Iff.rfl

/-- what is tighter than prefix operators is at the first level of the grammar -/
theorem Order.Admits.derives_of_tight {o : Order} {e : Expr} {ts : List Token} (h : o.Admits e ts)
    (ho : o.rank < Order.unaryPrefix.rank) : Derives (.expression 0 e) ts := by
  cases o with
  | atomic => exact DerivesAtom.derives h
  | unaryPostfix => exact h
  | _ => exact absurd ho (by decide)

theorem Order.Admits.derives {o : Order} {e : Expr} {ts : List Token} (h : o.Admits e ts) :
    Derives (.expression o.level e) ts := by
  by_cases ho : Order.unaryPrefix.rank ≤ o.rank
  · exact (Order.admits_iff_of_prefix ho).1 h
  · exact (h.derives_of_tight (Nat.lt_of_not_le ho)).looser_of_le (Nat.zero_le _)

/-- a weaker strength promises less -/
theorem Order.Admits.weaken {o r : Order} {e : Expr} {ts : List Token} (h : o.Admits e ts) (hr : o.rank ≤ r.rank) :
    r.Admits e ts := by
  by_cases hprefix : Order.unaryPrefix.rank ≤ r.rank
  · exact (Order.admits_iff_of_prefix hprefix).2 (h.derives.looser_of_le (Order.level_mono hr))
  · have htight := h.derives_of_tight (Nat.lt_of_le_of_lt hr (Nat.lt_of_not_le hprefix))
    cases r with
    | atomic =>
      have ho : o = .atomic := Order.rank_injective (Nat.le_zero.1 hr)
      subst ho
      exact h
    | unaryPostfix => exact htight
    | _ => exact absurd (by decide) hprefix

theorem scan?_group {cs : List Char} {ts : List Token} (h : scan? cs = some ts) :
    scan? ('(' :: (cs ++ [')'])) = some (.symbol "(" :: (ts ++ [.symbol ")"])) := by
  have hclose : scan? (cs ++ [')']) = some (ts ++ [.symbol ")"]) := scan?_append (by decide) h rfl
  cases hcs : cs ++ [')'] with
  | nil => simp at hcs
  | cons c rest =>
    rw [hcs] at hclose
    exact scan?_symbol rfl (fun h => absurd h (by decide)) rfl hclose

/-- **Code that keeps its promise can be put anywhere**: with or without parentheses it is as strong as required. -/
theorem bindsAs_embed {code : OrderedCode} {e : Expr} (h : BindsAs code.order code.text e) (required : Order) :
    BindsAs required (code.embed required) e := by
  obtain ⟨ts, e', hs, hd, hr⟩ := h
  unfold OrderedCode.embed
  split
  · have hchars : ("(" ++ code.text ++ ")").toList = '(' :: (code.text.toList ++ [')']) := by
      simp [String.toList_append]
    have hatom : DerivesAtom e' (.symbol "(" :: (ts ++ [.symbol ")"])) :=
      .group (hd.derives.looser_of_le (Order.level_le_top _))
    exact ⟨_, e', by rw [hchars, scan?_group hs], Order.Admits.weaken (o := .atomic) hatom (Nat.zero_le _), hr⟩
  · rename_i hweaker
    have hrank : code.order.rank ≤ required.rank := by simpa [Order.bindsWeakerThan] using hweaker
    exact ⟨ts, e', hs, hd.weaken hrank, hr⟩

/-! ## Roots of trees -/

/-- what a tree is at its root -/
inductive Root where
  | leaf
  | member
  | call
  | unary
  | binary
  deriving DecidableEq, Repr

def Expr.root : Expr → Root
  | .number _ | .name _ | .text _ => .leaf
  | .member _ _ => .member
  | .call _ _ => .call
  | .unary _ _ => .unary
  | .binary _ _ _ => .binary

/-- grouping runs in another way leaves the root as it is -/
theorem Regroups.root_eq {x y : Expr} : Regroups x y → x.root = y.root
  | .refl _ => rfl
  | .trans h h' => h.root_eq.trans h'.root_eq
  | .shift _ _ _ _ => rfl
  | .unary _ _ => rfl
  | .binary _ _ _ => rfl
  | .call _ _ => rfl

theorem derives_one_cases {e : Expr} {ts : List Token} (h : Derives (.expression 1 e) ts) :
    e.root = .unary ∨ Derives (.expression 0 e) ts := by
  cases h with
  | unary op h => exact .inl rfl
  | binary op hn hx hy =>
    have hlevel := op.one_lt_level
    omega
  | looser h => exact .inr h

theorem derives_zero_cases {e : Expr} {ts : List Token} (h : Derives (.expression 0 e) ts) :
    e.root = .member ∨ DerivesAtom e ts := by
  cases h with
  | number literal => exact .inr (.number literal)
  | name letters => exact .inr (.name letters)
  | text contents => exact .inr (.text contents)
  | group h => exact .inr (.group h)
  | member field h => exact .inl rfl
  | call hf hes => exact .inr (.call hf hes)

/-- no expression of level 0 starts with a sign or with `!` -/
theorem not_derives_zero_of_sign {op : Unary} {us : List Token} {e : Expr} :
    ¬ Derives (.expression 0 e) (.symbol op.symbol :: us) := by
  intro h
  obtain ⟨t, rest, heq, hopens⟩ := derives_starts h
  cases heq
  have hsymbol : op.symbol = "(" := hopens
  cases op <;> exact absurd hsymbol (by decide)

variable {text : String} {e : Expr}

/-- a text read with neither a sign nor a member at the root is atomic -/
theorem bindsAs_atomic_of_readsAt (h : ReadsAt 1 text e) (hunary : e.root ≠ .unary) (hmember : e.root ≠ .member) :
    BindsAs .atomic text e := by
  obtain ⟨⟨ts, e', hs, hd, hr⟩, -⟩ := h
  rw [← hr.root_eq] at hunary hmember
  rcases derives_one_cases hd with hroot | hzero
  · exact absurd hroot hunary
  · rcases derives_zero_cases hzero with hroot | hatom
    · exact absurd hroot hmember
    · exact ⟨ts, e', hs, hatom, hr⟩

theorem bindsAs_of_readsAt {o : Order} (h : ReadsAt o.level text e) (ho : Order.unaryPrefix.rank ≤ o.rank) :
    BindsAs o text e := by
  obtain ⟨⟨ts, e', hs, hd, hr⟩, -⟩ := h
  exact ⟨ts, e', hs, (Order.admits_iff_of_prefix ho).2 hd, hr⟩

/-- **A sign in front is no part of an atom**, nor of anything else that is tighter than prefix operators, whatever the
text is to mean. -/
theorem not_bindsAs_of_sign {op : Unary} {us : List Token} (hs : scan? text.toList = some (.symbol op.symbol :: us))
    {o : Order} (ho : o.rank < Order.unaryPrefix.rank) (x : Expr) : ¬ BindsAs o text x := by
  rintro ⟨ts, x', hs', hadmits, -⟩
  rw [hs] at hs'
  cases hs'
  exact not_derives_zero_of_sign (hadmits.derives_of_tight ho)

/-! ## Value blocks -/

def Block.isPlusNumber (b : Block) : Bool :=
  b.kind == "math_number" && (b.field? "NUM").any fun text => (Text.trim text).toList.head? == some '+'

theorem Block.isPlusNumber_iff {b : Block} {k : Kind} (hk : b.kind? = some k) (hf : k.fault? b = none) :
    b.isPlusNumber = true ↔ k = .mathNumber ∧ (k.word b).toList.head? = some '+' := by
  have hname : b.kind = k.name := (Kind.name_of_ofName? hk).symm
  have hkind : b.kind = "math_number" ↔ k = .mathNumber := by
    rw [hname]
    cases k <;> decide
  simp only [isPlusNumber, Bool.and_eq_true, beq_iff_eq, hkind]
  refine and_congr_right ?_
  rintro rfl
  simp only [Kind.fault?, Kind.fieldRule?, Library.field?] at hf
  simp only [Kind.word, Kind.fieldRule?, Library.field?, Option.bind_some]
  cases hv : b.field? "NUM" with
  | none => rw [hv] at hf; cases hf
  | some text =>
    rw [hv] at hf
    simp only [Option.map_some] at hf ⊢
    split at hf
    · cases hf
    · rename_i hempty
      split <;> simp_all

/-- from two operands on, levels are strengths below prefix operators -/
theorem Order.prefix_le_of_level {o : Order} (h : 1 < o.level) : Order.unaryPrefix.rank ≤ o.rank := by
  cases o <;> first | decide | exact absurd h (by decide)

theorem prefix_le_operator {k : Kind} {b : Block} (h : b.Settled k)
    (hk : k = .mathArithmetic ∨ k = .logicCompare ∨ k = .logicOperation) :
    Order.unaryPrefix.rank ≤ (k.operator (k.word b)).order.rank := by
  refine Order.prefix_le_of_level ?_
  rcases hk with rfl | rfl | rfl
  · obtain ⟨op, n, -, -, hlevel, horder, -⟩ := operator_of_word (.inl rfl) rfl (word_accepted h.fault rfl)
    have := op.one_lt_level
    omega
  · obtain ⟨op, n, -, -, hlevel, horder, -⟩ := operator_of_word (.inr rfl) rfl (word_accepted h.fault rfl)
    have := op.one_lt_level
    omega
  · obtain ⟨op, n, -, -, -, hlevel, horder⟩ := connective_of_word (word_accepted h.fault rfl)
    have := op.one_lt_level
    omega

/-- a number behind a minus sign is a prefix expression, and one without a sign an atom -/
theorem bindsAs_number {b : Block} (h : b.Settled .mathNumber)
    (hplus : (Kind.mathNumber.word b).toList.head? ≠ some '+') (texts : List String) :
    BindsAs (Kind.mathNumber.expression b (Kind.mathNumber.word b) texts).order
      (Kind.mathNumber.expression b (Kind.mathNumber.word b) texts).text (Kind.mathNumber.meaning b b.operand) := by
  have hread := readsAt_constant h (.inl rfl) texts
  simp only [Kind.expression, Kind.meaning] at hread ⊢
  rcases Expr.signed_cases (Kind.mathNumber.word b) with ⟨rest, ht, -⟩ | ⟨rest, ht, -⟩ | ⟨hminus, -, hsigned⟩
  · simp only [ht, List.head?_cons, BEq.rfl, if_true]
    exact bindsAs_of_readsAt hread (by decide)
  · simp [ht] at hplus
  · have horder : ((Kind.mathNumber.word b).toList.head? == some '-') = false := by
      cases hw : (Kind.mathNumber.word b).toList with
      | nil => rfl
      | cons c rest =>
        refine beq_eq_false_iff_ne.2 fun hc => ?_
        cases hc
        exact hminus rest hw
    simp only [horder, Bool.false_eq_true, if_false]
    rw [hsigned] at hread ⊢
    exact bindsAs_atomic_of_readsAt hread (fun h => by cases h) (fun h => by cases h)

/-- **A value block keeps its promise**, if it is no number behind a plus sign. -/
theorem bindsAs_of_settled {k : Kind} {b : Block} (h : b.Settled k) (hs : k.shape = .value)
    (hplus : ¬ (k = .mathNumber ∧ (k.word b).toList.head? = some '+')) (indent loops : Nat) :
    BindsAs (k.expression b (k.word b) (b.texts indent loops).1).order
      (k.expression b (k.word b) (b.texts indent loops).1).text (k.meaning b b.operand) := by
  have hread := readsAt_of_settled h hs indent loops
  have hatom (ho : (k.expression b (k.word b) (b.texts indent loops).1).order = .atomic)
      (hunary : (k.meaning b b.operand).root ≠ .unary) (hmember : (k.meaning b b.operand).root ≠ .member) :
      BindsAs (k.expression b (k.word b) (b.texts indent loops).1).order
        (k.expression b (k.word b) (b.texts indent loops).1).text (k.meaning b b.operand) := by
    rw [ho] at hread ⊢
    exact bindsAs_atomic_of_readsAt hread hunary hmember
  cases k with
  | mathNumber => exact bindsAs_number h (fun hw => hplus ⟨rfl, hw⟩) _
  | mathArithmetic => exact bindsAs_of_readsAt hread (prefix_le_operator h (.inl rfl))
  | logicCompare => exact bindsAs_of_readsAt hread (prefix_le_operator h (.inr (.inl rfl)))
  | logicOperation => exact bindsAs_of_readsAt hread (prefix_le_operator h (.inr (.inr rfl)))
  | logicNegate => exact bindsAs_of_readsAt hread (Nat.le_refl _)
  | servoRead | sonar | touchSensor | logicBoolean | digitalRead | analogRead | highLow | timeMillis | text =>
    exact hatom rfl (fun h => by cases h) (fun h => by cases h)
  | _ => cases hs

theorem scan?_plusNumber {text : String} (h : Library.isNumber text = true)
    (hplus : text.toList.head? = some '+') :
    ∃ us, scan? text.toList = some (.symbol Unary.plus.symbol :: us) := by
  unfold Library.isNumber at h
  cases hp : Decimal.Numeral.parse? text.toList with
  | none => rw [hp] at h; cases h
  | some n =>
    have hunsigned := isUnsigned_of_parse? hp
    cases ht : text.toList with
    | nil => rw [ht] at hplus; cases hplus
    | cons c rest =>
      rw [ht] at hplus hunsigned
      cases hplus
      obtain ⟨d, rest', hd, hfirst⟩ := hunsigned.opening
      have hscan := hunsigned.scan
      simp only [Decimal.takeSign] at hd hscan
      subst hd
      exact ⟨_, scan?_symbol rfl (fun h => absurd h (by decide)) (followers_of_number (.inr rfl) hfirst) hscan⟩

/-- what a walk through an expression that comes to an end shows -/
theorem admissible_of_valueCode {b : Block} {p q : Pass} {code : OrderedCode}
    (h : valueCode Table.builtin b p = .ok code q) :
    code = b.expression ∧ ∀ action ∈ b.actions .value (p.depth + 1), action.Admissible p.board := by
  have hwalk := valueCode_performs b p.indent p.depth (p.uses counterBase) p ⟨rfl, rfl, rfl⟩
  cases hact : Action.performAll (b.actions .value (p.depth + 1)) p with
  | error e r => rw [hact, h] at hwalk; cases hwalk
  | ok u r =>
    rw [hact, h] at hwalk
    cases hwalk.1
    exact ⟨rfl, performAll_admissible hact⟩

/-- **Declared strengths are kept, but for numbers behind a plus sign.** Whatever state a walk starts from on a built-in
board: the text of a value block is an expression of the strength it comes with, and put where any strength is required
it is an expression of that strength; it means the tree of the block in both. The text of a number behind a plus sign
comes as an atom and is none: it is an expression of the required strength only from prefix operators on. -/
theorem declared_strengths_kept (b : Block) (p : Pass) (hboard : p.board ∈ Board.builtins) (code : OrderedCode)
    (q : Pass) (h : valueCode Table.builtin b p = .ok code q) :
    (b.isPlusNumber = false → BindsAs code.order code.text b.tree ∧
      ∀ required, BindsAs required (code.embed required) b.tree) ∧
    (b.isPlusNumber = true → code.order = .atomic ∧ (∀ e, ¬ BindsAs code.order code.text e) ∧
      ∀ required, (Order.unaryPrefix.rank ≤ required.rank → BindsAs required (code.embed required) b.tree) ∧
        (required.rank < Order.unaryPrefix.rank → ∀ e, ¬ BindsAs required (code.embed required) e)) := by
  obtain ⟨rfl, hadm⟩ := admissible_of_valueCode h
  obtain ⟨k, hsettled, hshape⟩ := settled_of_admissible hboard hadm fun slot c _ hc => readsAt_of_admissible hboard c _ hc
  have hiff := Block.isPlusNumber_iff hsettled.kind hsettled.fault
  have hread := readsAt_of_admissible hboard b _ hadm
  have hcode := (Block.expression_of_kind hsettled.kind hshape 0 0).1
  constructor
  · intro hplus
    have hkept : BindsAs b.expression.order b.expression.text b.tree := by
      rw [hcode, Block.tree_of_kind hsettled.kind]
      exact bindsAs_of_settled hsettled hshape (fun hk => by rw [hiff.2 hk] at hplus; cases hplus) 0 0
    exact ⟨hkept, bindsAs_embed hkept⟩
  · intro hplus
    obtain ⟨rfl, hhead⟩ := hiff.1 hplus
    obtain ⟨us, hscan⟩ := scan?_plusNumber (word_accepted hsettled.fault rfl) hhead
    have hatom : b.expression = .atomic (Kind.mathNumber.word b) := by
      rw [hcode]
      simp only [Kind.expression, hhead]
      rfl
    have htight : OrderedCode.order (.atomic (Kind.mathNumber.word b)) = .atomic := rfl
    rw [hatom] at hread ⊢
    refine ⟨htight, not_bindsAs_of_sign hscan (by rw [htight]; decide), fun required => ?_⟩
    rw [OrderedCode.embed_atomic]
    refine ⟨fun hloose => ?_, not_bindsAs_of_sign hscan⟩
    exact bindsAs_of_readsAt (hread.looser (Order.level_mono (Nat.zero_le required.rank))) hloose

def sampleSum : Block :=
  bareBlock "math_arithmetic" [("OP", "ADD")]
    [("A", bareBlock "math_number" [("NUM", " +5 ")] []), ("B", bareBlock "math_number" [("NUM", "-2.5e3")] [])]

/-- the sum is one, and in parentheses an atom -/
theorem declared_strengths_kept_sum :
    Board.uno ∈ Board.builtins ∧
      result? (valueCode Table.builtin sampleSum { board := Board.uno, indent := 2 }) =
        some ⟨"+5 + -2.5e3", .additive⟩ ∧
      BindsAs .additive "+5 + -2.5e3" sampleSum.tree ∧ BindsAs .atomic "(+5 + -2.5e3)" sampleSum.tree := by
  have hboard : Board.uno ∈ Board.builtins := List.mem_cons_self
  have hvalue : result? (valueCode Table.builtin sampleSum { board := Board.uno, indent := 2 }) =
      some ⟨"+5 + -2.5e3", .additive⟩ := by decide +kernel
  obtain ⟨q, hq⟩ := result?_eq_some hvalue
  obtain ⟨hkept, hembed⟩ := (declared_strengths_kept sampleSum _ hboard _ q hq).1 (by decide)
  exact ⟨hboard, hvalue, hkept, hembed .atomic⟩

/-- a number behind a plus sign comes as an atom, stays without parentheses where an atom is required, and is none -/
theorem plus_number_not_atomic :
    (∃ q, valueCode Table.builtin (bareBlock "math_number" [("NUM", "+5")] []) { board := Board.uno, indent := 2 } =
      .ok ⟨"+5", .atomic⟩ q) ∧
      OrderedCode.embed ⟨"+5", .atomic⟩ .atomic = "+5" ∧ ∀ e, ¬ BindsAs .atomic "+5" e := by
  have hvalue : result? (valueCode Table.builtin (bareBlock "math_number" [("NUM", "+5")] [])
      { board := Board.uno, indent := 2 }) = some ⟨"+5", .atomic⟩ := by decide +kernel
  have hscan : scan? "+5".toList = some [.symbol Unary.plus.symbol, .number "5"] := by decide
  exact ⟨result?_eq_some hvalue, OrderedCode.embed_atomic _ _, not_bindsAs_of_sign hscan (by decide)⟩

end BlockSketch
