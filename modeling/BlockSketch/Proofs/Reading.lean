/-
Texts and the expressions they are read as.

`Reads text e`: the words of the text are derived for the tree `e`. A text has one reading at most, so `ReadsOnly text e`
is what can be said of generated code: it has exactly one reading, and that is `e` up to the grouping of runs of `&&` and
of `||`.

Generated code is put together from the inside out. `ReadsAt n text e` says that a text can stand wherever the grammar
asks for an expression of level `n`; the lemmas here are the ways in which generators make texts out of such texts.

Results:
- `readsOnly_of_readsAt`: what can stand as a whole expression has exactly one reading;
- `readsAt_group`, `readsAt_not`, `readsAt_binary`, `readsAt_run`, `readsAt_call`: how texts are put together;
- `readsAt_embed`: code put where a strength is required can stand where that strength is asked for.
-/
import BlockSketch.Proofs.Grammar
import BlockSketch.Library.Robot
import BlockSketch.Sketch.Order

namespace BlockSketch

open Scanner

/-- the text can be read as the tree -/
def Reads (text : String) (e : Expr) : Prop :=
  ∃ ts, scan? text.toList = some ts ∧ Derives (.expression topLevel e) ts

/-- the text has exactly one reading, which is the tree up to the grouping of runs -/
def ReadsOnly (text : String) (e : Expr) : Prop :=
  ∃ e', Reads text e' ∧ (∀ e'', Reads text e'' → e'' = e') ∧ Regroups e' e

/-- the text can stand where an expression of a level is asked for, and means the tree there -/
structure ReadsAt (n : Nat) (text : String) (e : Expr) : Prop where
  derived : ∃ ts e', scan? text.toList = some ts ∧ Derives (.expression n e') ts ∧ Regroups e' e
  /-- nothing in front of it can take its first character away -/
  opening : ∃ c rest, text.toList = c :: rest ∧ c ≠ '='

theorem reads_unique {text : String} {e e' : Expr} (h : Reads text e) (h' : Reads text e') : e = e' := by
  obtain ⟨ts, hs, hd⟩ := h
  obtain ⟨ts', hs', hd'⟩ := h'
  rw [hs] at hs'
  cases hs'
  exact derives_unique hd hd'

theorem ReadsAt.looser {n m : Nat} {text : String} {e : Expr} (h : ReadsAt n text e) (hnm : n ≤ m) :
    ReadsAt m text e := by
  obtain ⟨⟨ts, e', hs, hd, hr⟩, ho⟩ := h
  exact ⟨⟨ts, e', hs, hd.looser_of_le hnm, hr⟩, ho⟩

/-- what can stand as a whole expression has exactly one reading -/
theorem readsOnly_of_readsAt {n : Nat} {text : String} {e : Expr} (h : ReadsAt n text e) (hn : n ≤ topLevel) :
    ReadsOnly text e := by
  obtain ⟨⟨ts, e', hs, hd, hr⟩, -⟩ := h.looser hn
  have hreads : Reads text e' := ⟨ts, hs, hd⟩
  exact ⟨e', hreads, fun e'' h'' => reads_unique h'' hreads, hr⟩

/-! ## Putting texts together -/

variable {n : Nat} {text a b : String} {e x y : Expr}

theorem readsAt_group (h : ReadsAt n text e) (hn : n ≤ topLevel) : ReadsAt 0 ("(" ++ text ++ ")") e := by
  obtain ⟨⟨ts, e', hs, hd, hr⟩, c, rest, hc, -⟩ := h.looser hn
  have hchars : ("(" ++ text ++ ")").toList = '(' :: c :: (rest ++ [')']) := by
    simp [String.toList_append, hc]
  have hclose : scan? (c :: (rest ++ [')'])) = some (ts ++ [.symbol ")"]) := by
    rw [hc] at hs
    exact scan?_append (by decide) hs rfl
  refine ⟨⟨_, e', ?_, .group hd, hr⟩, '(', _, hchars, by decide⟩
  rw [hchars]
  exact scan?_symbol rfl (fun h => absurd h (by decide)) rfl hclose

theorem readsAt_not (h : ReadsAt 1 text e) : ReadsAt 1 ("!" ++ text) (.unary .not e) := by
  obtain ⟨⟨ts, e', hs, hd, hr⟩, c, rest, hc, hne⟩ := h
  have hchars : ("!" ++ text).toList = '!' :: c :: rest := by simp [String.toList_append, hc]
  have hfollow : (followers ['!']).contains c = false := by
    show ['='].contains c = false
    simp [hne]
  refine ⟨⟨_, _, ?_, .unary .not hd, .unary .not hr⟩, '!', _, hchars, by decide⟩
  rw [hchars]
  rw [hc] at hs
  exact scan?_symbol rfl (fun h => absurd h (by decide)) hfollow hs

theorem scan?_binarySymbol (op : Binary) : scan? op.symbol.toList = some [.symbol op.symbol] := by
  cases op <;> rfl

theorem scan?_binary {ts us : List Token} (op : Binary) (ha : scan? a.toList = some ts) (hb : scan? b.toList = some us) :
    scan? (a ++ " " ++ op.symbol ++ " " ++ b).toList = some (ts ++ .symbol op.symbol :: us) := by
  have hchars : (a ++ " " ++ op.symbol ++ " " ++ b).toList =
      a.toList ++ ' ' :: (op.symbol.toList ++ ' ' :: b.toList) := by
    simp [String.toList_append]
  rw [hchars]
  exact scan?_spaced ha (scan?_spaced (scan?_binarySymbol op) hb)

theorem opening_append (h : ∃ c rest, a.toList = c :: rest ∧ c ≠ '=') (b : String) :
    ∃ c rest, (a ++ b).toList = c :: rest ∧ c ≠ '=' := by
  obtain ⟨c, rest, hc, hne⟩ := h
  exact ⟨c, rest ++ b.toList, by simp [String.toList_append, hc], hne⟩

theorem opening_binary (h : ∃ c rest, a.toList = c :: rest ∧ c ≠ '=') (op : Binary) (b : String) :
    ∃ c rest, (a ++ " " ++ op.symbol ++ " " ++ b).toList = c :: rest ∧ c ≠ '=' :=
  opening_append (opening_append (opening_append (opening_append h " ") op.symbol) " ") b

theorem readsAt_binary (op : Binary) (hn : op.level = n + 1) (hx : ReadsAt (n + 1) a x) (hy : ReadsAt n b y) :
    ReadsAt (n + 1) (a ++ " " ++ op.symbol ++ " " ++ b) (.binary op x y) := by
  obtain ⟨⟨ts, x', hs, hd, hr⟩, ho⟩ := hx
  obtain ⟨⟨us, y', hs', hd', hr'⟩, -⟩ := hy
  exact ⟨⟨_, _, scan?_binary op hs hs', .binary op hn hd hd', .binary op hr hr'⟩, opening_binary ho op b⟩

/-- an expression on the right of an operator of its own level joins the run on the left -/
theorem derives_run {op : Binary} {ts us : List Token} (hop : op.regroupable = true) (hn : op.level = n + 1)
    (hx : Derives (.expression (n + 1) x) ts) (hy : Derives (.expression (n + 1) y) us) :
    ∃ e, Derives (.expression (n + 1) e) (ts ++ .symbol op.symbol :: us) ∧ Regroups e (.binary op x y) := by
  generalize hp : Phrase.expression (n + 1) y = phrase at hy
  induction hy generalizing y with
  | looser h ih =>
    cases hp
    exact ⟨_, .binary op hn hx h, .refl _⟩
  | @binary m y₁ y₂ us₁ us₂ op' hn' h₁ h₂ ih₁ _ =>
    cases hp
    have hsame : op' = op := by
      cases op <;> cases hop <;> cases hn <;> cases op' <;> first | rfl | cases hn'
    subst hsame
    obtain ⟨e₁, hd₁, hr₁⟩ := ih₁ rfl
    refine ⟨.binary op' e₁ y₂, ?_, .trans (.binary op' hr₁ (.refl _)) (.shift x y₁ y₂ hop)⟩
    have hd := Derives.binary op' hn' hd₁ h₂
    rwa [List.append_assoc] at hd
  | unary op' h ih =>
    cases hp
    have hlevel := op.one_lt_level
    omega
  | _ => cases hp

/-- a run of `&&` or of `||` may go on on either side -/
theorem readsAt_run (op : Binary) (hop : op.regroupable = true) (hn : op.level = n + 1) (hx : ReadsAt (n + 1) a x)
    (hy : ReadsAt (n + 1) b y) : ReadsAt (n + 1) (a ++ " " ++ op.symbol ++ " " ++ b) (.binary op x y) := by
  obtain ⟨⟨ts, x', hs, hd, hr⟩, ho⟩ := hx
  obtain ⟨⟨us, y', hs', hd', hr'⟩, -⟩ := hy
  obtain ⟨e, hde, hre⟩ := derives_run hop hn hd hd'
  exact ⟨⟨_, e, scan?_binary op hs hs', hde, .trans hre (.binary op hr hr')⟩, opening_binary ho op b⟩

/-! ## Words and literals -/

/-- a text made of letters, digits and underscores -/
def isPlainWord (text : String) : Bool := !text.toList.isEmpty && text.toList.all isWordChar

/-- a word as an expression: a number if it starts with a digit, a name otherwise -/
def Expr.word (text : String) : Expr := if text.toList.head?.any Char.isDigit then .number text else .name text

def Expr.signed (text : String) : Expr :=
  match text.toList with
  | '-' :: rest => .unary .minus (.number (String.ofList rest))
  | '+' :: rest => .unary .plus (.number (String.ofList rest))
  | _ => .number text

theorem ne_equals_of_isWordChar {c : Char} (h : isWordChar c = true) : c ≠ '=' := by
  rintro rfl
  cases h

theorem readsAt_word (h : isPlainWord text = true) : ReadsAt 0 text (.word text) := by
  simp only [isPlainWord, Bool.and_eq_true] at h
  obtain ⟨hne, hall⟩ := h
  cases hc : text.toList with
  | nil => rw [hc] at hne; cases hne
  | cons c rest =>
    rw [hc] at hall
    have htext : String.ofList (c :: rest) = text := by rw [← hc, String.ofList_toList]
    have hchars : (c :: rest).all isWordChar = true := hall
    rw [List.all_cons, Bool.and_eq_true] at hall
    refine ⟨?_, c, rest, hc, ne_equals_of_isWordChar hall.1⟩
    cases hd : c.isDigit with
    | true =>
      have hword : Expr.word text = .number text := by simp [Expr.word, hc, hd]
      have hrest : rest.all (fun c => isWordChar c || c == '.') = true := by
        rw [List.all_eq_true] at hall ⊢
        intro d hd
        rw [hall.2 d hd, Bool.true_or]
      refine ⟨[.number text], .number text, ?_, .number text, hword ▸ .refl _⟩
      rw [hc, scan?, run?_nothing_number hd hrest, ← htext]
      rfl
    | false =>
      have hword : Expr.word text = .name text := by simp [Expr.word, hc, hd]
      refine ⟨[.name text], .name text, ?_, .name text, hword ▸ .refl _⟩
      rw [hc, scan?_name hchars hd, htext]

theorem readsAt_literal (value : String) : ReadsAt 0 (Library.literal value) (.text value) :=
  ⟨⟨_, _, scan?_literal value, .text value, .refl _⟩, '"', _, Library.literal_toList value, by decide⟩

/-- a sign in front of an unsigned number is a word of its own -/
theorem readsAt_sign {s : Char} {rest : List Char} (op : Unary) (ht : text.toList = s :: rest)
    (hs : start? s = some (.symbol [s])) (hop : op.symbol = String.ofList [s])
    (hfollow : ∀ c, (c.isDigit = true ∨ c = '.') → (followers [s]).contains c = false) (hdot : s ≠ '.') (heq : s ≠ '=')
    (h : IsUnsigned rest) : ReadsAt 1 text (.unary op (.number (String.ofList rest))) := by
  obtain ⟨c, rest', rfl, hc⟩ := h.opening
  refine ⟨⟨_, _, ?_, .unary op (.looser (.number _)), .refl _⟩, s, _, ht, heq⟩
  rw [ht, hop]
  exact scan?_symbol hs (fun h => absurd h hdot) (hfollow c hc) h.scan

theorem followers_of_number {s c : Char} (hs : s = '-' ∨ s = '+') (hc : c.isDigit = true ∨ c = '.') :
    (followers [s]).contains c = false := by
  have hne : ∀ d ∈ ['-', '+', '=', '>'], c ≠ d := by
    intro d hd
    rintro rfl
    rcases hc with hc | rfl
    · simp only [List.mem_cons, List.not_mem_nil, or_false] at hd
      rcases hd with rfl | rfl | rfl | rfl <;> cases hc
    · exact absurd hd (by decide)
  rcases hs with rfl | rfl
  · show ['-', '=', '>'].contains c = false
    simp [hne]
  · show ['+', '='].contains c = false
    simp [hne]

theorem Expr.signed_cases (text : String) :
    (∃ rest, text.toList = '-' :: rest ∧ signed text = .unary .minus (.number (String.ofList rest))) ∨
    (∃ rest, text.toList = '+' :: rest ∧ signed text = .unary .plus (.number (String.ofList rest))) ∨
    ((∀ rest, text.toList ≠ '-' :: rest) ∧ (∀ rest, text.toList ≠ '+' :: rest) ∧ signed text = .number text) := by
  unfold signed
  split
  · rename_i rest ht
    exact .inl ⟨rest, ht, rfl⟩
  · rename_i rest ht
    exact .inr (.inl ⟨rest, ht, rfl⟩)
  · rename_i hminus hplus
    exact .inr (.inr ⟨hminus, hplus, rfl⟩)

theorem takeSign_of_no_sign {cs : List Char} (hminus : ∀ rest, cs ≠ '-' :: rest) (hplus : ∀ rest, cs ≠ '+' :: rest) :
    Decimal.takeSign cs = (false, cs) := by
  unfold Decimal.takeSign
  split
  · exact absurd rfl (hminus _)
  · exact absurd rfl (hplus _)
  · rfl

theorem readsAt_signed (h : IsUnsigned (Decimal.takeSign text.toList).2) : ReadsAt 1 text (.signed text) := by
  rcases Expr.signed_cases text with ⟨rest, ht, hsigned⟩ | ⟨rest, ht, hsigned⟩ | ⟨hminus, hplus, hsigned⟩
  · rw [ht] at h
    rw [hsigned]
    exact readsAt_sign .minus ht rfl rfl (fun c hc => followers_of_number (.inl rfl) hc) (by decide) (by decide) h
  · rw [ht] at h
    rw [hsigned]
    exact readsAt_sign .plus ht rfl rfl (fun c hc => followers_of_number (.inr rfl) hc) (by decide) (by decide) h
  · rw [takeSign_of_no_sign hminus hplus] at h
    rw [hsigned]
    obtain ⟨c, rest, hc, hfirst⟩ := h.opening
    refine ⟨⟨_, _, h.scan, ?_, .refl _⟩, c, rest, hc, ?_⟩
    · rw [String.ofList_toList]
      exact .looser (.number text)
    · rintro rfl
      rcases hfirst with hfirst | hfirst <;> cases hfirst

theorem readsAt_number (h : Library.isNumber text = true) : ReadsAt 1 text (.signed text) := by
  unfold Library.isNumber at h
  cases hp : Decimal.Numeral.parse? text.toList with
  | none => rw [hp] at h; cases h
  | some n => exact readsAt_signed (isUnsigned_of_parse? hp)

theorem isUnsigned_of_digits {cs : List Char} (hne : cs.isEmpty = false) (h : cs.all Char.isDigit = true) :
    IsUnsigned cs := by
  cases cs with
  | nil => cases hne
  | cons c rest => exact isUnsigned_digits h

theorem readsAt_port (h : Library.isPort text = true) : ReadsAt 1 text (.signed text) := by
  refine readsAt_signed ?_
  simp only [Library.isPort, Bool.and_eq_true, Bool.not_eq_true'] at h
  obtain ⟨⟨⟨hne, hall⟩, -⟩, -⟩ := h
  rcases Expr.signed_cases text with ⟨rest, ht, -⟩ | ⟨rest, ht, -⟩ | ⟨hminus, hplus, -⟩
  · -- a port has no minus sign
    rw [ht] at hall
    cases hall
  · rw [ht] at hne hall ⊢
    exact isUnsigned_of_digits hne hall
  · rw [takeSign_of_no_sign hminus hplus]
    split at hne
    · rename_i rest ht
      exact absurd ht (hplus rest)
    · rename_i ht
      exact isUnsigned_of_digits hne (by simpa [ht] using hall)

/-! ## Calls -/

/-- the text lists arguments that mean the trees -/
def ReadsArguments (text : String) (es : List Expr) : Prop :=
  ∃ ts es', scan? text.toList = some ts ∧ Derives (.arguments es') ts ∧ List.Forall₂ Regroups es' es

theorem readsArguments_nil : ReadsArguments "" [] := ⟨[], [], rfl, .noArguments, .nil⟩

theorem readsArguments_one (h : ReadsAt n text e) (hn : n ≤ topLevel) : ReadsArguments text [e] := by
  obtain ⟨⟨ts, e', hs, hd, hr⟩, -⟩ := h.looser hn
  exact ⟨ts, [e'], hs, .oneArgument hd, .cons hr .nil⟩

theorem readsArguments_cons {es : List Expr} (h : ReadsAt n a x) (hn : n ≤ topLevel)
    (hes : ReadsArguments b (y :: es)) : ReadsArguments (a ++ ", " ++ b) (x :: y :: es) := by
  obtain ⟨⟨ts, x', hs, hd, hr⟩, -⟩ := h.looser hn
  obtain ⟨us, es', hs', hd', hr'⟩ := hes
  cases hr' with
  | cons hy hrest =>
    refine ⟨ts ++ .symbol "," :: us, _, ?_, .moreArguments hd hd', .cons hr (.cons hy hrest)⟩
    have hchars : (a ++ ", " ++ b).toList = a.toList ++ ',' :: ' ' :: b.toList := by simp [String.toList_append]
    have hcomma : scan? (',' :: ' ' :: b.toList) = some (.symbol "," :: us) :=
      scan?_symbol rfl (fun h => absurd h (by decide)) rfl (by rw [scan?_space, hs'])
    rw [hchars]
    exact scan?_append (by decide) hs hcomma

/-- the text names something that can be called -/
structure ReadsCallee (text : String) (f : Expr) : Prop where
  derived : ∃ ts, scan? text.toList = some ts ∧ Derives (.expression 0 f) ts
  opening : ∃ c rest, text.toList = c :: rest ∧ c ≠ '='

theorem readsAt_call {f : Expr} {es : List Expr} (hf : ReadsCallee a f) (hes : ReadsArguments b es) :
    ReadsAt 0 (a ++ "(" ++ b ++ ")") (.call f es) := by
  obtain ⟨⟨ts, hs, hd⟩, ho⟩ := hf
  obtain ⟨us, es', hs', hd', hr'⟩ := hes
  have hclose : scan? (b.toList ++ [')']) = some (us ++ [.symbol ")"]) := scan?_append (by decide) hs' rfl
  have hopen : scan? ('(' :: (b.toList ++ [')'])) = some (.symbol "(" :: (us ++ [.symbol ")"])) := by
    cases hb : b.toList ++ [')'] with
    | nil => simp at hb
    | cons c rest =>
      rw [hb] at hclose
      exact scan?_symbol rfl (fun h => absurd h (by decide)) rfl hclose
  have hchars : (a ++ "(" ++ b ++ ")").toList = a.toList ++ '(' :: (b.toList ++ [')']) := by
    simp [String.toList_append]
  refine ⟨⟨_, _, ?_, .call hd hd', .call f hr'⟩, ?_⟩
  · rw [hchars]
    exact scan?_append (by decide) hs hopen
  · obtain ⟨c, rest, hc, hne⟩ := ho
    exact ⟨c, _, by rw [hchars, hc]; rfl, hne⟩

/-- a text made of letters, digits and underscores that does not start with a digit -/
def isIdentifier (text : String) : Bool := isPlainWord text && !text.toList.head?.any Char.isDigit

theorem isIdentifier_chars (h : isIdentifier text = true) :
    ∃ c rest, text.toList = c :: rest ∧ (c :: rest).all isWordChar = true ∧ c.isDigit = false := by
  simp only [isIdentifier, isPlainWord, Bool.and_eq_true, Bool.not_eq_true'] at h
  obtain ⟨⟨hne, hall⟩, hdigit⟩ := h
  cases hc : text.toList with
  | nil => rw [hc] at hne; cases hne
  | cons c rest =>
    rw [hc] at hall hdigit
    exact ⟨c, rest, rfl, hall, by simpa using hdigit⟩

theorem readsCallee_name (text : String) (h : isIdentifier text = true) : ReadsCallee text (.name text) := by
  obtain ⟨c, rest, hc, hall, hd⟩ := isIdentifier_chars h
  have htext : String.ofList (c :: rest) = text := by rw [← hc, String.ofList_toList]
  refine ⟨⟨[.name text], ?_, .name text⟩, c, rest, hc, ?_⟩
  · rw [hc, scan?_name hall hd, htext]
  · rw [List.all_cons, Bool.and_eq_true] at hall
    exact ne_equals_of_isWordChar hall.1

theorem readsCallee_member (a b : String) (ha : isIdentifier a = true) (hb : isIdentifier b = true) :
    ReadsCallee (a ++ "." ++ b) (.member (.name a) b) := by
  obtain ⟨c, rest, hc, hall, hd⟩ := isIdentifier_chars ha
  obtain ⟨c', rest', hc', hall', hd'⟩ := isIdentifier_chars hb
  have hchars : (a ++ "." ++ b).toList = c :: rest ++ '.' :: c' :: rest' := by simp [String.toList_append, hc, hc']
  have hobject : String.ofList (c :: rest) = a := by rw [← hc, String.ofList_toList]
  have hmethod : String.ofList (c' :: rest') = b := by rw [← hc', String.ofList_toList]
  refine ⟨⟨_, ?_, .member b (.name a)⟩, c, _, hchars, ?_⟩
  · rw [hchars, scan?_member hall hd hall' hd', hobject, hmethod]
    rfl
  · rw [List.all_cons, Bool.and_eq_true] at hall
    exact ne_equals_of_isWordChar hall.1

/-! ## Strengths and levels -/

/-- the level of the expressions that a strength stands for; nothing is generated between additions and comparisons, or
between equalities and conjunctions -/
def Order.level : Order → Nat
  | .atomic | .unaryPostfix | .unaryPrefix => 1
  | .multiplicative => 2
  | .additive | .shift => 3
  | .relational => 4
  | .equality | .bitwiseAnd | .bitwiseXor | .bitwiseOr => 5
  | .logicalAnd => 6
  | .logicalOr | .conditional | .assignment | .lowest => 7

theorem Order.level_mono {o r : Order} (h : o.rank ≤ r.rank) : o.level ≤ r.level := by
  cases o <;> cases r <;> first | decide | exact absurd h (by decide)

theorem Order.level_le_top (o : Order) : o.level ≤ topLevel := by
  cases o <;> decide

/-- code that means a tree means it wherever it is put -/
theorem readsAt_embed {code : OrderedCode} (h : ReadsAt code.order.level code.text e) (required : Order) :
    ReadsAt required.level (code.embed required) e := by
  unfold OrderedCode.embed
  split
  · exact (readsAt_group h code.order.level_le_top).looser (Nat.zero_le _)
  · rename_i hw
    have hrank : code.order.rank ≤ required.rank := by simpa [Order.bindsWeakerThan] using hw
    exact h.looser (Order.level_mono hrank)

end BlockSketch
