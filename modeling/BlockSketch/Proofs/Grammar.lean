/-
The grammar of expressions, and why a list of words has at most one reading.

`Derives` is the grammar of C expressions as far as generated code goes: numbers, names, string literals and expressions
in parentheses; behind them members and calls; in front of them the signs and `!`; and six levels of binary operators,
each associating to the left. Parentheses leave no trace in the tree.

A left-recursive grammar says nothing about where to cut a list of words. `Parses` is the reader that cuts it: it goes
from left to right, looks at one word ahead, and never goes back, so it comes to one result at most.

Results:
- `parses_deterministic`: the reader has one result at most;
- `parses_of_derives`: whatever the grammar derives, the reader finds;
- `derives_unique`: so a list of words is derived for one tree at most.
-/
import BlockSketch.Proofs.Scanner

namespace BlockSketch

/-! ## Trees -/

/-- what can be put in front of an expression -/
inductive Unary where
  | not
  | plus
  | minus
  deriving DecidableEq, Repr

/-- what can stand between two expressions -/
inductive Binary where
  | multiply
  | divide
  | remainder
  | add
  | subtract
  | less
  | lessEqual
  | greater
  | greaterEqual
  | equal
  | notEqual
  | both
  | either
  deriving DecidableEq, Repr

/-- an expression as it is meant -/
inductive Expr where
  | number (literal : String)
  | name (letters : String)
  | text (contents : String)
  | member (object : Expr) (field : String)
  | call (function : Expr) (arguments : List Expr)
  | unary (op : Unary) (operand : Expr)
  | binary (op : Binary) (left right : Expr)

def Unary.symbol : Unary → String
  | .not => "!"
  | .plus => "+"
  | .minus => "-"

namespace Binary

def symbol : Binary → String
  | .multiply => "*"
  | .divide => "/"
  | .remainder => "%"
  | .add => "+"
  | .subtract => "-"
  | .less => "<"
  | .lessEqual => "<="
  | .greater => ">"
  | .greaterEqual => ">="
  | .equal => "=="
  | .notEqual => "!="
  | .both => "&&"
  | .either => "||"

/-- the level of the expressions it makes; members and calls are at level 0, signs at level 1 -/
def level : Binary → Nat
  | .multiply | .divide | .remainder => 2
  | .add | .subtract => 3
  | .less | .lessEqual | .greater | .greaterEqual => 4
  | .equal | .notEqual => 5
  | .both => 6
  | .either => 7

def all : List Binary :=
  [.multiply, .divide, .remainder, .add, .subtract, .less, .lessEqual, .greater, .greaterEqual, .equal, .notEqual, .both,
   .either]

def ofSymbol? (symbol : String) : Option Binary := all.find? fun op => op.symbol == symbol

theorem one_lt_level (op : Binary) : 1 < op.level := by
  cases op <;> decide

def regroupable : Binary → Bool
  | .both | .either => true
  | _ => false

end Binary

def topLevel : Nat := 7

/-! ## The grammar -/

/-- what a list of words may be -/
inductive Phrase where
  | expression (level : Nat) (e : Expr)
  | arguments (es : List Expr)

/-- the words are the phrase -/
inductive Derives : Phrase → List Token → Prop where
  | number (literal : String) : Derives (.expression 0 (.number literal)) [.number literal]
  | name (letters : String) : Derives (.expression 0 (.name letters)) [.name letters]
  | text (contents : String) : Derives (.expression 0 (.text contents)) [.text contents]
  | group {e : Expr} {ts : List Token} (h : Derives (.expression topLevel e) ts) :
    Derives (.expression 0 e) (.symbol "(" :: (ts ++ [.symbol ")"]))
  | member {e : Expr} {ts : List Token} (field : String) (h : Derives (.expression 0 e) ts) :
    Derives (.expression 0 (.member e field)) (ts ++ [.symbol ".", .name field])
  | call {f : Expr} {es : List Expr} {ts us : List Token} (hf : Derives (.expression 0 f) ts)
    (hes : Derives (.arguments es) us) :
    Derives (.expression 0 (.call f es)) (ts ++ .symbol "(" :: (us ++ [.symbol ")"]))
  | unary {e : Expr} {ts : List Token} (op : Unary) (h : Derives (.expression 1 e) ts) :
    Derives (.expression 1 (.unary op e)) (.symbol op.symbol :: ts)
  | binary {n : Nat} {x y : Expr} {ts us : List Token} (op : Binary) (hn : op.level = n + 1)
    (hx : Derives (.expression (n + 1) x) ts) (hy : Derives (.expression n y) us) :
    Derives (.expression (n + 1) (.binary op x y)) (ts ++ .symbol op.symbol :: us)
  | looser {n : Nat} {e : Expr} {ts : List Token} (h : Derives (.expression n e) ts) :
    Derives (.expression (n + 1) e) ts
  | noArguments : Derives (.arguments []) []
  | oneArgument {e : Expr} {ts : List Token} (h : Derives (.expression topLevel e) ts) : Derives (.arguments [e]) ts
  | moreArguments {e e' : Expr} {es : List Expr} {ts us : List Token} (h : Derives (.expression topLevel e) ts)
    (hes : Derives (.arguments (e' :: es)) us) :
    Derives (.arguments (e :: e' :: es)) (ts ++ .symbol "," :: us)

theorem Derives.looser_of_le {n m : Nat} {e : Expr} {ts : List Token} (h : Derives (.expression n e) ts) (hnm : n ≤ m) :
    Derives (.expression m e) ts := by
  induction hnm with
  | refl => exact h
  | step _ ih => exact .looser ih

/-- trees that differ only in how runs of `&&` or of `||` are grouped: the second is grouped further to the right -/
inductive Regroups : Expr → Expr → Prop where
  | refl (e : Expr) : Regroups e e
  | trans {x y z : Expr} (hxy : Regroups x y) (hyz : Regroups y z) : Regroups x z
  | shift {op : Binary} (x y z : Expr) (h : op.regroupable = true) :
    Regroups (.binary op (.binary op x y) z) (.binary op x (.binary op y z))
  | unary {x y : Expr} (op : Unary) (h : Regroups x y) : Regroups (.unary op x) (.unary op y)
  | binary {x x' y y' : Expr} (op : Binary) (hx : Regroups x x') (hy : Regroups y y') :
    Regroups (.binary op x y) (.binary op x' y')
  | call {es es' : List Expr} (f : Expr) (h : List.Forall₂ Regroups es es') : Regroups (.call f es) (.call f es')

/-! ## The reader -/

/-- how a list of words goes on after an expression -/
inductive Next where
  | member (field : String) (rest : List Token)
  | arguments (rest : List Token)
  | operator (op : Binary) (rest : List Token)
  | stop

def next : List Token → Next
  | .symbol "." :: .name field :: rest => .member field rest
  | .symbol "(" :: rest => .arguments rest
  | .symbol s :: rest =>
    match Binary.ofSymbol? s with
    | some op => .operator op rest
    | none => .stop
  | _ => .stop

/-- the words do not go on with an expression of level `n` -/
def Stops (n : Nat) (ts : List Token) : Prop :=
  match next ts with
  | .member _ _ | .arguments _ => False
  | .operator op _ => n < op.level
  | .stop => True

/-- the sign or `!` that the words start with -/
def leadingUnary? : List Token → Option Unary
  | .symbol "!" :: _ => some .not
  | .symbol "+" :: _ => some .plus
  | .symbol "-" :: _ => some .minus
  | _ => none

/-- what the reader is about to do -/
inductive Task where
  /-- read an expression of a level -/
  | level (n : Nat)
  /-- an expression of a level has been read: see whether it goes on -/
  | after (n : Nat) (e : Expr)
  /-- read arguments up to the closing parenthesis -/
  | arguments

/-- from the words on the left the reader gets the expressions, and the words on the right are left over -/
inductive Parses : Task → List Token → List Expr → List Token → Prop where
  | number {literal : String} {ts rest : List Token} {out : List Expr}
    (h : Parses (.after 0 (.number literal)) ts out rest) : Parses (.level 0) (.number literal :: ts) out rest
  | name {letters : String} {ts rest : List Token} {out : List Expr}
    (h : Parses (.after 0 (.name letters)) ts out rest) : Parses (.level 0) (.name letters :: ts) out rest
  | text {contents : String} {ts rest : List Token} {out : List Expr}
    (h : Parses (.after 0 (.text contents)) ts out rest) : Parses (.level 0) (.text contents :: ts) out rest
  | group {e : Expr} {ts us rest : List Token} {out : List Expr}
    (h : Parses (.level topLevel) ts [e] (.symbol ")" :: us)) (hrest : Parses (.after 0 e) us out rest) :
    Parses (.level 0) (.symbol "(" :: ts) out rest
  | unary {e : Expr} {op : Unary} {t : Token} {ts rest : List Token} (hop : leadingUnary? (t :: ts) = some op)
    (h : Parses (.level 1) ts [e] rest) : Parses (.level 1) (t :: ts) [.unary op e] rest
  | bare {e : Expr} {ts rest : List Token} (hop : leadingUnary? ts = none) (h : Parses (.level 0) ts [e] rest) :
    Parses (.level 1) ts [e] rest
  | climb {n : Nat} {e : Expr} {ts us rest : List Token} {out : List Expr} (h : Parses (.level (n + 1)) ts [e] us)
    (hrest : Parses (.after (n + 2) e) us out rest) : Parses (.level (n + 2)) ts out rest
  | member {e : Expr} {field : String} {ts us rest : List Token} {out : List Expr} (hn : next ts = .member field us)
    (h : Parses (.after 0 (.member e field)) us out rest) : Parses (.after 0 e) ts out rest
  | call {e : Expr} {es : List Expr} {ts us vs rest : List Token} {out : List Expr} (hn : next ts = .arguments us)
    (hes : Parses .arguments us es (.symbol ")" :: vs)) (h : Parses (.after 0 (.call e es)) vs out rest) :
    Parses (.after 0 e) ts out rest
  | operator {n : Nat} {x y : Expr} {op : Binary} {ts us vs rest : List Token} {out : List Expr}
    (hn : next ts = .operator op us) (hop : op.level = n + 1) (hy : Parses (.level n) us [y] vs)
    (h : Parses (.after (n + 1) (.binary op x y)) vs out rest) : Parses (.after (n + 1) x) ts out rest
  | stop {n : Nat} {e : Expr} {ts : List Token} (h : Stops n ts) : Parses (.after n e) ts [e] ts
  | noArguments {ts : List Token} : Parses .arguments (.symbol ")" :: ts) [] (.symbol ")" :: ts)
  | oneArgument {e : Expr} {t : Token} {ts rest : List Token} (ht : t ≠ .symbol ")")
    (h : Parses (.level topLevel) (t :: ts) [e] (.symbol ")" :: rest)) :
    Parses .arguments (t :: ts) [e] (.symbol ")" :: rest)
  | moreArguments {e : Expr} {es : List Expr} {t : Token} {ts us rest : List Token} (ht : t ≠ .symbol ")")
    (h : Parses (.level topLevel) (t :: ts) [e] (.symbol "," :: us)) (hes : Parses .arguments us es rest) :
    Parses .arguments (t :: ts) (e :: es) rest

/-- an expression that goes on with what comes next does not stop there -/
theorem not_stops_of_operator {n : Nat} {op : Binary} {ts us : List Token} (hn : next ts = .operator op us)
    (hop : op.level = n) : ¬ Stops n ts := by
  intro h
  simp only [Stops, hn, hop] at h
  omega

/-- **One result at most.** The reader looks at one word and knows what to do. -/
theorem parses_deterministic {task : Task} {ts rest rest' : List Token} {out out' : List Expr}
    (h : Parses task ts out rest) (h' : Parses task ts out' rest') : out = out' ∧ rest = rest' := by
  induction h generalizing out' rest' with
  | number h ih => cases h' with | number h' => exact ih h'
  | name h ih => cases h' with | name h' => exact ih h'
  | text h ih => cases h' with | text h' => exact ih h'
  | group h hrest ih ihrest =>
    cases h' with
    | group h' hrest' =>
      obtain ⟨he, hu⟩ := ih h'
      cases he
      cases hu
      exact ihrest hrest'
  | unary hop h ih =>
    cases h' with
    | unary hop' h' =>
      obtain ⟨he, hr⟩ := ih h'
      rw [hop] at hop'
      cases he
      cases hop'
      exact ⟨rfl, hr⟩
    | bare hop' h' => rw [hop] at hop'; cases hop'
  | bare hop h ih =>
    cases h' with
    | unary hop' h' => rw [hop] at hop'; cases hop'
    | bare hop' h' => exact ih h'
  | climb h hrest ih ihrest =>
    cases h' with
    | climb h' hrest' =>
      obtain ⟨he, hu⟩ := ih h'
      cases he
      cases hu
      exact ihrest hrest'
  | member hn h ih =>
    cases h' with
    | member hn' h' => rw [hn] at hn'; cases hn'; exact ih h'
    | call hn' hes' h' => rw [hn] at hn'; cases hn'
    | stop hs => simp only [Stops, hn] at hs
  | call hn hes h ihes ih =>
    cases h' with
    | member hn' h' => rw [hn] at hn'; cases hn'
    | call hn' hes' h' =>
      rw [hn] at hn'
      cases hn'
      obtain ⟨he, hr⟩ := ihes hes'
      cases he
      cases hr
      exact ih h'
    | stop hs => simp only [Stops, hn] at hs
  | operator hn hop hy h ihy ih =>
    cases h' with
    | operator hn' hop' hy' h' =>
      rw [hn] at hn'
      cases hn'
      obtain ⟨he, hr⟩ := ihy hy'
      cases he
      cases hr
      exact ih h'
    | stop hs => exact absurd hs (not_stops_of_operator hn hop)
  | stop hs =>
    cases h' with
    | member hn' h' => simp only [Stops, hn'] at hs
    | call hn' hes' h' => simp only [Stops, hn'] at hs
    | operator hn' hop' hy' h' => exact absurd hs (not_stops_of_operator hn' hop')
    | stop hs' => exact ⟨rfl, rfl⟩
  | noArguments =>
    cases h' with
    | noArguments => exact ⟨rfl, rfl⟩
    | oneArgument ht h' => exact absurd rfl ht
    | moreArguments ht h' hes' => exact absurd rfl ht
  | oneArgument ht h ih =>
    cases h' with
    | noArguments => exact absurd rfl ht
    | oneArgument ht' h' =>
      obtain ⟨he, hr⟩ := ih h'
      exact ⟨he, hr⟩
    | moreArguments ht' h' hes' =>
      obtain ⟨he, hr⟩ := ih h'
      exact absurd (List.cons.inj hr).1 (by decide)
  | moreArguments ht h hes ih ihes =>
    cases h' with
    | noArguments => exact absurd rfl ht
    | oneArgument ht' h' =>
      obtain ⟨he, hr⟩ := ih h'
      exact absurd (List.cons.inj hr).1 (by decide)
    | moreArguments ht' h' hes' =>
      obtain ⟨he, hr⟩ := ih h'
      cases he
      cases hr
      obtain ⟨hes, hrest⟩ := ihes hes'
      exact ⟨by rw [hes], hrest⟩

/-! ## The reader finds what the grammar derives -/

/-- a word that an expression of level 0 can start with -/
def Token.Opens : Token → Prop
  | .symbol s => s = "("
  | _ => True

/-- a word that an expression can start with -/
def Token.Begins (t : Token) : Prop := t.Opens ∨ ∃ op : Unary, t = .symbol op.symbol

theorem derives_starts {phrase : Phrase} {ts : List Token} (h : Derives phrase ts) :
    match phrase with
    | .expression 0 _ => ∃ t rest, ts = t :: rest ∧ t.Opens
    | .expression (_ + 1) _ => ∃ t rest, ts = t :: rest ∧ t.Begins
    | .arguments [] => True
    | .arguments (_ :: _) => ∃ t rest, ts = t :: rest ∧ t.Begins := by
  induction h with
  | number literal => exact ⟨_, _, rfl, trivial⟩
  | name letters => exact ⟨_, _, rfl, trivial⟩
  | text contents => exact ⟨_, _, rfl, trivial⟩
  | group h ih => exact ⟨_, _, rfl, rfl⟩
  | member field h ih =>
    obtain ⟨t, rest, rfl, ht⟩ := ih
    exact ⟨t, _, rfl, ht⟩
  | call hf hes ih _ =>
    obtain ⟨t, rest, rfl, ht⟩ := ih
    exact ⟨t, _, rfl, ht⟩
  | unary op h ih => exact ⟨_, _, rfl, .inr ⟨op, rfl⟩⟩
  | binary op hn hx hy ih _ =>
    obtain ⟨t, rest, rfl, ht⟩ := ih
    exact ⟨t, _, rfl, ht⟩
  | @looser n e ts h ih =>
    cases n with
    | zero =>
      obtain ⟨t, rest, rfl, ht⟩ := ih
      exact ⟨t, rest, rfl, .inl ht⟩
    | succ n => exact ih
  | noArguments => trivial
  | oneArgument h ih => exact ih
  | moreArguments h hes ih _ =>
    obtain ⟨t, rest, rfl, ht⟩ := ih
    exact ⟨t, _, rfl, ht⟩

theorem leadingUnary?_symbol (op : Unary) (ts : List Token) : leadingUnary? (.symbol op.symbol :: ts) = some op := by
  cases op <;> rfl

theorem leadingUnary?_of_opens {t : Token} (h : t.Opens) (ts : List Token) : leadingUnary? (t :: ts) = none := by
  cases t with
  | number literal => rfl
  | name letters => rfl
  | text contents => rfl
  | symbol s =>
    have hs : s = "(" := h
    subst hs
    rfl

theorem ne_closing_of_begins {t : Token} (h : t.Begins) : t ≠ .symbol ")" := by
  rintro rfl
  rcases h with h | ⟨op, h⟩
  · have hs : ")" = "(" := h
    exact absurd hs (by decide)
  · cases op <;> exact absurd h (by decide)

theorem next_operator (op : Binary) (ts : List Token) : next (.symbol op.symbol :: ts) = .operator op ts := by
  cases op <;> rfl

theorem Stops.mono {n m : Nat} {ts : List Token} (h : Stops n ts) (hm : m ≤ n) : Stops m ts := by
  unfold Stops at h ⊢
  cases hn : next ts with
  | member field rest => rw [hn] at h; exact h
  | arguments rest => rw [hn] at h; exact h
  | operator op rest => rw [hn] at h; exact Nat.lt_of_le_of_lt hm h
  | stop => trivial

theorem Stops.one {ts : List Token} (h : Stops 0 ts) : Stops 1 ts := by
  unfold Stops at h ⊢
  cases hn : next ts with
  | member field rest => rw [hn] at h; exact h
  | arguments rest => rw [hn] at h; exact h
  | operator op rest => exact op.one_lt_level
  | stop => trivial

theorem stops_closing (n : Nat) (ts : List Token) : Stops n (.symbol ")" :: ts) := trivial

theorem stops_comma (n : Nat) (ts : List Token) : Stops n (.symbol "," :: ts) := trivial

/-- the words do not go on with an expression of a level below `n` -/
def StopsBelow : Nat → List Token → Prop
  | 0, _ => True
  | n + 1, ts => Stops n ts

theorem Stops.below {n : Nat} {ts : List Token} (h : Stops n ts) : StopsBelow n ts := by
  cases n with
  | zero => trivial
  | succ n => exact h.mono (Nat.le_succ n)

/-- the reader, at the words of a phrase followed by others, finds the phrase and goes on from there -/
def Phrase.Found : Phrase → List Token → Prop
  | .expression n e, ts =>
    ∀ us out rest, StopsBelow n us → Parses (.after n e) us out rest → Parses (.level n) (ts ++ us) out rest
  | .arguments es, ts => ∀ us, Parses .arguments (ts ++ .symbol ")" :: us) es (.symbol ")" :: us)

/-- an expression that has been found and does not go on is all that is read -/
theorem Phrase.Found.whole {n : Nat} {e : Expr} {ts us : List Token} (h : (Phrase.expression n e).Found ts)
    (hs : Stops n us) : Parses (.level n) (ts ++ us) [e] us :=
  h us [e] us hs.below (.stop hs)

theorem parses_after_one {e : Expr} {ts rest : List Token} {out : List Expr} (h : Parses (.after 1 e) ts out rest) :
    out = [e] ∧ rest = ts := by
  cases h with
  | operator hn hop hy h =>
    rename_i op _ _
    have hlevel := op.one_lt_level
    omega
  | stop hs => exact ⟨rfl, rfl⟩

theorem parses_of_derives {phrase : Phrase} {ts : List Token} (h : Derives phrase ts) : phrase.Found ts := by
  induction h with
  | number literal => exact fun us out rest _ h => .number h
  | name letters => exact fun us out rest _ h => .name h
  | text contents => exact fun us out rest _ h => .text h
  | @group e ts h ih =>
    intro us out rest _ hafter
    have hin : Parses (.level topLevel) (ts ++ .symbol ")" :: us) [e] (.symbol ")" :: us) :=
      Phrase.Found.whole ih (stops_closing _ us)
    simp only [List.cons_append, List.append_assoc, List.nil_append]
    exact .group hin hafter
  | @member e ts field h ih =>
    intro us out rest _ hafter
    rw [List.append_assoc]
    exact ih _ out rest trivial (.member rfl hafter)
  | @call f es ts us hf hes ihf ihes =>
    intro vs out rest _ hafter
    rw [List.append_assoc]
    have hin : Parses .arguments ((us ++ [.symbol ")"]) ++ vs) es (.symbol ")" :: vs) := by
      rw [List.append_assoc]
      exact ihes vs
    exact ihf _ out rest trivial (.call rfl hin hafter)
  | @unary e ts op h ih =>
    intro us out rest hs hafter
    obtain ⟨rfl, rfl⟩ := parses_after_one hafter
    exact .unary (leadingUnary?_symbol op _) (Phrase.Found.whole ih hs.one)
  | @binary n x y ts us op hn hx hy ihx ihy =>
    intro vs out rest hs hafter
    rw [List.append_assoc]
    refine ihx _ out rest ?_ (.operator (next_operator op _) hn (Phrase.Found.whole ihy hs) hafter)
    simp only [List.cons_append, StopsBelow, Stops, next_operator]
    omega
  | @looser n e ts h ih =>
    intro us out rest hs hafter
    cases n with
    | zero =>
      obtain ⟨rfl, rfl⟩ := parses_after_one hafter
      obtain ⟨t, ts', rfl, ht⟩ := derives_starts h
      exact .bare (leadingUnary?_of_opens ht _) (Phrase.Found.whole ih hs)
    | succ n => exact .climb (Phrase.Found.whole ih hs) hafter
  | noArguments => exact fun us => .noArguments
  | @oneArgument e ts h ih =>
    intro us
    obtain ⟨t, ts', rfl, ht⟩ := derives_starts h
    exact .oneArgument (ne_closing_of_begins ht) (Phrase.Found.whole ih (stops_closing _ us))
  | @moreArguments e e' es ts us h hes ih ihes =>
    intro vs
    obtain ⟨t, ts', rfl, ht⟩ := derives_starts h
    rw [List.append_assoc]
    exact .moreArguments (ne_closing_of_begins ht) (Phrase.Found.whole ih (stops_comma _ _)) (ihes vs)

/-- **One tree at most.** -/
theorem derives_unique {e e' : Expr} {ts : List Token} (h : Derives (.expression topLevel e) ts)
    (h' : Derives (.expression topLevel e') ts) : e = e' := by
  have hp : Parses (.level topLevel) (ts ++ []) [e] [] := Phrase.Found.whole (parses_of_derives h) trivial
  have hp' : Parses (.level topLevel) (ts ++ []) [e'] [] := Phrase.Found.whole (parses_of_derives h') trivial
  obtain ⟨he, -⟩ := parses_deterministic hp hp'
  exact List.singleton_inj.1 he

end BlockSketch
