/-
Braces and parentheses in code, and lines that follow them.

`Place` is where a reader of code is: outside or inside a string literal, with so many braces and parentheses open.
`Leads p cs q` says that reading `cs` leads from `p` to `q` and never closes what is not open. `Laid w floor d lines d'`
says of lines that come with `d` braces open and leave `d'` open that each of them stands where the braces put it: it is
indented by `w` blanks for every brace that is open before it, for one less if it starts by closing one. At least
`floor` braces stay open throughout, and parentheses are closed on the line on which they are opened.

Results:
- `Leads.shift`: what is open around a piece of code does not matter;
- `Laid.indent`: lines that are indented by one level more follow one brace more;
- `Laid.split`: the place before each of the lines;
- `indentFrom_unlines`, `indentFrom_unended`: indenting a text indents its lines.
-/
import BlockSketch.Proofs.Outline

namespace BlockSketch.Nesting

open BlockSketch.Text

/-! ## Reading code -/

/-- outside of string literals, in one, or behind a backslash in one -/
inductive Mode where
  | code
  | text
  | escape
  deriving DecidableEq, Repr

/-- where a reader of code is, with the braces and parentheses that are open there -/
structure Place where
  mode : Mode
  braces : Nat
  parens : Nat
  deriving DecidableEq, Repr

def start : Place := ⟨.code, 0, 0⟩

/-- one bracket less, if there is one -/
def close? : Nat → Option Nat
  | 0 => none
  | n + 1 => some n

/-- one character further; in a string literal, brackets are characters like others -/
def Place.step? (p : Place) (c : Char) : Option Place :=
  match p.mode with
  | .escape => some { p with mode := .text }
  | .text => some { p with mode := if c = '"' then .code else if c = '\\' then .escape else .text }
  | .code =>
    if c = '"' then some { p with mode := .text }
    else if c = '\x7b' then some { p with braces := p.braces + 1 }
    else if c = '\x7d' then (close? p.braces).map fun n => { p with braces := n }
    else if c = '(' then some { p with parens := p.parens + 1 }
    else if c = ')' then (close? p.parens).map fun n => { p with parens := n }
    else some p

/-- reading leads from one place to another and never closes what is not open -/
def Leads (p : Place) (cs : List Char) (q : Place) : Prop := cs.foldlM Place.step? p = some q

instance (p : Place) (cs : List Char) (q : Place) : Decidable (Leads p cs q) :=
  inferInstanceAs (Decidable (_ = _))

variable {p q r : Place} {cs xs ys : List Char}

theorem leads_nil (p : Place) : Leads p [] p := rfl

theorem leads_cons {c : Char} : Leads p (c :: cs) r ↔ ∃ q, p.step? c = some q ∧ Leads q cs r := by
  simp [Leads, List.foldlM_cons, Option.bind_eq_some_iff]

theorem Leads.append (h : Leads p xs q) (h' : Leads q ys r) : Leads p (xs ++ ys) r := by
  rw [Leads, List.foldlM_append, h]
  exact h'

/-- the same place with `i` braces and `j` parentheses more around it -/
def Place.within (p : Place) (i j : Nat) : Place := ⟨p.mode, p.braces + i, p.parens + j⟩

theorem close?_add {n m : Nat} (h : close? n = some m) (k : Nat) : close? (n + k) = some (m + k) := by
  cases n with
  | zero => cases h
  | succ n =>
    cases h
    rw [Nat.succ_add]
    rfl

theorem step?_within {c : Char} (h : p.step? c = some q) (i j : Nat) :
    (p.within i j).step? c = some (q.within i j) := by
  obtain ⟨mode, braces, parens⟩ := p
  cases mode with
  | escape => cases h; rfl
  | text => cases h; rfl
  | code =>
    simp only [Place.step?, Place.within] at h ⊢
    split_ifs at h ⊢
    · cases h; rfl
    · cases h; simp [Nat.add_right_comm]
    · obtain ⟨n, hn, rfl⟩ := Option.map_eq_some_iff.1 h
      rw [close?_add hn]
      rfl
    · cases h; simp [Nat.add_right_comm]
    · obtain ⟨n, hn, rfl⟩ := Option.map_eq_some_iff.1 h
      rw [close?_add hn]
      rfl
    · cases h; rfl

/-- what is open around a piece of code does not matter -/
theorem Leads.shift (h : Leads p cs q) (i j : Nat) : Leads (p.within i j) cs (q.within i j) := by
  induction cs generalizing p with
  | nil =>
    cases h
    exact leads_nil _
  | cons c rest ih =>
    obtain ⟨next, hstep, hrest⟩ := leads_cons.1 h
    exact leads_cons.2 ⟨_, step?_within hstep i j, ih hrest⟩

/-! ## Code on one line -/

def InLine (p : Place) (cs : List Char) (q : Place) : Prop := '\n' ∉ cs ∧ Leads p cs q

instance (p : Place) (cs : List Char) (q : Place) : Decidable (InLine p cs q) :=
  inferInstanceAs (Decidable (_ ∧ _))

theorem InLine.append (h : InLine p xs q) (h' : InLine q ys r) : InLine p (xs ++ ys) r :=
  ⟨by simpa using ⟨h.1, h'.1⟩, h.2.append h'.2⟩

theorem InLine.shift (h : InLine p cs q) (i j : Nat) : InLine (p.within i j) cs (q.within i j) := ⟨h.1, h.2.shift i j⟩

/-- a piece of code on one line that closes all it opens and nothing else -/
abbrev Tidy (cs : List Char) : Prop := InLine start cs start

theorem Tidy.at (h : Tidy cs) (d n : Nat) : InLine ⟨.code, d, n⟩ cs ⟨.code, d, n⟩ := by
  simpa [start, Place.within] using InLine.shift h d n

/-- the characters that mean something to a reader of code -/
def marks : List Char := ['"', '\x7b', '\x7d', '(', ')', '\n']

theorem tidy_of_unmarked (h : ∀ c ∈ cs, c ∉ marks) : Tidy cs := by
  refine ⟨fun hn => h _ hn (by decide), ?_⟩
  induction cs with
  | nil => exact leads_nil start
  | cons c rest ih =>
    have hc := h c List.mem_cons_self
    simp only [marks, List.mem_cons, List.not_mem_nil, or_false, not_or] at hc
    obtain ⟨h1, h2, h3, h4, h5, -⟩ := hc
    -- a reader of code passes over every other character
    refine leads_cons.2 ⟨start, ?_, ih fun x hx => h x (List.mem_cons_of_mem c hx)⟩
    simp [Place.step?, start, h1, h2, h3, h4, h5]

theorem tidy_blanks (n : Nat) : Tidy (List.replicate n ' ') := by
  refine tidy_of_unmarked fun c hc => ?_
  rw [List.eq_of_mem_replicate hc]
  decide

theorem leads_literalChar (c : Char) (d n : Nat) : Leads ⟨.text, d, n⟩ (Library.literalChar c) ⟨.text, d, n⟩ := by
  unfold Library.literalChar
  split
  · rfl
  · rfl
  · rfl
  · rfl
  · rename_i hquote hslash _ _
    simp [Leads, Place.step?, if_neg hquote, if_neg hslash]

theorem tidy_literal (value : String) : Tidy (Library.literal value).toList := by
  constructor
  · obtain ⟨body, hbody, hn⟩ := quoted_literal value
    rw [hbody]
    simpa using hn
  · have hchars : Leads ⟨.text, 0, 0⟩ (value.toList.flatMap Library.literalChar) ⟨.text, 0, 0⟩ := by
      induction value.toList with
      | nil => exact leads_nil _
      | cons c rest ih =>
        rw [List.flatMap_cons]
        exact (leads_literalChar c 0 0).append ih
    have hopen : Leads start ['"'] ⟨.text, 0, 0⟩ := rfl
    have hclose : Leads ⟨.text, 0, 0⟩ ['"'] start := rfl
    rw [Library.literal_toList]
    exact hopen.append (hchars.append hclose)

/-! ## Lines -/

def unlines (lines : List (List Char)) : List Char := lines.flatMap (· ++ ['\n'])

@[simp] theorem unlines_nil : unlines [] = [] := rfl

@[simp] theorem unlines_cons (line : List Char) (lines : List (List Char)) :
    unlines (line :: lines) = line ++ '\n' :: unlines lines := by
  simp [unlines]

@[simp] theorem unlines_append (lines lines' : List (List Char)) :
    unlines (lines ++ lines') = unlines lines ++ unlines lines' := by
  simp [unlines]

/-- the line is indented by `w` blanks for every brace of the `d` that are open before it, for one less if it starts by
closing one -/
def Stands (w d : Nat) (line : List Char) : Prop :=
  ∃ level c rest, c ≠ ' ' ∧ line = List.replicate (w * level) ' ' ++ c :: rest ∧
    d = if c = '\x7d' then level + 1 else level

/-- the text ends in something to be seen -/
def EndsFilled (line : List Char) : Prop := line.getLast?.any (fun c => !isBlank c) = true

instance (line : List Char) : Decidable (EndsFilled line) := inferInstanceAs (Decidable (_ = true))

theorem endsFilled_iff {line : List Char} : EndsFilled line ↔ ∃ front c, line = front ++ [c] ∧ isBlank c = false := by
  rcases List.eq_nil_or_concat' line with rfl | ⟨front, c, rfl⟩
  · simp [EndsFilled]
  · simp [EndsFilled]

/-- a line that comes with `d` braces open and leaves `d'` open; empty lines are for the top level -/
structure LineAt (w d : Nat) (line : List Char) (d' : Nat) : Prop where
  inLine : InLine ⟨.code, d, 0⟩ line ⟨.code, d', 0⟩
  filled : line = [] → d = 0
  stands : line ≠ [] → Stands w d line
  ending : line ≠ [] → EndsFilled line

/-- lines that come with `d` braces open and leave `d'` open, with no less than `floor` open before each of them -/
inductive Laid (w floor : Nat) : Nat → List (List Char) → Nat → Prop where
  | nil {d : Nat} (hd : floor ≤ d) : Laid w floor d [] d
  | cons {d e d' : Nat} {line : List Char} {lines : List (List Char)} (hd : floor ≤ d) (h : LineAt w d line e)
    (hs : Laid w floor e lines d') : Laid w floor d (line :: lines) d'

variable {w floor d e d' : Nat} {line : List Char} {lines lines' : List (List Char)}

theorem LineAt.blank (w : Nat) : LineAt w 0 [] 0 where
  inLine := by decide
  filled _ := rfl
  stands h := absurd rfl h
  ending h := absurd rfl h

theorem LineAt.laid (h : LineAt w d line d') : Laid w 0 d [line] d' :=
  .cons (Nat.zero_le d) h (.nil (Nat.zero_le d'))

theorem Laid.append (h : Laid w floor d lines e) (h' : Laid w floor e lines' d') :
    Laid w floor d (lines ++ lines') d' := by
  induction h with
  | nil _ => exact h'
  | cons hd hline _ ih => exact .cons hd hline (ih h')

theorem Laid.lower (h : Laid w floor d lines d') (low : Nat) (hlow : low ≤ floor) : Laid w low d lines d' := by
  induction h with
  | nil hd => exact .nil (Nat.le_trans hlow hd)
  | cons hd hline _ ih => exact .cons (Nat.le_trans hlow hd) hline ih

theorem leads_newline (d n : Nat) : Leads ⟨.code, d, n⟩ ['\n'] ⟨.code, d, n⟩ := rfl

theorem Laid.leads (h : Laid w floor d lines d') : Leads ⟨.code, d, 0⟩ (unlines lines) ⟨.code, d', 0⟩ := by
  induction h with
  | nil _ => exact leads_nil _
  | @cons d e d' line lines _ hline _ ih =>
    rw [unlines_cons]
    exact hline.inLine.2.append ((leads_newline e 0).append ih)

theorem Laid.whole (h : Laid w floor d lines d') : ∀ line ∈ lines, '\n' ∉ line := by
  induction h with
  | nil _ => simp
  | cons _ hline _ ih => simpa using ⟨hline.inLine.1, ih⟩

theorem Laid.endsFilled (h : Laid w floor d lines d') (hne : [] ∉ lines) : ∀ line ∈ lines, EndsFilled line := by
  induction h with
  | nil _ => simp
  | @cons d e d' line lines _ hline _ ih =>
    simp only [List.mem_cons, not_or] at hne
    simpa using ⟨hline.ending (Ne.symm hne.1), ih hne.2⟩

/-- where a reader is before and after each of the lines -/
theorem Laid.split {before after : List (List Char)} (h : Laid w floor d (before ++ line :: after) d') :
    ∃ e e', floor ≤ e ∧ Leads ⟨.code, d, 0⟩ (unlines before) ⟨.code, e, 0⟩ ∧ LineAt w e line e' := by
  induction before generalizing d with
  | nil =>
    cases h with
    | cons hd hline _ => exact ⟨_, _, hd, leads_nil _, hline⟩
  | cons first rest ih =>
    cases h with
    | cons hd hfirst hs =>
      obtain ⟨e, e', hfloor, hleads, hline⟩ := ih hs
      refine ⟨e, e', hfloor, ?_, hline⟩
      rw [unlines_cons]
      exact hfirst.inLine.2.append ((leads_newline _ 0).append hleads)

/-! ## Indentation -/

def indented (w : Nat) (line : List Char) : List Char := List.replicate w ' ' ++ line

theorem Stands.indent (h : Stands w d line) : Stands w (d + 1) (indented w line) := by
  obtain ⟨level, c, rest, hc, rfl, rfl⟩ := h
  refine ⟨level + 1, c, rest, hc, ?_, ?_⟩
  · rw [indented, ← List.append_assoc, List.replicate_append_replicate, Nat.mul_succ, Nat.add_comm]
  · split <;> rfl

theorem EndsFilled.append {front : List Char} (h : EndsFilled line) : EndsFilled (front ++ line) := by
  obtain ⟨before, c, rfl, hc⟩ := endsFilled_iff.1 h
  exact endsFilled_iff.2 ⟨front ++ before, c, by rw [List.append_assoc], hc⟩

theorem LineAt.indent (h : LineAt w d line d') (hne : line ≠ []) : LineAt w (d + 1) (indented w line) (d' + 1) where
  inLine := ((tidy_blanks w).at (d + 1) 0).append (h.inLine.shift 1 0)
  filled hnil := absurd (List.append_eq_nil_iff.1 hnil).2 hne
  stands _ := (h.stands hne).indent
  ending _ := (h.ending hne).append

/-- lines that are indented by one level more follow one brace more -/
theorem Laid.indent (h : Laid w floor d lines d') (hne : [] ∉ lines) :
    Laid w (floor + 1) (d + 1) (lines.map (indented w)) (d' + 1) := by
  induction h with
  | nil hd => exact .nil (Nat.succ_le_succ hd)
  | cons hd hline _ ih =>
    simp only [List.mem_cons, not_or] at hne
    exact .cons (Nat.succ_le_succ hd) (hline.indent (Ne.symm hne.1)) (ih hne.2)

theorem indented_ne_nil (hne : [] ∉ lines) : [] ∉ lines.map (indented w) := by
  intro hmem
  obtain ⟨line, hline, hnil⟩ := List.mem_map.1 hmem
  obtain rfl : line = [] := (List.append_eq_nil_iff.1 hnil).2
  exact hne hline

theorem EndsFilled.last (h : EndsFilled line) : ∃ front c, line = front ++ [c] ∧ c ≠ '\n' ∧ c ≠ '\r' := by
  obtain ⟨front, c, rfl, hc⟩ := endsFilled_iff.1 h
  refine ⟨front, c, rfl, ?_, ?_⟩
  · rintro rfl
    cases hc
  · rintro rfl
    cases hc

theorem indentFrom_unlines (hwhole : ∀ line ∈ lines, '\n' ∉ line) (hend : ∀ line ∈ lines, EndsFilled line) :
    indentFrom w true (unlines lines) = unlines (lines.map (indented w)) := by
  induction lines with
  | nil => rfl
  | cons line rest ih =>
    -- the last character of the line cannot be taken for a part of its ending
    obtain ⟨front, c, rfl, hn, hr⟩ := (hend line List.mem_cons_self).last
    have hfront : '\n' ∉ front := fun hmem => hwhole _ List.mem_cons_self (List.mem_append_left _ hmem)
    have hrest := ih (fun l hl => hwhole l (List.mem_cons_of_mem _ hl)) fun l hl => hend l (List.mem_cons_of_mem _ hl)
    rw [unlines_cons, List.append_assoc, List.singleton_append, indentFrom_within w true hfront hn hr]
    simp [indentFrom, indented, hrest]

/-- a newline at the end of a text does not show when it is indented -/
theorem indentFrom_newline (w : Nat) (first : Bool) (front : List Char) {c : Char} (hn : c ≠ '\n') (hr : c ≠ '\r') :
    indentFrom w first (front ++ [c] ++ ['\n']) = indentFrom w first (front ++ [c]) := by
  induction front generalizing first with
  | nil => simp [indentFrom, hn, hr]
  | cons x xs ih =>
    have hhead : (xs ++ [c] ++ ['\n']).head? = (xs ++ [c]).head? := by cases xs <;> rfl
    rw [List.cons_append, List.cons_append, indentFrom, indentFrom, hhead, ih true, ih first, ih false]

/-- the text of lines that all end in something to be seen, without the last newline -/
theorem endsFilled_of_unlines (hne : lines ≠ []) (hend : ∀ line ∈ lines, EndsFilled line)
    (h : cs ++ ['\n'] = unlines lines) : EndsFilled cs := by
  obtain ⟨before, last, rfl⟩ := (List.eq_nil_or_concat' lines).resolve_left hne
  have hcs : cs = unlines before ++ last := by simpa [← List.append_assoc] using h
  rw [hcs]
  exact (hend last (by simp)).append

theorem indentFrom_unended (hne : lines ≠ []) (hwhole : ∀ line ∈ lines, '\n' ∉ line)
    (hend : ∀ line ∈ lines, EndsFilled line) (h : cs ++ ['\n'] = unlines lines) :
    indentFrom w true cs = unlines (lines.map (indented w)) := by
  obtain ⟨front, c, rfl, hn, hr⟩ := (endsFilled_of_unlines hne hend h).last
  rw [← indentFrom_newline w true front hn hr, h, indentFrom_unlines hwhole hend]

end BlockSketch.Nesting
