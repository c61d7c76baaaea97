/-
The words of an expression, as a compiler takes them from a text.

Words are taken as long as possible: `scan?` reads character by character and ends a word only before a character that
cannot go on with it. Numbers are what a preprocessor takes for one, names are letters, digits and underscores, string
literals are read with their escapes, and symbols grow as long as a longer symbol exists, so that `--` is never two
signs and `//` is never two strokes.

Results:
- `scan?_append`: in front of a blank, a parenthesis or a comma every word ends, whatever it is;
- `scan?_symbol`, `scan?_name`, `scan?_member`, `scan?_literal`: how the pieces of generated code are scanned.
-/
import BlockSketch.Library.Math
import BlockSketch.Library.TextLiteral
import Mathlib.Data.List.TakeDrop

namespace BlockSketch

/-- a word of an expression -/
inductive Token where
  | number (literal : String)
  | name (letters : String)
  | text (contents : String)
  | symbol (characters : String)
  deriving DecidableEq, Repr

namespace Scanner

/-! ## The machine -/

/-- what is being read -/
inductive Reading where
  | nothing
  | number (read : List Char)
  | name (read : List Char)
  | text (read : List Char)
  /-- a string literal after a backslash -/
  | escape (read : List Char)
  | symbol (read : List Char)
  deriving DecidableEq, Repr

/-- the characters that stand between words and mean nothing -/
def blanks : List Char := [' ', '\t', '\n', '\r']

def symbolStarts : List Char :=
  ['(', ')', '[', ']', '\x7b', '\x7d', ',', ';', ':', '?', '.', '+', '-', '*', '/', '%', '!', '~', '&', '|', '^', '<', '>',
   '=', '#']

/-- the characters that make a longer symbol of one that has been read -/
def followers : List Char → List Char
  | ['+'] => ['+', '=']
  | ['-'] => ['-', '=', '>']
  | ['/'] => ['=', '/', '*']
  | ['%'] => ['=', '>', ':']
  | ['<'] => ['=', '<', ':', '%']
  | ['>'] => ['=', '>']
  | ['&'] => ['=', '&']
  | ['|'] => ['=', '|']
  | [':'] => [':', '>']
  | ['#'] => ['#']
  | ['.'] => ['*']
  | ['*'] | ['!'] | ['='] | ['^'] | ['<', '<'] | ['>', '>'] => ['=']
  | ['<', '='] => ['>']
  | ['-', '>'] => ['*']
  | _ => []

/-- what a character after a backslash stands for in a string literal -/
def escapes : List (Char × Char) := [('n', '\n'), ('t', '\t'), ('r', '\r'), ('"', '"'), ('\\', '\\'), ('?', '?')]

def isWordChar (c : Char) : Bool := c.isAlphanum || c == '_'

def start? (c : Char) : Option Reading :=
  if blanks.contains c then some .nothing
  else if c.isDigit then some (.number [c])
  else if isWordChar c then some (.name [c])
  else if c == '"' then some (.text [])
  else if symbolStarts.contains c then some (.symbol [c])
  else none

/-- a character that goes on with the word that is being read; string literals have their own rules -/
def extend? : Reading → Char → Option Reading
  | .number cs, c =>
    if isWordChar c || c == '.' || ((c == '+' || c == '-') && ['e', 'E', 'p', 'P'].any (cs.getLast? == some ·)) then
      some (.number (cs ++ [c]))
    else none
  | .name cs, c => if isWordChar c then some (.name (cs ++ [c])) else none
  | .symbol cs, c =>
    if cs == ['.'] && c.isDigit then some (.number (cs ++ [c]))
    else if (followers cs).contains c then some (.symbol (cs ++ [c]))
    else none
  | _, _ => none

/-- the word that has been read, if it may end here -/
def finish? : Reading → Option (List Token)
  | .nothing => some []
  | .number cs => some [.number (String.ofList cs)]
  | .name cs => some [.name (String.ofList cs)]
  | .symbol cs => some [.symbol (String.ofList cs)]
  | .text _ | .escape _ => none

/-- read one character: the word that ends before it, and what is being read after it -/
def step? (reading : Reading) (c : Char) : Option (List Token × Reading) :=
  match reading with
  | .text cs =>
    if c == '"' then some ([.text (String.ofList cs)], .nothing)
    else if c == '\\' then some ([], .escape cs)
    else if c == '\n' then none
    else some ([], .text (cs ++ [c]))
  | .escape cs => (escapes.lookup c).map fun d => ([], .text (cs ++ [d]))
  | _ =>
    match extend? reading c with
    | some longer => some ([], longer)
    | none => (finish? reading).bind fun word => (start? c).map fun next => (word, next)

/-- read characters: the words that end before the last, and what is being read then -/
def run? : Reading → List Char → Option (List Token × Reading)
  | reading, [] => some ([], reading)
  | reading, c :: rest =>
    (step? reading c).bind fun (words, next) => (run? next rest).map fun (others, last) => (words ++ others, last)

def scan? (cs : List Char) : Option (List Token) :=
  (run? .nothing cs).bind fun (words, last) => (finish? last).map (words ++ ·)

/-! ## Reading in pieces -/

theorem run?_append (reading : Reading) (xs ys : List Char) :
    run? reading (xs ++ ys) =
      (run? reading xs).bind fun (words, next) => (run? next ys).map fun (others, last) => (words ++ others, last) := by
  induction xs generalizing reading with
  | nil =>
    simp only [List.nil_append, run?, Option.bind_some]
    cases run? reading ys with
    | none => rfl
    | some result => rfl
  | cons c rest ih =>
    simp only [List.cons_append, run?]
    cases step? reading c with
    | none => rfl
    | some result =>
      obtain ⟨words, next⟩ := result
      simp only [Option.bind_some, ih]
      cases run? next rest with
      | none => rfl
      | some result =>
        obtain ⟨words', next'⟩ := result
        simp only [Option.bind_some, Option.map_some]
        cases run? next' ys with
        | none => rfl
        | some result => simp

theorem run?_cons_of_step {reading next last : Reading} {c : Char} {rest : List Char} {words others : List Token}
    (hs : step? reading c = some (words, next)) (hr : run? next rest = some (others, last)) :
    run? reading (c :: rest) = some (words ++ others, last) := by
  simp only [run?, hs, Option.bind_some, hr, Option.map_some]

theorem run?_append_of_run {reading next last : Reading} {xs ys : List Char} {words others : List Token}
    (hx : run? reading xs = some (words, next)) (hy : run? next ys = some (others, last)) :
    run? reading (xs ++ ys) = some (words ++ others, last) := by
  simp only [run?_append, hx, Option.bind_some, hy, Option.map_some]

/-- the characters before which every word ends -/
def separators : List Char := [' ', '(', ')', ',']

theorem followers_separator (cs : List Char) {c : Char} (h : c ∈ separators) : (followers cs).contains c = false := by
  simp only [separators, List.mem_cons, List.not_mem_nil, or_false] at h
  rcases h with rfl | rfl | rfl | rfl <;> (unfold followers; split <;> decide)

theorem extend?_separator (reading : Reading) {c : Char} (h : c ∈ separators) : extend? reading c = none := by
  have hfollow := fun cs => followers_separator cs h
  simp only [separators, List.mem_cons, List.not_mem_nil, or_false] at h
  cases reading with
  | nothing => rfl
  | text cs => rfl
  | escape cs => rfl
  | number cs => rcases h with rfl | rfl | rfl | rfl <;> rfl
  | name cs => rcases h with rfl | rfl | rfl | rfl <;> rfl
  | symbol cs =>
    have hdigit : c.isDigit = false := by rcases h with rfl | rfl | rfl | rfl <;> rfl
    simp only [extend?, hdigit, hfollow, Bool.and_false]
    rfl

/-- where a word may end and cannot go on, it ends -/
theorem step?_of_not_extend {reading : Reading} {word : List Token} {c : Char} (hw : finish? reading = some word)
    (hc : extend? reading c = none) : step? reading c = (start? c).map fun next => (word, next) := by
  cases reading with
  | text cs => cases hw
  | escape cs => cases hw
  | nothing => simp only [step?, hc, hw, Option.bind_some]
  | number cs => simp only [step?, hc, hw, Option.bind_some]
  | name cs => simp only [step?, hc, hw, Option.bind_some]
  | symbol cs => simp only [step?, hc, hw, Option.bind_some]

/-- a text is scanned in two pieces if the first piece ends in a word that the second cannot go on with -/
theorem scan?_break {xs ys : List Char} {words last : List Token} {reading : Reading} {c : Char}
    (hx : run? .nothing xs = some (words, reading)) (hl : finish? reading = some last) (hc : extend? reading c = none) :
    scan? (xs ++ c :: ys) = (scan? (c :: ys)).map (words ++ last ++ ·) := by
  have hstart : step? .nothing c = (start? c).map fun next => ([], next) := step?_of_not_extend rfl rfl
  simp only [scan?, run?_append, hx, Option.bind_some, run?, step?_of_not_extend hl hc, hstart]
  cases start? c with
  | none => rfl
  | some next =>
    simp only [Option.map_some, Option.bind_some]
    cases run? next ys with
    | none => rfl
    | some result =>
      obtain ⟨others, reading'⟩ := result
      simp only [Option.map_some, Option.bind_some]
      cases finish? reading' with
      | none => rfl
      | some word => simp

theorem scan?_eq_some {cs : List Char} {ts : List Token} (h : scan? cs = some ts) :
    ∃ words reading last,
      run? .nothing cs = some (words, reading) ∧ finish? reading = some last ∧ words ++ last = ts := by
  simp only [scan?, Option.bind_eq_some_iff, Option.map_eq_some_iff] at h
  obtain ⟨⟨words, reading⟩, hrun, last, hlast, heq⟩ := h
  exact ⟨words, reading, last, hrun, hlast, heq⟩

/-- in front of a separator every word ends -/
theorem scan?_append {xs ys : List Char} {ts us : List Token} {c : Char} (hc : c ∈ separators)
    (hx : scan? xs = some ts) (hy : scan? (c :: ys) = some us) : scan? (xs ++ c :: ys) = some (ts ++ us) := by
  obtain ⟨words, reading, last, hrun, hlast, rfl⟩ := scan?_eq_some hx
  rw [scan?_break hrun hlast (extend?_separator reading hc), hy]
  rfl

theorem scan?_space (ys : List Char) : scan? (' ' :: ys) = scan? ys := by
  have hstep : step? .nothing ' ' = some ([], .nothing) := rfl
  simp only [scan?, run?, hstep, Option.bind_some]
  cases run? .nothing ys with
  | none => rfl
  | some result => rfl

theorem scan?_spaced {xs ys : List Char} {ts us : List Token} (hx : scan? xs = some ts) (hy : scan? ys = some us) :
    scan? (xs ++ ' ' :: ys) = some (ts ++ us) :=
  scan?_append (by decide) hx (by rw [scan?_space, hy])

/-! ## The pieces of generated code -/

theorem scan?_symbol {s c : Char} {ys : List Char} {us : List Token} (hs : start? s = some (.symbol [s]))
    (hdot : s = '.' → c.isDigit = false) (hc : (followers [s]).contains c = false) (hy : scan? (c :: ys) = some us) :
    scan? (s :: c :: ys) = some (.symbol (String.ofList [s]) :: us) := by
  have hrun : run? .nothing [s] = some ([], .symbol [s]) := by
    have hstep : step? .nothing s = some ([], .symbol [s]) := by rw [step?_of_not_extend rfl rfl, hs]; rfl
    simp only [run?, hstep, Option.bind_some, Option.map_some, List.append_nil]
  have hnumber : (([s] == ['.']) && c.isDigit) = false := by
    by_cases h : s = '.'
    · rw [hdot h, Bool.and_false]
    · simp [h]
  have hext : extend? (.symbol [s]) c = none := by
    simp only [extend?, hnumber, hc]
    rfl
  have h := @scan?_break [s] ys _ _ _ c hrun rfl hext
  rw [hy] at h
  exact h

theorem run?_name {cs rest : List Char} (h : rest.all isWordChar = true) :
    run? (.name cs) rest = some ([], .name (cs ++ rest)) := by
  induction rest generalizing cs with
  | nil => simp [run?]
  | cons c rest ih =>
    rw [List.all_cons, Bool.and_eq_true] at h
    have hstep : step? (.name cs) c = some ([], .name (cs ++ [c])) := by simp [step?, extend?, h.1]
    have hrest := run?_cons_of_step hstep (ih h.2)
    rw [List.append_assoc] at hrest
    exact hrest

theorem run?_number {cs rest : List Char} (h : rest.all (fun c => isWordChar c || c == '.') = true) :
    run? (.number cs) rest = some ([], .number (cs ++ rest)) := by
  induction rest generalizing cs with
  | nil => simp [run?]
  | cons c rest ih =>
    rw [List.all_cons, Bool.and_eq_true] at h
    have hstep : step? (.number cs) c = some ([], .number (cs ++ [c])) := by
      simp only [step?, extend?, h.1, Bool.true_or, if_true]
    have hrest := run?_cons_of_step hstep (ih h.2)
    rw [List.append_assoc] at hrest
    exact hrest

theorem start?_digit {c : Char} (h : c.isDigit = true) : start? c = some (.number [c]) := by
  have hb : blanks.contains c = false := by
    cases hc : blanks.contains c with
    | false => rfl
    | true =>
      simp only [blanks, List.contains_cons, List.contains_nil, Bool.or_false, Bool.or_eq_true, beq_iff_eq] at hc
      rcases hc with rfl | rfl | rfl | rfl <;> cases h
  rw [start?, hb, h]
  rfl

theorem start?_letter {c : Char} (h : isWordChar c = true) (hd : c.isDigit = false) : start? c = some (.name [c]) := by
  have hb : blanks.contains c = false := by
    cases hc : blanks.contains c with
    | false => rfl
    | true =>
      simp only [blanks, List.contains_cons, List.contains_nil, Bool.or_false, Bool.or_eq_true, beq_iff_eq] at hc
      rcases hc with rfl | rfl | rfl | rfl <;> cases h
  rw [start?, hb, hd, h]
  rfl

/-- letters, digits and underscores after a letter are being read as one name -/
theorem run?_nothing_name {c : Char} {rest : List Char} (h : (c :: rest).all isWordChar = true)
    (hd : c.isDigit = false) : run? .nothing (c :: rest) = some ([], .name (c :: rest)) := by
  rw [List.all_cons, Bool.and_eq_true] at h
  have hstep : step? .nothing c = some ([], .name [c]) := by
    rw [step?_of_not_extend rfl rfl, start?_letter h.1 hd]
    rfl
  exact run?_cons_of_step hstep (run?_name h.2)

theorem scan?_name {c : Char} {rest : List Char} (h : (c :: rest).all isWordChar = true) (hd : c.isDigit = false) :
    scan? (c :: rest) = some [.name (String.ofList (c :: rest))] := by
  rw [scan?, run?_nothing_name h hd]
  rfl

theorem run?_nothing_number {c : Char} {rest : List Char} (hd : c.isDigit = true)
    (h : rest.all (fun c => isWordChar c || c == '.') = true) :
    run? .nothing (c :: rest) = some ([], .number (c :: rest)) := by
  have hstep : step? .nothing c = some ([], .number [c]) := by
    rw [step?_of_not_extend rfl rfl, start?_digit hd]
    rfl
  exact run?_cons_of_step hstep (run?_number h)

theorem scan?_member {c d : Char} {object method : List Char} (ho : (c :: object).all isWordChar = true)
    (hc : c.isDigit = false) (hm : (d :: method).all isWordChar = true) (hd : d.isDigit = false) :
    scan? (c :: object ++ '.' :: d :: method) =
      some [.name (String.ofList (c :: object)), .symbol ".", .name (String.ofList (d :: method))] := by
  have hstar : (followers ['.']).contains d = false := by
    cases h : (followers ['.']).contains d with
    | false => rfl
    | true =>
      simp only [followers, List.contains_cons, List.contains_nil, Bool.or_false, beq_iff_eq] at h
      subst h
      cases hm
  have hpoint := scan?_symbol (s := '.') rfl (fun _ => hd) hstar (scan?_name hm hd)
  rw [scan?_break (run?_nothing_name ho hc) rfl rfl, hpoint]
  rfl

/-- the escaped characters of a text are read as the text -/
theorem run?_literalChars (cs value : List Char) :
    run? (.text cs) (value.flatMap Library.literalChar) = some ([], .text (cs ++ value)) := by
  induction value generalizing cs with
  | nil => simp [run?]
  | cons c rest ih =>
    have hchar : run? (.text cs) (Library.literalChar c) = some ([], .text (cs ++ [c])) := by
      unfold Library.literalChar
      split
      · rfl
      · rfl
      · rfl
      · rfl
      · rename_i hquote hback hline htab
        simp only [run?, step?, beq_eq_false_iff_ne.2 hquote, beq_eq_false_iff_ne.2 hback, beq_eq_false_iff_ne.2 hline]
        rfl
    have hrest := run?_append_of_run hchar (ih (cs ++ [c]))
    rw [List.append_assoc] at hrest
    exact hrest

/-- a string literal is one word, with the text it was made from -/
theorem scan?_literal (value : String) : scan? (Library.literal value).toList = some [.text value] := by
  have hstep : step? .nothing '"' = some ([], .text []) := rfl
  have hend : run? (.text value.toList) ['"'] = some ([.text value], .nothing) := by
    simp [run?, step?, String.ofList_toList]
  have hrun := run?_cons_of_step hstep (run?_append_of_run (run?_literalChars [] value.toList) hend)
  rw [Library.literal_toList, scan?, hrun]
  rfl

/-! ## Numbers -/

theorem isWordChar_digit {c : Char} (h : c.isDigit = true) : isWordChar c = true := by
  simp [isWordChar, Char.isAlphanum, h]

theorem all_number_digits {cs : List Char} (h : cs.all Char.isDigit = true) :
    cs.all (fun c => isWordChar c || c == '.') = true := by
  rw [List.all_eq_true] at h ⊢
  intro c hc
  rw [isWordChar_digit (h c hc), Bool.true_or]

/-- a power of ten goes on with the number in front of it -/
theorem run?_power {cs rest : List Char} {exponent : Int} (h : Decimal.Numeral.readPower? rest = some exponent) :
    run? (.number cs) rest = some ([], .number (cs ++ rest)) := by
  cases rest with
  | nil => simp [run?]
  | cons e tail =>
    simp only [Decimal.Numeral.readPower?] at h
    split at h
    · rename_i he
      have hmark : e = 'e' ∨ e = 'E' := by simpa using he
      have hstep : step? (.number cs) e = some ([], .number (cs ++ [e])) := by
        rcases hmark with rfl | rfl <;> rfl
      have hdigits {ds : List Char} (hds : ¬ (ds.isEmpty || !ds.all Char.isDigit) = true) (read : List Char) :
          run? (.number read) ds = some ([], .number (read ++ ds)) := by
        refine run?_number (all_number_digits ?_)
        simp only [Bool.or_eq_true, not_or, Bool.not_eq_true, Bool.not_eq_false'] at hds
        exact hds.2
      have hsigned {sign : Char} (hs : sign = '-' ∨ sign = '+') :
          step? (.number (cs ++ [e])) sign = some ([], .number (cs ++ [e] ++ [sign])) := by
        have hext : (['e', 'E', 'p', 'P'].any ((cs ++ [e]).getLast? == some ·)) = true := by
          rcases hmark with rfl | rfl <;> simp
        rcases hs with rfl | rfl <;> simp only [step?, extend?, hext] <;> rfl
      have htail : run? (.number (cs ++ [e])) tail = some ([], .number (cs ++ [e] ++ tail)) := by
        unfold Decimal.Numeral.readExponent? at h
        simp only at h
        split at h
        · cases h
        · rename_i hds
          unfold Decimal.takeSign at hds
          split at hds
          · have hr := run?_cons_of_step (hsigned (.inl rfl)) (hdigits hds _)
            simpa using hr
          · have hr := run?_cons_of_step (hsigned (.inr rfl)) (hdigits hds _)
            simpa using hr
          · exact hdigits hds _
      have hr := run?_cons_of_step hstep htail
      simpa using hr
    · cases h

/-- a point, digits and a power of ten go on with the digits in front of them -/
theorem run?_fraction {cs rest : List Char} {exponent : Int}
    (h : Decimal.Numeral.readPower? (Decimal.Numeral.takeFraction rest).2 = some exponent) :
    run? (.number cs) rest = some ([], .number (cs ++ rest)) := by
  unfold Decimal.Numeral.takeFraction at h
  split at h
  · rename_i tail
    have hdigits : run? (.number cs) ('.' :: (tail.span Char.isDigit).1) =
        some ([], .number (cs ++ '.' :: (tail.span Char.isDigit).1)) := by
      refine run?_number ?_
      rw [List.all_cons, all_number_digits (by simp [List.span_eq_takeWhile_dropWhile, List.all_takeWhile])]
      rfl
    have hr := run?_append_of_run hdigits (run?_power h)
    have hsplit : '.' :: (tail.span Char.isDigit).1 ++ (tail.span Char.isDigit).2 = '.' :: tail := by
      rw [List.span_eq_takeWhile_dropWhile, List.cons_append, List.takeWhile_append_dropWhile]
    rw [List.append_assoc, hsplit] at hr
    exact hr
  · exact run?_power h

/-- a numeral that starts with a point is one word -/
theorem run?_point {tail : List Char} {exponent : Int} (hne : (tail.span Char.isDigit).1.isEmpty = false)
    (h : Decimal.Numeral.readPower? (tail.span Char.isDigit).2 = some exponent) :
    run? .nothing ('.' :: tail) = some ([], .number ('.' :: tail)) := by
  have hsplit : (tail.span Char.isDigit).1 ++ (tail.span Char.isDigit).2 = tail := by
    rw [List.span_eq_takeWhile_dropWhile, List.takeWhile_append_dropWhile]
  have hall : (tail.span Char.isDigit).1.all Char.isDigit = true := by
    rw [List.span_eq_takeWhile_dropWhile, List.all_takeWhile]
  cases hd : (tail.span Char.isDigit).1 with
  | nil => rw [hd] at hne; cases hne
  | cons d digits =>
    rw [hd, List.all_cons, Bool.and_eq_true] at hall
    have hpoint : step? .nothing '.' = some ([], .symbol ['.']) := rfl
    have hdigit : step? (.symbol ['.']) d = some ([], .number ['.', d]) := by simp [step?, extend?, hall.1]
    have hdigits : run? (.number ['.', d]) digits = some ([], .number (['.', d] ++ digits)) :=
      run?_number (all_number_digits hall.2)
    have hr := run?_cons_of_step hpoint (run?_cons_of_step hdigit (run?_append_of_run hdigits (run?_power h)))
    rw [← hsplit, hd]
    simpa using hr

/-- the characters of an unsigned number, to be read as one word -/
structure IsUnsigned (cs : List Char) : Prop where
  run : run? .nothing cs = some ([], .number cs)
  opening : ∃ c rest, cs = c :: rest ∧ (c.isDigit = true ∨ c = '.')

theorem IsUnsigned.scan {cs : List Char} (h : IsUnsigned cs) : scan? cs = some [.number (String.ofList cs)] := by
  rw [scan?, h.run]
  rfl

theorem isUnsigned_digits {c : Char} {rest : List Char} (h : (c :: rest).all Char.isDigit = true) :
    IsUnsigned (c :: rest) := by
  rw [List.all_cons, Bool.and_eq_true] at h
  exact ⟨run?_nothing_number h.1 (all_number_digits h.2), c, rest, rfl, .inl h.1⟩

/-- what follows the sign of a numeral is an unsigned number -/
theorem isUnsigned_of_parse? {cs : List Char} {n : Decimal.Numeral} (h : Decimal.Numeral.parse? cs = some n) :
    IsUnsigned (Decimal.takeSign cs).2 := by
  unfold Decimal.Numeral.parse? at h
  simp only at h
  generalize (Decimal.takeSign cs).2 = unsigned at h ⊢
  split at h
  · cases h
  rename_i hsome
  obtain ⟨exponent, hpower, -⟩ := Option.map_eq_some_iff.1 h
  have hsplit : (unsigned.span Char.isDigit).1 ++ (unsigned.span Char.isDigit).2 = unsigned := by
    rw [List.span_eq_takeWhile_dropWhile, List.takeWhile_append_dropWhile]
  have hall : (unsigned.span Char.isDigit).1.all Char.isDigit = true := by
    rw [List.span_eq_takeWhile_dropWhile, List.all_takeWhile]
  cases hwhole : (unsigned.span Char.isDigit).1 with
  | nil =>
    -- no digit before the point, so there is one behind it
    rw [hwhole, List.nil_append] at hsplit
    rw [hwhole, hsplit] at hsome
    rw [hsplit] at hpower
    unfold Decimal.Numeral.takeFraction at hsome hpower
    split at hsome
    · exact ⟨run?_point (by simpa using hsome) hpower, '.', _, rfl, .inr rfl⟩
    · simp at hsome
  | cons c digits =>
    rw [hwhole, List.all_cons, Bool.and_eq_true] at hall
    have hr := run?_append_of_run (run?_nothing_number hall.1 (all_number_digits hall.2)) (run?_fraction hpower)
    rw [← hwhole, hsplit] at hr
    rw [hwhole] at hsplit
    exact ⟨hr, c, _, hsplit.symm, .inl hall.1⟩

end Scanner

end BlockSketch
