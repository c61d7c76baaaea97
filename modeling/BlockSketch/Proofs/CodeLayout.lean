/-
The code of blocks follows its braces.

An expression is a tidy piece of code: it stays on one line and closes what it opens. A statement is lines that follow
their braces, each ended by a newline, none of them empty. A simple statement is one such line; a compound statement is
a heading that opens a brace, the lines of its body one level further to the right, and a line that closes the brace.

Results:
- `tidy_word`, `tidy_number`, `tidy_port`: what generators take over from fields has nothing to open or to close;
- `Compound.otherwise`: two compound statements with an `else` between them are one;
- `Kind.tidy_expression`, `Kind.statements_sentence`: what a generator makes of tidy operands and indented bodies;
- `Block.laid`: the code of every block that gets through on a built-in board.
-/
import BlockSketch.Proofs.Nesting
import BlockSketch.Proofs.ReadBack
import BlockSketch.Proofs.Success

namespace BlockSketch

open Scanner Nesting Text

/-! ## Words -/

theorem unmarked_of_isWordChar {c : Char} (h : isWordChar c = true) : c ∉ marks := by
  have hmarks : marks.all (fun m => !isWordChar m) = true := by decide
  intro hmem
  have hc := List.all_eq_true.1 hmarks c hmem
  rw [h] at hc
  cases hc

theorem unmarked_word {text : String} (h : isPlainWord text = true) : ∀ c ∈ text.toList, c ∉ marks := by
  simp only [isPlainWord, Bool.and_eq_true, List.all_eq_true] at h
  exact fun c hc => unmarked_of_isWordChar (h.2 c hc)

theorem tidy_word {text : String} (h : isPlainWord text = true) : Tidy text.toList := tidy_of_unmarked (unmarked_word h)

theorem unmarked_digits {cs : List Char} (h : cs.all Char.isDigit = true) : ∀ c ∈ cs, c ∉ marks :=
  fun c hc => unmarked_of_isWordChar (isWordChar_digit (List.all_eq_true.1 h c hc))

theorem unmarked_takeSign {cs : List Char} (h : ∀ c ∈ (Decimal.takeSign cs).2, c ∉ marks) : ∀ c ∈ cs, c ∉ marks := by
  unfold Decimal.takeSign at h
  split at h
  · simpa using ⟨by decide, h⟩
  · simpa using ⟨by decide, h⟩
  · exact h

theorem unmarked_power {cs : List Char} {exponent : Int} (h : Decimal.Numeral.readPower? cs = some exponent) :
    ∀ c ∈ cs, c ∉ marks := by
  cases cs with
  | nil => simp
  | cons e rest =>
    simp only [Decimal.Numeral.readPower?] at h
    split at h
    · rename_i he
      have hmark : e ∉ marks := by
        rcases (by simpa using he : e = 'e' ∨ e = 'E') with rfl | rfl <;> decide
      have hdigits : (Decimal.takeSign rest).2.all Char.isDigit = true := by
        simp only [Decimal.Numeral.readExponent?] at h
        split at h
        · cases h
        · rename_i hall
          simp only [Bool.or_eq_true, not_or, Bool.not_eq_true, Bool.not_eq_false'] at hall
          exact hall.2
      exact List.forall_mem_cons.2 ⟨hmark, unmarked_takeSign (unmarked_digits hdigits)⟩
    · cases h

/-- digits and then something without marks -/
theorem unmarked_span {cs : List Char} (h : ∀ c ∈ (cs.span Char.isDigit).2, c ∉ marks) : ∀ c ∈ cs, c ∉ marks := by
  rw [List.span_eq_takeWhile_dropWhile] at h
  rw [← cs.takeWhile_append_dropWhile (p := Char.isDigit)]
  exact List.forall_mem_append.2 ⟨unmarked_digits List.all_takeWhile, h⟩

theorem unmarked_fraction {cs : List Char} (h : ∀ c ∈ (Decimal.Numeral.takeFraction cs).2, c ∉ marks) :
    ∀ c ∈ cs, c ∉ marks := by
  unfold Decimal.Numeral.takeFraction at h
  split at h
  · exact List.forall_mem_cons.2 ⟨by decide, unmarked_span h⟩
  · exact h

theorem tidy_number {text : String} (h : Library.isNumber text = true) : Tidy text.toList := by
  unfold Library.isNumber at h
  cases hparse : Decimal.Numeral.parse? text.toList with
  | none =>
    rw [hparse] at h
    cases h
  | some n =>
    simp only [Decimal.Numeral.parse?] at hparse
    split at hparse
    · cases hparse
    · obtain ⟨exponent, hpower, -⟩ := Option.map_eq_some_iff.1 hparse
      exact tidy_of_unmarked (unmarked_takeSign (unmarked_span (unmarked_fraction (unmarked_power hpower))))

theorem tidy_port {text : String} (h : Library.isPort text = true) : Tidy text.toList := by
  simp only [Library.isPort, Bool.and_eq_true] at h
  obtain ⟨⟨⟨-, hall⟩, -⟩, -⟩ := h
  refine tidy_of_unmarked ?_
  split at hall
  · rename_i rest ht
    rw [ht]
    exact List.forall_mem_cons.2 ⟨by decide, unmarked_digits hall⟩
  · exact unmarked_digits hall

/-- the code starts with something to be seen that closes nothing -/
def Opens (cs : List Char) : Prop := cs.head?.any (fun c => c != ' ' && c != '\x7d') = true

instance (cs : List Char) : Decidable (Opens cs) := inferInstanceAs (Decidable (_ = true))

theorem opens_iff {cs : List Char} : Opens cs ↔ ∃ c rest, cs = c :: rest ∧ c ≠ ' ' ∧ c ≠ '\x7d' := by
  cases cs with
  | nil => simp [Opens]
  | cons c rest => simp [Opens]

theorem Opens.append {xs : List Char} (h : Opens xs) (ys : List Char) : Opens (xs ++ ys) := by
  obtain ⟨c, rest, rfl, hc⟩ := opens_iff.1 h
  exact opens_iff.2 ⟨c, rest ++ ys, rfl, hc⟩

theorem Opens.ne_nil {cs : List Char} (h : Opens cs) : cs ≠ [] := by
  obtain ⟨c, rest, rfl, -⟩ := opens_iff.1 h
  exact List.cons_ne_nil c rest

theorem opens_word {text : String} (h : isPlainWord text = true) : Opens text.toList := by
  simp only [isPlainWord, Bool.and_eq_true, Bool.not_eq_true', List.isEmpty_eq_false_iff] at h
  obtain ⟨hne, hall⟩ := h
  obtain ⟨c, rest, hcs⟩ := List.exists_cons_of_ne_nil hne
  have hc : isWordChar c = true := List.all_eq_true.1 hall c (by rw [hcs]; exact List.mem_cons_self)
  refine opens_iff.2 ⟨c, rest, hcs, ?_, ?_⟩ <;> rintro rfl <;> cases hc

theorem isPlainWord_of_isIdentifier {text : String} (h : isIdentifier text = true) : isPlainWord text = true := by
  rw [isIdentifier, Bool.and_eq_true] at h
  exact h.1

theorem isPlainWord_servoName {pin : String} (h : isPlainWord pin = true) : isPlainWord (servoName pin) = true :=
  isPlainWord_of_isIdentifier (isIdentifier_servoName h)

/-! ## Texts put together -/

theorem inLine_append {p q r : Place} {first second : String} (h : InLine p first.toList q)
    (h' : InLine q second.toList r) : InLine p (first ++ second).toList r := by
  rw [String.toList_append]
  exact h.append h'

theorem opens_append {first : String} (h : Opens first.toList) (second : String) : Opens (first ++ second).toList := by
  rw [String.toList_append]
  exact h.append _

theorem endsFilled_append {second : String} (h : EndsFilled second.toList) (first : String) :
    EndsFilled (first ++ second).toList := by
  rw [String.toList_append]
  exact h.append

theorem tidy_between {before text after : String} (hopen : InLine start before.toList ⟨.code, 0, 1⟩)
    (h : Tidy text.toList) (hclose : InLine ⟨.code, 0, 1⟩ after.toList start) :
    Tidy (before ++ text ++ after).toList :=
  inLine_append (inLine_append hopen (h.at 0 1)) hclose

theorem tidy_embed {code : OrderedCode} (h : Tidy code.text.toList) (required : Order) :
    Tidy (code.embed required).toList := by
  unfold OrderedCode.embed
  split
  · exact tidy_between (by decide) h (by decide)
  · exact h

/-! ## Statements -/

/-- the text is lines of statements between `d` open braces -/
def Statements (w d : Nat) (text : String) : Prop :=
  ∃ lines, text.toList = unlines lines ∧ [] ∉ lines ∧ Laid w d d lines d

variable {w d : Nat} {text text' : String}

theorem statements_nil (w d : Nat) : Statements w d "" := ⟨[], rfl, by simp, .nil (Nat.le_refl d)⟩

theorem Statements.append (h : Statements w d text) (h' : Statements w d text') : Statements w d (text ++ text') := by
  obtain ⟨lines, htext, hne, hlaid⟩ := h
  obtain ⟨lines', htext', hne', hlaid'⟩ := h'
  refine ⟨lines ++ lines', ?_, by simp [hne, hne'], hlaid.append hlaid'⟩
  rw [String.toList_append, htext, htext', unlines_append]

theorem Statements.indent (h : Statements w d text) : Statements w (d + 1) (indentLines w text) := by
  obtain ⟨lines, htext, hne, hlaid⟩ := h
  refine ⟨lines.map (indented w), ?_, indented_ne_nil hne, hlaid.indent hne⟩
  rw [toList_indentLines, htext, indentFrom_unlines hlaid.whole (hlaid.endsFilled hne)]

/-- a line that is not indented and leaves `d` braces open -/
structure TopLine (line : List Char) (d : Nat) : Prop where
  inLine : InLine start line ⟨.code, d, 0⟩
  opens : Opens line
  ending : EndsFilled line

theorem stands_of_opens {line : List Char} (h : Opens line) (w : Nat) : Stands w 0 line := by
  obtain ⟨c, rest, rfl, hblank, hclose⟩ := opens_iff.1 h
  exact ⟨0, c, rest, hblank, rfl, by rw [if_neg hclose]⟩

theorem TopLine.lineAt {line : List Char} (h : TopLine line d) (w : Nat) : LineAt w 0 line d where
  inLine := h.inLine
  filled hnil := absurd hnil h.opens.ne_nil
  stands _ := stands_of_opens h.opens w
  ending _ := h.ending

theorem statements_call {before argument : String} (hopens : Opens before.toList)
    (hopen : InLine start before.toList ⟨.code, 0, 1⟩) (h : Tidy argument.toList) :
    Statements w 0 (before ++ argument ++ ");\n") := by
  have hline : TopLine (before ++ argument ++ ");").toList 0 :=
    ⟨tidy_between hopen h (by decide), opens_append (opens_append hopens _) _, endsFilled_append (by decide) _⟩
  exact ⟨[(before ++ argument ++ ");").toList], by simp, by simp, (hline.lineAt w).laid⟩

/-! ## Compound statements -/

/-- what holds of texts and of any two of them with a separator between them holds of all of them joined by it -/
theorem intercalate_induction {P : String → Prop} {separator : String}
    (hjoin : ∀ x y, P x → P y → P (x ++ separator ++ y)) {texts : List String} (hne : texts ≠ [])
    (h : ∀ text ∈ texts, P text) : P (separator.intercalate texts) := by
  induction texts with
  | nil => exact absurd rfl hne
  | cons text rest ih =>
    have hfirst := h text List.mem_cons_self
    cases rest with
    | nil => simpa using hfirst
    | cons next others =>
      have hrest := ih (List.cons_ne_nil _ _) fun t ht => h t (List.mem_cons_of_mem _ ht)
      simpa using hjoin _ _ hfirst hrest

/-- the text is a heading, lines between braces, and the brace that closes the last of them -/
def Compound (w : Nat) (text : String) : Prop :=
  ∃ head lines, text.toList = unlines (head :: lines) ++ ['\x7d'] ∧ TopLine head 1 ∧ [] ∉ lines ∧ Laid w 0 1 lines 1

/-- a line that closes one body and opens the next -/
theorem TopLine.lineAt_else {head : List Char} (h : TopLine head 1) (w : Nat) :
    LineAt w 1 ("\x7d else ".toList ++ head) 1 where
  inLine := InLine.append (q := start) (by decide) h.inLine
  filled hnil := absurd (List.append_eq_nil_iff.1 hnil).2 h.opens.ne_nil
  stands _ := ⟨0, '\x7d', " else ".toList ++ head, by decide, rfl, rfl⟩
  ending _ := h.ending.append

theorem lineAt_closing (w : Nat) : LineAt w 1 ['\x7d'] 0 where
  inLine := by decide
  filled hnil := by cases hnil
  stands _ := ⟨0, '\x7d', [], by decide, rfl, rfl⟩
  ending _ := by decide

theorem compound_braced {before body : String} (hbefore : Tidy before.toList)
    (hopens : Opens (before.toList ++ ['\x7b'])) (hbody : Statements w 1 body) :
    Compound w (before ++ Library.braced body) := by
  obtain ⟨lines, htext, hne, hlaid⟩ := hbody
  refine ⟨before.toList ++ ['\x7b'], lines, by simp [Library.braced, htext], ?_, hne, hlaid.lower 0 (Nat.zero_le 1)⟩
  have hopen : InLine start ['\x7b'] ⟨.code, 1, 0⟩ := by decide
  have hend : EndsFilled ['\x7b'] := by decide
  exact ⟨hbefore.append hopen, hopens, hend.append⟩

theorem Compound.otherwise (h : Compound w text) (h' : Compound w text') : Compound w (text ++ " else " ++ text') := by
  obtain ⟨head, lines, htext, hhead, hne, hlaid⟩ := h
  obtain ⟨head', lines', htext', hhead', hne', hlaid'⟩ := h'
  -- the brace that closes the first and the heading of the second stand on one line
  refine ⟨head, lines ++ ("\x7d else ".toList ++ head') :: lines', by simp [htext, htext'], hhead, ?_, ?_⟩
  · simp [hne, hne']
  · exact hlaid.append (.cons (Nat.zero_le 1) (hhead'.lineAt_else w) hlaid')

theorem Compound.statements (h : Compound w text) : Statements w 0 (text ++ "\n") := by
  obtain ⟨head, lines, htext, hhead, hne, hlaid⟩ := h
  refine ⟨head :: (lines ++ [['\x7d']]), by simp [htext], ?_, ?_⟩
  · simp [hhead.opens.ne_nil.symm, hne]
  · exact .cons (Nat.le_refl 0) (hhead.lineAt w) (hlaid.append (lineAt_closing w).laid)

/-! ## Generators -/

/-- what may answer a request: one tidy piece of code, or statements that are indented by one level -/
def Request.AnsweredBy (w : Nat) : Request → String → Prop
  | .value _ _ _, text | .counter, text => Tidy text.toList
  | .chain _, text => Statements w 1 text

namespace Kind

variable {k : Kind} {b : Block} {texts : List String}

theorem tidy_sign (k : Kind) (word : String) : Tidy (k.operator word).sign.toList := by
  have hnone : Tidy "".toList := by decide
  cases k with
  | mathArithmetic => simp only [operator, Library.arithmeticOperator?]; split <;> decide
  | logicCompare => simp only [operator, Library.comparison?]; split <;> decide
  | logicOperation => simp only [operator, Library.connective?]; split <;> decide
  | _ => exact hnone

theorem tidy_expression (hs : k.shape = .value) (hfault : k.fault? b = none)
    (hpin : k.role?.isSome = true → isPlainWord (k.word b) = true)
    (h : ∀ i, Tidy (texts.getD i "").toList) : Tidy (k.expression b (k.word b) texts).text.toList := by
  have hbinary : Tidy (Library.binaryCode (k.operator (k.word b)) (texts.getD 0 "") (texts.getD 1 "")).text.toList := by
    have hblank : Tidy " ".toList := by decide
    exact inLine_append (inLine_append (inLine_append (inLine_append (h 0) hblank) (k.tidy_sign _)) hblank) (h 1)
  have hnot : Tidy "!".toList := by decide
  cases k with
  | mathArithmetic => exact hbinary
  | logicCompare => exact hbinary
  | logicOperation => exact hbinary
  | logicNegate => exact inLine_append hnot (h 0)
  | servoRead =>
    have hname := tidy_word (isPlainWord_servoName (hpin rfl))
    have hread : Tidy ".read()".toList := by decide
    exact inLine_append hname hread
  | sonar =>
    have hport : Library.isPort (sonar.word b) = true := word_accepted hfault rfl
    exact tidy_between (by decide) (tidy_port hport) (by decide)
  | touchSensor =>
    have hport : Library.isPort (touchSensor.word b) = true := word_accepted hfault rfl
    exact tidy_between (by decide) (tidy_port hport) (by decide)
  | mathNumber =>
    have hnumber : Library.isNumber (mathNumber.word b) = true := word_accepted hfault rfl
    exact tidy_number hnumber
  | logicBoolean =>
    simp only [expression, OrderedCode.atomic]
    split
    · exact tidy_word (by decide)
    · exact tidy_word (by decide)
  | digitalRead => exact tidy_between (by decide) (tidy_word (hpin rfl)) (by decide)
  | analogRead => exact tidy_between (by decide) (tidy_word (hpin rfl)) (by decide)
  | highLow =>
    have hlevels : ∀ level ∈ ["HIGH", "LOW"], isPlainWord level = true := by decide
    exact tidy_word (hlevels _ (List.contains_iff_mem.1 (word_accepted hfault rfl)))
  | timeMillis =>
    have hcall : Tidy "millis()".toList := by decide
    exact hcall
  | text => exact tidy_literal _
  | _ => cases hs

theorem compound_branches {ns : List Nat} {hasElse : Bool}
    (h : List.Forall₂ (Request.AnsweredBy w) (branchRequests ns hasElse) texts) :
    ∀ text ∈ branchTexts texts, Compound w text := by
  have hopens : Opens "if (".toList := by decide
  have hcondition {condition : String} (hc : Tidy condition.toList) : Tidy ("if (" ++ condition ++ ") ").toList :=
    tidy_between (by decide) hc (by decide)
  unfold branchRequests at h
  induction ns generalizing texts with
  | nil =>
    cases hasElse with
    | false =>
      cases h
      simp [branchTexts]
    | true =>
      rcases h with _ | ⟨hbody, _ | _⟩
      have hcompound := @compound_braced w "" _ (by decide) (by decide) hbody
      simpa [branchTexts] using hcompound
  | cons n rest ih =>
    rcases h with _ | ⟨hc, _ | ⟨hbody, hrest⟩⟩
    have hcompound := compound_braced (hcondition hc) (opens_append (opens_append hopens _) _ |>.append _) hbody
    exact List.forall_mem_cons.2 ⟨hcompound, ih hrest⟩

theorem branchTexts_ne_nil {ns : List Nat} {hasElse : Bool} (hns : ns ≠ [])
    (h : List.Forall₂ (Request.AnsweredBy w) (branchRequests ns hasElse) texts) : branchTexts texts ≠ [] := by
  obtain ⟨n, rest, rfl⟩ := List.exists_cons_of_ne_nil hns
  rcases h with _ | ⟨-, _ | ⟨-, -⟩⟩
  simp [branchTexts]

theorem statements_loop {times counter body : String} (htimes : Tidy times.toList) (hcounter : Tidy counter.toList)
    (hbody : Statements w 1 body) :
    Statements w 0 ("for (int " ++ counter ++ " = 0; " ++ counter ++ " < " ++ times ++ "; " ++ counter ++ "++) " ++
      Library.braced body ++ "\n") := by
  have hopen : InLine start "for (int ".toList ⟨.code, 0, 1⟩ := by decide
  have hbegin : Tidy " = 0; ".toList := by decide
  have hless : Tidy " < ".toList := by decide
  have hnext : Tidy "; ".toList := by decide
  have hclose : InLine ⟨.code, 0, 1⟩ "++) ".toList start := by decide
  refine (compound_braced ?_ ?_ hbody).statements
  · have hinside := hcounter.append (hbegin.append (hcounter.append (hless.append (htimes.append
      (hnext.append hcounter)))))
    simpa using hopen.append ((Tidy.at hinside 0 1).append hclose)
  · have hopens : Opens "for (int ".toList := by decide
    simpa using hopens.append _

theorem statements_sentence (hs : k.shape = .statement) (hfault : k.fault? b = none)
    (hpin : k.role?.isSome = true → isPlainWord (k.word b) = true)
    (h : List.Forall₂ (Request.AnsweredBy w) (k.requests b (k.word b)) texts) :
    Statements w 0 (k.sentence b (k.word b) texts) := by
  -- a call with the pin and what stands in the slot
  have hwrite {name : String} (hname : Opens name.toList) (hopen : InLine start name.toList ⟨.code, 0, 1⟩)
      (hword : isPlainWord (k.word b) = true) {argument : String} (harg : Tidy argument.toList) :
      Statements w 0 (name ++ k.word b ++ ", " ++ argument ++ ");\n") := by
    have hcomma : Tidy ", ".toList := by decide
    exact statements_call (opens_append (opens_append hname _) _)
      (inLine_append (inLine_append hopen ((tidy_word hword).at 0 1)) (hcomma.at 0 1)) harg
  cases k with
  | servoWrite =>
    rcases h with _ | ⟨h, _ | _⟩
    have hname := isPlainWord_servoName (hpin rfl)
    have hopen : InLine start ".write(".toList ⟨.code, 0, 1⟩ := by decide
    exact statements_call (opens_append (opens_word hname) _) (inLine_append (tidy_word hname) hopen) h
  | ledColor =>
    have hcolor := literal_color _ (List.contains_iff_mem.1 (word_accepted hfault rfl))
    have hcall := @statements_call w "Rob.SetAllLed(" _ (by decide) (by decide) (tidy_literal (ledColor.word b))
    have htext : "Rob.SetAllLed(" ++ Library.literal (ledColor.word b) ++ ");\n" =
        "Rob.SetAllLed(\"" ++ ledColor.word b ++ "\");\n" := by
      rw [hcolor]
      simp [← String.toList_inj]
    rw [htext] at hcall
    exact hcall
  | digitalWrite =>
    rcases h with _ | ⟨h, _ | _⟩
    exact hwrite (by decide) (by decide) (hpin rfl) h
  | analogWrite =>
    rcases h with _ | ⟨h, _ | _⟩
    exact hwrite (by decide) (by decide) (hpin rfl) h
  | timeDelay =>
    rcases h with _ | ⟨h, _ | _⟩
    exact statements_call (by decide) (by decide) h
  | controlsIf =>
    -- without a branch the text would be an empty line
    have hne : List.range (Library.branchCount b) ≠ [] := by simp [Library.branchCount]
    exact (intercalate_induction (fun _ _ hx hy => hx.otherwise hy) (branchTexts_ne_nil hne h)
      (compound_branches h)).statements
  | controlsRepeat =>
    rcases h with _ | ⟨htimes, _ | ⟨hcounter, _ | ⟨hbody, _ | _⟩⟩⟩
    exact statements_loop htimes hcounter hbody
  | serialPrint =>
    rcases h with _ | ⟨h, _ | _⟩
    have hword := hpin rfl
    have hmethod : isPlainWord (if Library.endsLine b then "println" else "print") = true := by split <;> decide
    have hdot : Tidy ".".toList := by decide
    have hopen : InLine start "(".toList ⟨.code, 0, 1⟩ := by decide
    exact statements_call (opens_append (opens_append (opens_append (opens_word hword) _) _) _)
      (inLine_append (inLine_append (inLine_append (tidy_word hword) hdot) (tidy_word hmethod)) hopen) h
  | _ => cases hs

end Kind

/-! ## Blocks -/

theorem answered_texts {values : String → Option OrderedCode} {chains : String → Nat → String × Nat}
    {requests : List Request}
    (h : ∀ request ∈ requests, ∀ loops, request.AnsweredBy w (request.text values chains loops).1) (loops : Nat) :
    List.Forall₂ (Request.AnsweredBy w) requests (Request.texts values chains requests loops).1 := by
  induction requests generalizing loops with
  | nil => exact .nil
  | cons request rest ih =>
    rw [Request.texts_cons]
    exact .cons (h request List.mem_cons_self loops) (ih (fun r hr => h r (List.mem_cons_of_mem _ hr)) _)

/-- answers to requests for values are tidy, and so is what stands for an answer that is missing -/
theorem tidy_answers {requests : List Request} {texts : List String}
    (h : List.Forall₂ (Request.AnsweredBy w) requests texts)
    (hvalues : ∀ r ∈ requests, ∃ slot required default, r = .value slot required default) (i : Nat) :
    Tidy (texts.getD i "").toList := by
  induction h generalizing i with
  | nil => exact (by decide : Tidy "".toList)
  | @cons request text requests texts hfirst _ ih =>
    cases i with
    | zero =>
      obtain ⟨slot, required, default, rfl⟩ := hvalues request List.mem_cons_self
      exact hfirst
    | succ i => exact ih (fun r hr => hvalues r (List.mem_cons_of_mem _ hr)) i

theorem statements_chain {chain : List Block} (h : ∀ c ∈ chain, ∀ loops, Statements w 0 (c.code w loops).1)
    (loops : Nat) : Statements w 0 (chainCodeText w chain loops).1 := by
  induction chain generalizing loops with
  | nil => exact statements_nil w 0
  | cons c rest ih =>
    rw [chainCodeText_cons]
    exact (h c List.mem_cons_self loops).append (ih (fun c hc => h c (List.mem_cons_of_mem _ hc)) _)

namespace Block

variable {board : Board} {shape : Shape} {level : Nat} {b : Block} {k : Kind}

theorem isPlainWord_of_admissible (hboard : board ∈ Board.builtins)
    (h : ∀ action ∈ b.actions shape level, action.Admissible board) (hk : b.kind? = some k)
    (hrole : k.role?.isSome = true) : isPlainWord (k.word b) = true := by
  obtain ⟨⟨role, purpose⟩, hsome⟩ := Option.isSome_iff_exists.1 hrole
  have huse : b.pinUse? = some ⟨k.word b, role, purpose⟩ := by simp [pinUse?, hk, Kind.pinUse?, hsome]
  exact isPlainWord_of_supports hboard (supports_of_admissible h huse)

/-- what answers a request of a block that gets through is the code of the blocks in its slot, a default or a counter -/
theorem answered_of_inside {b : Block}
    (hv : ∀ slot c, b.input? slot = some c → ∀ level, (∀ action ∈ c.actions .value level, action.Admissible board) →
      Tidy c.expression.text.toList)
    (hs : ∀ slot c, c ∈ b.statement slot → ∀ level, (∀ action ∈ c.actions .statement level, action.Admissible board) →
      ∀ loops, Statements w 0 (c.code w loops).1)
    (h : ∀ action ∈ b.actions shape level, action.Admissible board) {request : Request} (hrequest : request ∈ b.requests)
    (loops : Nat) :
    request.AnsweredBy w (request.text (fun slot => (b.input? slot).map expression)
      (fun slot => bodyText w ((b.statement slot).map (code w))) loops).1 := by
  obtain ⟨-, k, hk, -⟩ := refusal?_eq_none_iff.1 (refusal?_of_admissible h)
  cases request with
  | value slot required default =>
    simp only [Request.AnsweredBy, Request.text]
    cases hc : b.input? slot with
    | none =>
      rw [requests_of_kind hk] at hrequest
      exact tidy_word (isPlainWord_default hrequest)
    | some c =>
      have hinside := admissible_inside h hrequest ⟨.value, slot⟩ rfl (Option.mem_toList.2 hc)
      exact tidy_embed (hv slot c hc _ hinside) required
  | chain slot =>
    have hinside (c : Block) (hc : c ∈ b.statement slot) :=
      admissible_inside h hrequest ⟨.statement, slot⟩ rfl hc
    exact (statements_chain (fun c hc => hs slot c hc _ (hinside c hc)) loops).indent
  | counter => exact tidy_word (isPlainWord_of_isIdentifier (isIdentifier_counterName (loops + 1)))

/-- **The code of a block that gets through**: an expression is one tidy piece of code, and a statement is lines that
follow their braces. -/
theorem laid (hboard : board ∈ Board.builtins) (w : Nat) (b : Block) :
    (∀ level, (∀ action ∈ b.actions .value level, action.Admissible board) → Tidy b.expression.text.toList) ∧
      ∀ level, (∀ action ∈ b.actions .statement level, action.Admissible board) →
        ∀ loops, Statements w 0 (b.code w loops).1 := by
  induction b using Block.induct with
  | step b hv hs =>
    have hanswers {shape : Shape} {level : Nat} (h : ∀ action ∈ b.actions shape level, action.Admissible board)
        (loops : Nat) : List.Forall₂ (Request.AnsweredBy w) b.requests (b.texts w loops).1 :=
      answered_texts (fun _ hrequest =>
        answered_of_inside (fun slot c hc => (hv slot c hc).1) (fun slot c hc => (hs slot c hc).2) h hrequest) loops
    constructor
    · intro level h
      obtain ⟨-, k, hk, hshape, hfault⟩ := refusal?_eq_none_iff.1 (refusal?_of_admissible h)
      have htexts := hanswers h 0
      rw [requests_of_kind hk] at htexts
      rw [(expression_of_kind hk hshape w 0).1]
      exact Kind.tidy_expression hshape hfault (isPlainWord_of_admissible hboard h hk)
        (tidy_answers htexts fun r hr => Kind.requests_of_value hshape b _ hr)
    · intro level h loops
      obtain ⟨-, k, hk, hshape, hfault⟩ := refusal?_eq_none_iff.1 (refusal?_of_admissible h)
      have htexts := hanswers h loops
      rw [requests_of_kind hk] at htexts
      rw [code_of_kind hk hshape]
      exact Kind.statements_sentence hshape hfault (isPlainWord_of_admissible hboard h hk) htexts

/-- what answers a request of a block that gets through on a built-in board -/
theorem answered (hboard : board ∈ Board.builtins) (w : Nat)
    (h : ∀ action ∈ b.actions shape level, action.Admissible board) {request : Request} (hrequest : request ∈ b.requests)
    (loops : Nat) :
    request.AnsweredBy w (request.text (fun slot => (b.input? slot).map expression)
      (fun slot => bodyText w ((b.statement slot).map (code w))) loops).1 :=
  answered_of_inside (fun _ c _ => (c.laid hboard w).1) (fun _ c _ => (c.laid hboard w).2) h hrequest loops

end Block

end BlockSketch
