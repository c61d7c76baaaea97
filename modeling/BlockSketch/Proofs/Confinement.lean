/-
What text blocks say stays between its quotes.

The code of a block is put together from the code of the blocks in its slots, indented, trimmed and joined. None of this
depends on what text blocks say: programs that are the same when muted have sketches that fit one outline, with the
string literals of their text blocks in its gaps.

Results:
- `Kind.expression_uniform`, `Kind.sentence_uniform`: a generator puts texts together in the same way whatever literals
  they contain, and each text once;
- `Block.hasOutline`: the code of a block fits an outline that depends on the muted block alone;
- `texts_stay_in_literals`: programs that are the same when muted all fail in the same way, or their sketches are the
  same segments with the literals of their text blocks between them.
-/
import BlockSketch.Proofs.Boilerplate
import BlockSketch.Proofs.Muting
import BlockSketch.Proofs.Outline

namespace BlockSketch

open BlockSketch.Action

/-! ## Generators put texts together -/

/-- the outlines answer the requests: the one that answers a request for a counter has no gaps -/
def Answers (requests : List Request) (os : List Outline) : Prop :=
  List.Forall₂ (fun request o => request = .counter → none ∉ o) requests os

/-- a text made of the texts that answer requests fits an outline that depends on their outlines alone -/
def Uniform (requests : List Request) (f : List String → String) : Prop :=
  ∀ os, Answers requests os → ∃ o, ∀ quotes texts, FitsAll os quotes texts → Fits o quotes (f texts).toList

theorem Fits.eq_of_solid {o : Outline} {quotes : List String} {text : List Char} (h : Fits o quotes text)
    (ho : none ∉ o) : quotes = [] ∧ text.map some = o := by
  induction h with
  | nil => exact ⟨rfl, rfl⟩
  | char c _ ih =>
    obtain ⟨rfl, rfl⟩ := ih fun hmem => ho (List.mem_cons_of_mem _ hmem)
    exact ⟨rfl, rfl⟩
  | quote _ _ _ => exact absurd List.mem_cons_self ho

theorem uniform_none (text : String) : Uniform [] fun _ => text := by
  intro os hos
  cases hos
  refine ⟨Outline.solid text, fun quotes texts h => ?_⟩
  cases h
  exact fits_solid text

theorem uniform_one (request : Request) (before after : String) :
    Uniform [request] fun texts => before ++ texts.getD 0 "" ++ after := by
  intro os hos
  rcases hos with _ | ⟨-, _ | _⟩
  rename_i o
  refine ⟨Outline.solid before ++ (o ++ Outline.solid after), fun quotes texts h => ?_⟩
  rcases h with _ | ⟨h, _ | _⟩
  simpa using h.between before after

theorem uniform_two (first second : Request) (between : String) :
    Uniform [first, second] fun texts => texts.getD 0 "" ++ between ++ texts.getD 1 "" := by
  intro os hos
  rcases hos with _ | ⟨-, _ | ⟨-, _ | _⟩⟩
  rename_i o o'
  refine ⟨o ++ (Outline.solid between ++ o'), fun quotes texts h => ?_⟩
  rcases h with _ | ⟨h, _ | ⟨h', _ | _⟩⟩
  simpa using h.append ((fits_solid between).append h')

/-- a loop names its counter three times, and its count and its body once -/
theorem uniform_loop (times body : Request) : Uniform [times, .counter, body] fun texts =>
    "for (int " ++ texts.getD 1 "" ++ " = 0; " ++ texts.getD 1 "" ++ " < " ++ texts.getD 0 "" ++ "; " ++
      texts.getD 1 "" ++ "++) " ++ Library.braced (texts.getD 2 "") ++ "\n" := by
  intro os hos
  rcases hos with _ | ⟨-, _ | ⟨hsolid, _ | ⟨-, _ | _⟩⟩⟩
  rename_i o counter o'
  refine ⟨Outline.solid "for (int " ++ (counter ++ (Outline.solid " = 0; " ++ (counter ++ (Outline.solid " < " ++ (o ++
    (Outline.solid "; " ++ (counter ++ (Outline.solid "++) \x7b\n" ++ (o' ++ Outline.solid "\x7d\n"))))))))),
    fun quotes texts h => ?_⟩
  rcases h with _ | ⟨h, _ | ⟨hcounter, _ | ⟨h', _ | _⟩⟩⟩
  obtain ⟨rfl, -⟩ := hcounter.eq_of_solid (hsolid rfl)
  have hfits := (fits_solid "for (int ").append (hcounter.append ((fits_solid " = 0; ").append (hcounter.append
    ((fits_solid " < ").append (h.append ((fits_solid "; ").append (hcounter.append ((fits_solid "++) \x7b\n").append
      (h'.append (fits_solid "\x7d\n"))))))))))
  simpa [Library.braced] using hfits

/-- the branches of a conditional from the outlines of their conditions and bodies -/
def branchOutlines : List Outline → List Outline
  | [] => []
  | [body] => [Outline.solid "\x7b\n" ++ (body ++ Outline.solid "\x7d")]
  | condition :: body :: rest =>
    (Outline.solid "if (" ++ (condition ++ (Outline.solid ") \x7b\n" ++ (body ++ Outline.solid "\x7d")))) ::
      branchOutlines rest

theorem fitsAll_branchTexts (os : List Outline) {quotes texts : List String} (h : FitsAll os quotes texts) :
    FitsAll (branchOutlines os) quotes (Kind.branchTexts texts) := by
  induction os using branchOutlines.induct generalizing quotes texts with
  | case1 =>
    cases h
    exact .nil
  | case2 body =>
    rcases h with _ | ⟨h, _ | _⟩
    have hbody := h.between "\x7b\n" "\x7d"
    exact .cons (by simpa [Library.braced] using hbody) .nil
  | case3 condition body rest ih =>
    rcases h with _ | ⟨h, _ | ⟨h', hs⟩⟩
    have hbranch := (fits_solid "if (").append (h.append ((fits_solid ") \x7b\n").append
      (h'.append (fits_solid "\x7d"))))
    rw [← List.append_assoc]
    exact .cons (by simpa [Library.braced] using hbranch) (ih hs)

theorem uniform_conditional (requests : List Request) :
    Uniform requests fun texts => " else ".intercalate (Kind.branchTexts texts) ++ "\n" := by
  intro os _
  refine ⟨(Outline.solid " else ").intercalate (branchOutlines os) ++ Outline.solid "\n", fun quotes texts h => ?_⟩
  have hfits := (fits_intercalate " else " (fitsAll_branchTexts os h)).append (fits_solid "\n")
  rw [List.append_nil, ← String.toList_append] at hfits
  exact hfits

namespace Kind

variable {k : Kind}

/-- an expression puts the texts it asked for together in one way -/
theorem expression_uniform (hs : k.shape = .value) (hne : k ≠ .text) (b : Block) (word : String) :
    Uniform (k.requests b word) fun texts => (k.expression b word texts).text := by
  have hbinary (sign : String) (first second : Request) :
      Uniform [first, second] fun texts => texts.getD 0 "" ++ " " ++ sign ++ " " ++ texts.getD 1 "" := by
    have h := uniform_two first second (" " ++ sign ++ " ")
    simpa only [String.append_assoc] using h
  cases k with
  | mathArithmetic => exact hbinary _ _ _
  | logicCompare => exact hbinary _ _ _
  | logicOperation => exact hbinary _ _ _
  | logicNegate =>
    have h := uniform_one (.value "BOOL" .unaryPrefix "false") "!" ""
    simp only [String.append_empty] at h
    exact h
  | text => exact absurd rfl hne
  | servoRead => exact uniform_none _
  | sonar => exact uniform_none _
  | touchSensor => exact uniform_none _
  | mathNumber => exact uniform_none _
  | logicBoolean => exact uniform_none _
  | digitalRead => exact uniform_none _
  | analogRead => exact uniform_none _
  | highLow => exact uniform_none _
  | timeMillis => exact uniform_none _
  | _ => cases hs

/-- how strongly an expression binds does not depend on the texts it asked for -/
theorem expression_order (k : Kind) (hne : k ≠ .text) (b : Block) (word : String) (texts texts' : List String) :
    (k.expression b word texts).order = (k.expression b word texts').order := by
  cases k with
  | text => exact absurd rfl hne
  | _ => rfl

/-- a statement puts the texts it asked for together in one way -/
theorem sentence_uniform (hs : k.shape = .statement) (b : Block) (word : String) :
    Uniform (k.requests b word) (k.sentence b word) := by
  cases k with
  | servoWrite => exact uniform_one _ (servoName word ++ ".write(") ");\n"
  | ledColor => exact uniform_none _
  | digitalWrite => exact uniform_one _ ("digitalWrite(" ++ word ++ ", ") ");\n"
  | analogWrite => exact uniform_one _ ("analogWrite(" ++ word ++ ", ") ");\n"
  | timeDelay => exact uniform_one _ "delay(" ");\n"
  | controlsIf => exact uniform_conditional _
  | controlsRepeat => exact uniform_loop _ _
  | serialPrint =>
    exact uniform_one _ (word ++ "." ++ (if Library.endsLine b then "println" else "print") ++ "(") ");\n"
  | _ => cases hs

end Kind

/-! ## Blocks have outlines -/

namespace Block

/-- the string literal that a text block becomes -/
def quote (b : Block) : String := Library.literal ((b.field? "TEXT").getD "")

/-- the literals of the text blocks that the walk through a block comes to -/
def quotes (b : Block) : List String := b.textBlocks.map quote

/-- the expressions of blocks that are `m` when muted fit one outline and bind with the same strength -/
def ExpressionOutline (m : Block) : Prop :=
  ∃ o order, ∀ b : Block, b.muted = m → b.expression.order = order ∧ Fits o b.quotes b.expression.text.toList

/-- the statements of blocks that are `m` when muted fit one outline and count the same loops -/
def CodeOutline (indent : Nat) (m : Block) (loops : Nat) : Prop :=
  ∃ o loops', ∀ b : Block, b.muted = m →
    (b.code indent loops).2 = loops' ∧ Fits o b.quotes (b.code indent loops).1.toList

end Block

variable {indent loops : Nat}

theorem chain_outline {ms : List Block} (h : ∀ m ∈ ms, ∀ loops, m.CodeOutline indent loops) (loops : Nat) :
    ∃ o loops', ∀ chain : List Block, chain.map Block.muted = ms →
      (chainCodeText indent chain loops).2 = loops' ∧
        Fits o (chain.flatMap Block.quotes) (chainCodeText indent chain loops).1.toList := by
  induction ms generalizing loops with
  | nil =>
    refine ⟨[], loops, fun chain hchain => ?_⟩
    cases List.map_eq_nil_iff.1 hchain
    exact ⟨rfl, .nil⟩
  | cons m rest ih =>
    obtain ⟨o, loops', hfirst⟩ := h m List.mem_cons_self loops
    obtain ⟨o', loops'', hrest⟩ := ih (fun c hc => h c (List.mem_cons_of_mem m hc)) loops'
    refine ⟨o ++ o', loops'', fun chain hchain => ?_⟩
    obtain ⟨b, bs, rfl, hb, hbs⟩ := List.map_eq_cons_iff.1 hchain
    obtain ⟨hloops, hfits⟩ := hfirst b hb
    obtain ⟨hloops', hfits'⟩ := hrest bs hbs
    rw [chainCodeText_cons, hloops, List.flatMap_cons, String.toList_append]
    exact ⟨hloops', hfits.append hfits'⟩

/-- the texts that answer a request on behalf of the blocks that are `m` when muted fit one outline -/
def RequestOutline (indent : Nat) (m : Block) (request : Request) (loops : Nat) : Prop :=
  ∃ o loops', (request = .counter → none ∉ o) ∧ ∀ b : Block, b.muted = m →
    let answer := request.text (fun slot => (b.input? slot).map Block.expression)
      (fun slot => bodyText indent ((b.statement slot).map (Block.code indent))) loops
    answer.2 = loops' ∧ Fits o ((request.textBlocks b).map Block.quote) answer.1.toList

theorem value_outline {m : Block} {slot : String} (required : Order) (default : String)
    (h : ∀ c, m.input? slot = some c → c.ExpressionOutline) :
    RequestOutline indent m (.value slot required default) loops := by
  cases hc : m.input? slot with
  | none =>
    refine ⟨Outline.solid default, loops, by simp, ?_⟩
    rintro b rfl
    have hb : b.input? slot = none := by simpa using hc
    simp only [Request.text, Request.textBlocks, hb]
    exact ⟨trivial, fits_solid default⟩
  | some c =>
    obtain ⟨o, order, hcode⟩ := h c hc
    refine ⟨if order.bindsWeakerThan required then Outline.solid "(" ++ (o ++ Outline.solid ")") else o, loops,
      by simp, ?_⟩
    rintro b rfl
    obtain ⟨d, hd, rfl⟩ : ∃ d, b.input? slot = some d ∧ d.muted = c := by simpa using hc
    obtain ⟨rfl, hfits⟩ := hcode d rfl
    simp only [Request.text, Request.textBlocks, hd, Option.map_some, Option.getD_some, Option.elim_some,
      OrderedCode.embed]
    refine ⟨trivial, ?_⟩
    split
    · simpa [Block.quotes] using hfits.between "(" ")"
    · exact hfits

theorem body_outline {m : Block} {slot : String} (h : ∀ c ∈ m.statement slot, ∀ loops, c.CodeOutline indent loops) :
    RequestOutline indent m (.chain slot) loops := by
  obtain ⟨o, loops', hchain⟩ := chain_outline h loops
  refine ⟨o.indent indent true, loops', by simp, ?_⟩
  rintro b rfl
  obtain ⟨hloops, hfits⟩ := hchain (b.statement slot) (b.muted_statement slot).symm
  refine ⟨hloops, ?_⟩
  have hquotes : (Request.textBlocks b (.chain slot)).map Block.quote = (b.statement slot).flatMap Block.quotes := by
    rw [Request.textBlocks, List.map_flatMap]
    rfl
  rw [hquotes]
  simp only [Request.text, bodyText, Text.toList_indentLines]
  exact hfits.indent indent true

theorem counter_outline (m : Block) : RequestOutline indent m .counter loops := by
  refine ⟨Outline.solid (counterName (loops + 1)), loops + 1, fun _ => by simp [Outline.solid], fun b _ => ⟨rfl, ?_⟩⟩
  exact fits_solid _

theorem requests_outline {m : Block} {requests : List Request}
    (h : ∀ request ∈ requests, ∀ loops, RequestOutline indent m request loops) (loops : Nat) :
    ∃ os loops', Answers requests os ∧ ∀ b : Block, b.muted = m →
      let answers := Request.texts (fun slot => (b.input? slot).map Block.expression)
        (fun slot => bodyText indent ((b.statement slot).map (Block.code indent))) requests loops
      answers.2 = loops' ∧ FitsAll os ((requests.flatMap (Request.textBlocks b)).map Block.quote) answers.1 := by
  induction requests generalizing loops with
  | nil => exact ⟨[], loops, .nil, fun b _ => ⟨rfl, .nil⟩⟩
  | cons request rest ih =>
    obtain ⟨o, loops', hcounter, hfirst⟩ := h request List.mem_cons_self loops
    obtain ⟨os, loops'', hanswers, hrest⟩ := ih (fun r hr => h r (List.mem_cons_of_mem request hr)) loops'
    refine ⟨o :: os, loops'', .cons hcounter hanswers, fun b hb => ?_⟩
    obtain ⟨hloops, hfits⟩ := hfirst b hb
    obtain ⟨hloops', hfits'⟩ := hrest b hb
    simp only [Request.texts_cons, hloops, List.flatMap_cons, List.map_append]
    exact ⟨hloops', .cons hfits hfits'⟩

namespace Block

variable {b : Block} {k : Kind} {board : Board}

theorem quotes_of_kind (hk : b.kind? = some k) (hne : k ≠ .text) :
    b.quotes = (b.requests.flatMap (Request.textBlocks b)).map quote := by
  have hkind : b.kind ≠ "text" := fun h => hne (by rw [kind?, h] at hk; exact (Option.some.inj hk).symm)
  rw [quotes, textBlocks_eq, if_neg hkind]

/-- but for text blocks, the expression of a muted block is put together as that of the block -/
theorem muted_expression (hne : k ≠ .text) (word : String) (texts : List String) :
    k.expression b.muted word texts = k.expression b word texts := by
  cases k with
  | text => exact absurd rfl hne
  | _ => rfl

theorem muted_sentence (hk : b.kind? = some k) (word : String) :
    k.sentence b.muted word = k.sentence b word := by
  cases k with
  | serialPrint =>
    have hends : Library.endsLine b.muted = Library.endsLine b := by
      unfold Library.endsLine
      rw [muted_field? hk (by decide)]
    unfold Kind.sentence
    rw [hends]
  | _ => rfl

/-- the code of a block that gets through fits an outline that depends on the muted block alone -/
theorem hasOutline (m : Block) (board : Board) (indent : Nat) :
    (∀ level, (∀ action ∈ m.actions .value level, action.Admissible board) → m.ExpressionOutline) ∧
      ∀ level, (∀ action ∈ m.actions .statement level, action.Admissible board) →
        ∀ loops, m.CodeOutline indent loops := by
  induction m using Block.induct with
  | step m hv hs =>
    have hrequests {shape : Shape} {level : Nat} (h : ∀ action ∈ m.actions shape level, action.Admissible board) :
        ∀ request ∈ m.requests, ∀ loops, RequestOutline indent m request loops := by
      intro request hrequest loops
      cases request with
      | value slot required default =>
        exact value_outline required default fun c hc =>
          (hv slot c hc).1 (level + 1) (admissible_inside h hrequest ⟨.value, slot⟩ rfl (Option.mem_toList.2 hc))
      | chain slot =>
        exact body_outline fun c hc =>
          (hs slot c hc).2 (level + 1) (admissible_inside h hrequest ⟨.statement, slot⟩ rfl hc)
      | counter => exact counter_outline m
    constructor
    · intro level h
      obtain ⟨-, k, hk, hshape, -⟩ := refusal?_eq_none_iff.1 (refusal?_of_admissible h)
      by_cases hne : k = .text
      · subst hne
        refine ⟨[none], .atomic, ?_⟩
        rintro b rfl
        rw [muted_kind?] at hk
        have hkind : b.kind = "text" := (kind?_eq_some_iff.1 hk).symm
        rw [(expression_of_kind hk hshape indent 0).1, quotes, textBlocks_eq, if_pos hkind]
        exact ⟨rfl, fits_quote (quoted_literal _)⟩
      · obtain ⟨os, loops', hanswers, hfits⟩ := requests_outline (hrequests h) 0
        rw [requests_of_kind hk] at hanswers
        obtain ⟨o, ho⟩ := Kind.expression_uniform hshape hne m (k.word m) os hanswers
        refine ⟨o, (k.expression m (k.word m) []).order, ?_⟩
        rintro b rfl
        obtain ⟨-, hfits⟩ := hfits b rfl
        rw [muted_kind?] at hk
        simp only [muted_requests] at hfits
        rw [(expression_of_kind hk hshape indent 0).1, quotes_of_kind hk hne, muted_word hk, muted_expression hne]
        refine ⟨k.expression_order hne b _ _ _, ?_⟩
        have hexpression := ho _ _ hfits
        simp only [muted_word hk, muted_expression hne] at hexpression
        exact hexpression
    · intro level h loops
      obtain ⟨-, k, hk, hshape, -⟩ := refusal?_eq_none_iff.1 (refusal?_of_admissible h)
      have hne : k ≠ .text := fun heq => by rw [heq] at hshape; cases hshape
      obtain ⟨os, loops', hanswers, hfits⟩ := requests_outline (hrequests h) loops
      rw [requests_of_kind hk] at hanswers
      obtain ⟨o, ho⟩ := Kind.sentence_uniform hshape m (k.word m) os hanswers
      refine ⟨o, loops', ?_⟩
      rintro b rfl
      obtain ⟨hloops, hfits⟩ := hfits b rfl
      rw [muted_kind?] at hk
      simp only [muted_requests] at hfits hloops
      have hsentence := ho _ _ hfits
      rw [muted_word hk, muted_sentence hk] at hsentence
      rw [code_of_kind hk hshape, quotes_of_kind hk hne, code_eq]
      exact ⟨hloops, hsentence⟩

end Block

/-! ## The setup section -/

namespace Block

/-- a muted block needs what the block needs -/
theorem muted_needs (b : Block) : b.muted.needs = b.needs := by
  induction b using Block.induct with
  | step b hv hs =>
    rw [needs_eq, needs_eq, muted_requests, muted_ownNeeds]
    refine congrArg (· ++ b.ownNeeds) (List.flatMap_congr fun request _ => ?_)
    cases request with
    | value slot required default =>
      simp only [Request.needs, muted_input?]
      cases hc : b.input? slot with
      | none => rfl
      | some c => exact hv slot c hc
    | chain slot =>
      simp only [Request.needs, muted_statement, List.flatMap_map]
      exact List.flatMap_congr fun c hc => hs slot c hc
    | counter => rfl

end Block

namespace Program

variable {program m : Program} {board : Board}

/-- the pieces of the setup section, with the setup statements wherever they stand -/
theorem needs_of_muted (h : program.muted = m) :
    program.needs indent = m.setup.flatMap Block.needs ++
      ((if m.setup.isEmpty then [] else [userSetup (Text.trimEnd (program.setupText indent))]) ++
        m.main.flatMap Block.needs) := by
  subst h
  simp only [needs, muted, List.flatMap_map, Block.muted_needs, List.isEmpty_map]

theorem needsIn_of_muted (h : program.muted = m) {s : Section} (hs : s ≠ .setup) :
    needsIn s (program.needs indent) = needsIn s (m.setup.flatMap Block.needs ++ m.main.flatMap Block.needs) := by
  have huser (text : String) : needsIn s [userSetup text] = [] := by simp [needsIn, userSetup, Ne.symm hs]
  rw [needs_of_muted h]
  simp only [needsIn, List.filter_append] at huser ⊢
  split
  · rfl
  · rw [huser, List.nil_append]

def setupQuotes (program : Program) : List String := program.setup.flatMap Block.quotes

def mainQuotes (program : Program) : List String := program.main.flatMap Block.quotes

/-- the texts of both chains fit outlines that depend on the muted program alone -/
theorem chain_outlines (hadm : ∀ action ∈ m.actions board indent, action.Admissible board) :
    ∃ o o', ∀ program : Program, program.muted = m →
      Fits o program.setupQuotes (program.setupText indent).toList ∧
        Fits o' program.mainQuotes (program.mainText indent).toList := by
  have hsetup : ∀ b ∈ m.setup, ∀ loops, b.CodeOutline indent loops := fun b hb =>
    (b.hasOutline board indent).2 1 fun action ha => hadm action (mem_program_actions.2 (.inr (.inl ⟨b, hb, ha⟩)))
  have hmain : ∀ b ∈ m.main, ∀ loops, b.CodeOutline indent loops := fun b hb =>
    (b.hasOutline board indent).2 1 fun action ha =>
      hadm action (mem_program_actions.2 (.inr (.inr (.inr ⟨b, hb, ha⟩))))
  obtain ⟨o, loops, hfits⟩ := chain_outline hsetup 0
  obtain ⟨o', loops', hfits'⟩ := chain_outline hmain loops
  refine ⟨o, o', ?_⟩
  rintro program rfl
  obtain ⟨hloops, hfits⟩ := hfits program.setup rfl
  refine ⟨hfits, ?_⟩
  rw [mainText, hloops]
  exact (hfits' program.main rfl).2

/-- the setup section fits an outline if the setup statements do -/
theorem setup_outline (m : Program) (indent : Nat) (o : Outline) :
    ∃ o', ∀ program : Program, program.muted = m → Fits o program.setupQuotes (program.setupText indent).toList →
      Fits o' program.setupQuotes ((Registry.ofNeeds (program.needs indent)).render .setup).toList := by
  by_cases hempty : m.setup = []
  · refine ⟨Outline.solid ((Registry.ofNeeds (m.main.flatMap Block.needs)).render .setup), ?_⟩
    intro program hprogram _
    have hnone : program.setup = [] := by
      rw [← hprogram] at hempty
      exact List.map_eq_nil_iff.1 hempty
    have hneeds : program.needs indent = m.main.flatMap Block.needs := by
      rw [needs_of_muted hprogram, hempty]
      rfl
    rw [setupQuotes, hnone, hneeds]
    exact fits_solid _
  · obtain ⟨first, last, -, hsplit⟩ := byRank_setup (fun _ hneed => Block.key_ne_user hneed)
      (needsIn .setup (m.main.flatMap Block.needs))
    refine ⟨(Outline.solid "\n").intercalate ((first.map Need.text).map Outline.solid ++
      (o.trimEnd :: (last.map Need.text).map Outline.solid)), ?_⟩
    intro program hprogram hfits
    have hin : needsIn .setup (program.needs indent) = needsIn .setup (m.setup.flatMap Block.needs) ++
        userSetup (Text.trimEnd (program.setupText indent)) :: needsIn .setup (m.main.flatMap Block.needs) := by
      rw [needs_of_muted hprogram, if_neg (by simpa using hempty)]
      simp [needsIn, userSetup]
    have hquotes : program.setupQuotes = [] ++ (program.setupQuotes ++ []) := by simp
    have htrimmed : Fits o.trimEnd program.setupQuotes (Text.trimEnd (program.setupText indent)).toList := by
      simpa [Text.trimEnd] using hfits.trimEnd
    rw [Registry.render_ofNeeds, hin, hsplit, List.map_append, List.map_cons, hquotes]
    exact fits_intercalate "\n" ((fitsAll_solid _).append (.cons htrimmed (fitsAll_solid _)))

theorem preamble_of_muted (h : program.muted = m) {s : Section} (hs : s ≠ .setup) :
    let constant := Registry.ofNeeds (m.setup.flatMap Block.needs ++ m.main.flatMap Block.needs)
    (Registry.ofNeeds (program.needs indent)).preamble s = constant.preamble s ∧
      (Registry.ofNeeds (program.needs indent)).render s = constant.render s := by
  have hin : needsIn s (program.needs indent) = _ := needsIn_of_muted h hs
  simp only [Registry.preamble, Registry.isEmpty, Registry.stored_ofNeeds, Registry.render_ofNeeds, hin, and_self]

/-- the sketch fits an outline that depends on the muted program alone -/
theorem sketch_outline (hadm : ∀ action ∈ m.actions board indent, action.Admissible board) :
    ∃ o, ∀ program : Program, program.muted = m → Fits o (program.setupQuotes ++ program.mainQuotes)
      ((Registry.ofNeeds (program.needs indent)).assemble indent (program.mainText indent)).toList := by
  obtain ⟨oSetup, oMain, hchains⟩ := chain_outlines hadm
  obtain ⟨oSection, hsection⟩ := setup_outline m indent oSetup
  let constant := Registry.ofNeeds (m.setup.flatMap Block.needs ++ m.main.flatMap Block.needs)
  refine ⟨Outline.solid (constant.preamble .includes ++ constant.preamble .declarations ++ "void setup() \x7b\n") ++
    (oSection.indent indent true ++ (Outline.solid ("\x7d\n\nvoid loop() \x7b\n" ++
      Text.indentLines indent (constant.render .body)) ++ (oMain.indent indent true ++ Outline.solid "\x7d\n"))), ?_⟩
  intro program hprogram
  obtain ⟨hsetup, hmain⟩ := hchains program hprogram
  have hfits := (fits_solid (constant.preamble .includes ++ constant.preamble .declarations ++
    "void setup() \x7b\n")).append (((hsection program hprogram hsetup).indent indent true).append
      ((fits_solid ("\x7d\n\nvoid loop() \x7b\n" ++ Text.indentLines indent (constant.render .body))).append
        ((hmain.indent indent true).append (fits_solid "\x7d\n"))))
  have hquotes : [] ++ (program.setupQuotes ++ ([] ++ (program.mainQuotes ++ []))) =
      program.setupQuotes ++ program.mainQuotes := by simp
  rw [hquotes] at hfits
  rw [Registry.assemble, (preamble_of_muted hprogram (s := .includes) (by decide)).1,
    (preamble_of_muted hprogram (s := .declarations) (by decide)).1,
    (preamble_of_muted hprogram (s := .body) (by decide)).2]
  simp only [String.toList_append, Text.toList_indentLines, List.append_assoc] at hfits ⊢
  exact hfits

theorem map_quote_textBlocks (program : Program) :
    program.textBlocks.map Block.quote = program.setupQuotes ++ program.mainQuotes := by
  rw [textBlocks, List.map_append, List.map_flatMap, List.map_flatMap]
  rfl

theorem muted_admissible {sketch : String} (h : (program.generate board Table.builtin indent).1 = .ok sketch) :
    ∀ action ∈ program.muted.actions board indent, action.Admissible board := by
  have hsucceeds : program.Succeeds board indent := ⟨sketch, h⟩
  obtain ⟨q, hq⟩ := succeeds_iff_performAll.1 hsucceeds
  have hfailure := failure?_muted program board indent
  rw [hq] at hfailure
  cases hrun : performAll (program.muted.actions board indent) (program.muted.start board indent) with
  | ok u r => exact performAll_admissible hrun
  | error e r => rw [hrun] at hfailure; cases hfailure

end Program

/-- **What text blocks say stays between its quotes.** Programs that are the same but for what their text blocks say all
fail in the same way, or all become sketches: the same segments, with the literals of the text blocks that the run comes
to between them. The literals stand in the order of `Program.textBlocks`, which lists the walked text blocks, none more
often than it stands in the program. -/
theorem texts_stay_in_literals (program : Program) (board : Board) (indent : Nat) :
    ((∃ e, ∀ program' : Program, program'.muted = program.muted →
        (program'.generate board Table.builtin indent).1 = .error e) ∨
      ∃ segments : List String, ∀ program' : Program, program'.muted = program.muted →
        segments.length = program'.textBlocks.length + 1 ∧
          (program'.generate board Table.builtin indent).1 =
            .ok (interleave segments (program'.textBlocks.map Block.quote))) ∧
    (∀ b, b ∈ program.textBlocks ↔ b.kind = "text" ∧ ∃ shape level, Walked program shape level b) ∧
      program.textBlocks.Subperm program.blocks := by
  refine ⟨?_, fun b => mem_textBlocks_iff, textBlocks_subperm_blocks program⟩
  cases h : (program.generate board Table.builtin indent).1 with
  | error e => exact .inl ⟨e, fun program' hsame => (generate_error_of_muted hsame board indent e).2 h⟩
  | ok sketch =>
    right
    obtain ⟨o, hfits⟩ := Program.sketch_outline (program.muted_admissible h)
    refine ⟨o.segments.map String.ofList, fun program' hsame => ?_⟩
    obtain ⟨hlength, htext⟩ := (hfits program' hsame).interleave
    rw [← program'.map_quote_textBlocks] at hlength htext
    refine ⟨by simpa using hlength, ?_⟩
    cases h' : (program'.generate board Table.builtin indent).1 with
    | error e =>
      rw [generate_error_of_muted hsame] at h'
      rw [h] at h'
      cases h'
    | ok sketch' => rw [sketch_eq_assemble h', String.toList_inj.1 htext]

/-- a program that prints a text ten times -/
def samplePrinting (text : String) : Program where
  board := none
  setup := []
  main := [⟨"r", "controls_repeat_ext", [], [("TIMES", ⟨"n", "math_number", [("NUM", "10")], [], [], default⟩)],
    [("DO", [⟨"p", "serial_print", [("SERIAL_ID", "Serial")],
      [("CONTENT", ⟨"t", "text", [("TEXT", text)], [], [], default⟩)], [], default⟩])], default⟩]
  sourceId := 0

/-- whatever the text is, quotes, braces and line ends included, the sketch around its literal is the same -/
theorem texts_stay_in_literals_printing :
    ∃ before after : String, ∀ text, ((samplePrinting text).generate Board.uno Table.builtin 2).1 =
      .ok (before ++ Library.literal text ++ after) := by
  have hmuted (text : String) : (samplePrinting text).muted = (samplePrinting "").muted := rfl
  have hblocks (text : String) : (samplePrinting text).textBlocks.map Block.quote = [Library.literal text] := rfl
  have hok : ((samplePrinting "").generate Board.uno Table.builtin 2).1.isOk = true := by decide +kernel
  rcases (texts_stay_in_literals (samplePrinting "") Board.uno 2).1 with ⟨e, he⟩ | ⟨segments, hsegments⟩
  · rw [he _ rfl] at hok
    cases hok
  · have hlength : segments.length = 2 := (hsegments (samplePrinting "") rfl).1
    obtain ⟨before, after, rfl⟩ := List.length_eq_two.1 hlength
    refine ⟨before, after, fun text => ?_⟩
    rw [(hsegments _ (hmuted text)).2, hblocks]
    simp [interleave]

end BlockSketch
