/-
A block that has been generated once adds nothing when it is generated again.

What a walk does to a pass is a list of actions that depends on the blocks alone. Once they have all succeeded, every pin
they claim has its role and every key they contribute under is taken, and both stay so, whatever else is generated in
between. So the same actions succeed again and find nothing left to do. The text of an expression does not depend on the
state at all; the text of a statement depends on it only in the names of the counters of its own loops.

Results:
- `performAll_settles`, `performAll_settled`: actions that have succeeded have nothing left to do, and actions with
  nothing left to do succeed without a trace in the registry and the pin table;
- `Template.flatMap_indent`: indenting a text leaves the gaps for counters in it alone;
- `Kind.templated_sentence`, `Block.code_steady`: the loops before a block show in its code in the names of its counters
  and nowhere else;
- `repetition_adds_nothing`: generating an expression or a chain once more, in any later state of the pass.
-/
import BlockSketch.Proofs.Equipment
import BlockSketch.Proofs.Indentation
import BlockSketch.Proofs.ReadBack

namespace BlockSketch

open BlockSketch.Action Scanner

/-! ## Actions with nothing left to do -/

/-- there is nothing left to do about an action: the pin it claims has its role, the key it contributes under is taken -/
def Action.Settled (p : Pass) : Action → Prop
  | .claim _ use => p.board.supports use.pin use.role = true ∧ p.pins.roleOf? use.pin = some use.role
  | .contribute need => ∃ f, p.registry.get? need.place need.key = some f
  | .note _ | .count => True
  | .fail _ _ => False

variable {action : Action} {actions : List Action} {p q r : Pass}

/-- a claim on a pin that has the role already leaves the table as it is -/
theorem claim_of_roleOf? {t : PinTable} {board : Board} {c : Claim} (hs : board.supports c.pin c.role = true)
    (hr : t.roleOf? c.pin = some c.role) : t.claim board c = .ok t := by
  obtain ⟨existing, hget, hrole⟩ := Option.map_eq_some_iff.1 hr
  simp [PinTable.claim, hs, hget, hrole]

theorem settled_of_perform (h : action.perform p = .ok () q) : action.Settled q := by
  cases action with
  | note e => trivial
  | count => trivial
  | fail block fault => rw [perform_fail] at h; cases h
  | contribute need =>
    rw [perform_contribute] at h
    cases h
    exact Registry.get?_contributed p need
  | claim block use =>
    obtain ⟨pins, hc, rfl⟩ := perform_claim_ok h
    refine ⟨(claim_ok_iff.1 ⟨pins, hc⟩).1, ?_⟩
    show pins.roleOf? use.pin = some use.role
    rw [roleOf?_claim hc]
    exact if_pos rfl

/-- nothing that happens later gives a settled action something to do again -/
theorem Action.Settled.mono (h : action.Settled p) (hkeeps : p.Keeps q) (hboard : q.board = p.board) :
    action.Settled q := by
  cases action with
  | note e => trivial
  | count => trivial
  | fail block fault => exact h
  | contribute need =>
    obtain ⟨f, hf⟩ := h
    exact ⟨f, hkeeps.fragments _ _ f hf⟩
  | claim block use =>
    obtain ⟨hs, hr⟩ := h
    refine ⟨?_, hkeeps.roles _ _ hr⟩
    rw [hboard]
    exact hs

/-- actions that have all succeeded have nothing left to do -/
theorem performAll_settles (h : performAll actions p = .ok () q) : ∀ action ∈ actions, action.Settled q := by
  induction actions generalizing p with
  | nil => intro action ha; cases ha
  | cons first rest ih =>
    rw [performAll_cons] at h
    cases hp : first.perform p with
    | error e s => rw [hp] at h; cases h
    | ok u s =>
      rw [hp] at h
      have hrest : performAll rest s = .ok () q := h
      have hkeeps := performAll_keeps rest s
      have hframe := performAll_frame rest s
      rw [hrest] at hkeeps hframe
      intro action ha
      rcases List.mem_cons.1 ha with rfl | ha
      · exact (settled_of_perform hp).mono hkeeps hframe.board
      · exact ih hrest action ha

/-- an action with nothing left to do succeeds and leaves the registry and the pin table alone -/
theorem perform_settled (h : action.Settled p) :
    ∃ q, action.perform p = .ok () q ∧ q.registry = p.registry ∧ q.pins = p.pins := by
  cases action with
  | note e => exact ⟨_, rfl, rfl, rfl⟩
  | count => exact ⟨_, rfl, rfl, rfl⟩
  | fail block fault => exact h.elim
  | contribute need =>
    obtain ⟨f, hf⟩ := h
    refine ⟨_, perform_contribute need p, ?_, rfl⟩
    rcases Pass.contributed_cases p need with ⟨-, -, heq⟩ | ⟨hfree, -⟩
    · rw [heq]
      rfl
    · rw [hfree] at hf
      cases hf
  | claim block use =>
    obtain ⟨hs, hr⟩ := h
    have hclaim : p.pins.claim p.board (Pass.claimOf block use) = .ok p.pins := claim_of_roleOf? hs hr
    refine ⟨p, ?_, rfl, rfl⟩
    rw [perform_claim, hclaim]

/-- **Actions with nothing left to do** all succeed and leave the registry and the pin table as they are. -/
theorem performAll_settled (h : ∀ action ∈ actions, action.Settled p) :
    ∃ q, performAll actions p = .ok () q ∧ q.registry = p.registry ∧ q.pins = p.pins := by
  induction actions generalizing p with
  | nil => exact ⟨p, rfl, rfl, rfl⟩
  | cons first rest ih =>
    obtain ⟨s, hs, hregistry, hpins⟩ := perform_settled (h first List.mem_cons_self)
    have hkeeps := perform_keeps first p
    have hframe := perform_frame first p
    rw [hs] at hkeeps hframe
    obtain ⟨q, hq, hregistry', hpins'⟩ := ih fun action ha =>
      (h action (List.mem_cons_of_mem first ha)).mono hkeeps hframe.board
    refine ⟨q, ?_, hregistry'.trans hregistry, hpins'.trans hpins⟩
    rw [performAll_cons, hs]
    exact hq

/-! ## Texts with gaps for counters -/

/-- a text with gaps, in each of which the name of one of `n` counters is to stand -/
abbrev Template (n : Nat) := List (Char ⊕ Fin n)

namespace Template

variable {n : Nat}

/-- one place of a template: the i-th counter is named as the i-th loop after `loops` -/
def place (loops : Nat) : Char ⊕ Fin n → List Char
  | .inl c => [c]
  | .inr i => (counterName (loops + i + 1)).toList

/-- the template with the names of the next counters after `loops` loops in its gaps -/
def fill (t : Template n) (loops : Nat) : String := String.ofList (t.flatMap (place loops))

theorem toList_fill (t : Template n) (loops : Nat) : (t.fill loops).toList = t.flatMap (place loops) := by
  simp [fill]

def solid (s : String) : Template n := s.toList.map .inl

theorem fill_solid (s : String) (loops : Nat) : (solid s : Template n).fill loops = s := by
  simp [fill, solid, List.flatMap_map, place]

theorem fill_append (t t' : Template n) (loops : Nat) : (t ++ t').fill loops = t.fill loops ++ t'.fill loops := by
  simp [fill]

def indent (width : Nat) : Bool → Template n → Template n
  | start, [] => if start then [] else [.inl '\n']
  | start, .inr i :: rest => (if start then List.replicate width (.inl ' ') else []) ++ .inr i :: indent width false rest
  | start, .inl c :: rest =>
    if c = '\n' then .inl '\n' :: indent width true rest
    else if c = '\r' ∧ rest.head? = some (.inl '\n') then indent width start rest
    else (if start then List.replicate width (.inl ' ') else []) ++ .inl c :: indent width false rest

theorem chars_of_counterName (n : Nat) :
    (counterName n).toList.head? ≠ some '\n' ∧ ∃ before last, (counterName n).toList = before ++ [last] ∧
      '\n' ∉ before ∧ last ≠ '\n' ∧ last ≠ '\r' := by
  obtain ⟨c, rest, hchars, hall, -⟩ := isIdentifier_chars (isIdentifier_counterName n)
  rw [← hchars, List.all_eq_true] at hall
  have hword (m : Char) (hm : isWordChar m = false) : m ∉ (counterName n).toList := by
    intro hmem
    rw [hall m hmem] at hm
    cases hm
  have hn := hword '\n' rfl
  have hr := hword '\r' rfl
  refine ⟨fun hhead => hn (List.mem_of_mem_head? hhead), ?_⟩
  obtain ⟨before, last, hsplit⟩ := (List.eq_nil_or_concat' (counterName n).toList).resolve_left (by simp [hchars])
  rw [hsplit] at hn hr
  simp only [List.mem_append, List.mem_singleton, not_or] at hn hr
  exact ⟨before, last, hsplit, hn.1, Ne.symm hn.2, Ne.symm hr.2⟩

/-- template and text go on with a newline at the same time -/
theorem head_newline (t : Template n) (loops : Nat) :
    (t.flatMap (place loops)).head? = some '\n' ↔ t.head? = some (.inl '\n') := by
  cases t with
  | nil => simp
  | cons x rest =>
    cases x with
    | inl c => simp [place]
    | inr i =>
      obtain ⟨hfirst, before, last, hsplit, -⟩ := chars_of_counterName (loops + i + 1)
      have hne : (counterName (loops + i + 1)).toList ≠ [] := by simp [hsplit]
      rw [List.flatMap_cons, place, List.head?_append_of_ne_nil _ hne]
      simp [hfirst]

/-- **Indentation leaves the gaps alone**: indenting the text is indenting the template. -/
theorem flatMap_indent (width : Nat) (start : Bool) (t : Template n) (loops : Nat) :
    (t.indent width start).flatMap (place loops) = Text.indentFrom width start (t.flatMap (place loops)) := by
  have hblanks (start : Bool) : (if start then List.replicate width (.inl ' ') else [] : Template n).flatMap
      (place loops) = if start then List.replicate width ' ' else [] := by
    cases start
    · rfl
    · simp [List.flatMap_replicate, place]
  induction t generalizing start with
  | nil => cases start <;> rfl
  | cons x rest ih =>
    cases x with
    | inl c =>
      rw [indent, List.flatMap_cons, place, List.singleton_append, Text.indentFrom]
      simp only [head_newline]
      by_cases hc : c = '\n'
      · rw [if_pos hc, if_pos hc, List.flatMap_cons, ih]
        rfl
      · rw [if_neg hc, if_neg hc]
        by_cases hcr : c = '\r' ∧ rest.head? = some (.inl '\n')
        · rw [if_pos hcr, if_pos hcr, ih]
        · rw [if_neg hcr, if_neg hcr, List.flatMap_append, hblanks, List.flatMap_cons, ih]
          rfl
    | inr i =>
      obtain ⟨-, before, last, hsplit, hbefore, hn, hr⟩ := chars_of_counterName (loops + i + 1)
      -- the counter is within one line
      have hwithin : Text.indentFrom width start (before ++ last :: rest.flatMap (place loops)) = _ :=
        Text.indentFrom_within width start hbefore hn hr
      rw [indent, List.flatMap_append, hblanks, List.flatMap_cons, List.flatMap_cons, ih, place, hsplit]
      simpa using hwithin.symm

end Template

/-! ## Texts that depend on the number of loops -/

/-- a text depends on the number of loops before it only in that it names the next `n` counters -/
def Templated (n : Nat) (f : Nat → String) : Prop := ∃ t : Template n, ∀ loops, f loops = t.fill loops

namespace Templated

variable {n m : Nat} {f g : Nat → String}

theorem const (n : Nat) (s : String) : Templated n fun _ => s :=
  ⟨Template.solid s, fun loops => (Template.fill_solid s loops).symm⟩

theorem append (hf : Templated n f) (hg : Templated n g) : Templated n fun loops => f loops ++ g loops := by
  obtain ⟨t, ht⟩ := hf
  obtain ⟨t', ht'⟩ := hg
  refine ⟨t ++ t', fun loops => ?_⟩
  rw [Template.fill_append, ← ht, ← ht']

theorem between (hf : Templated n f) (before after : String) :
    Templated n fun loops => before ++ f loops ++ after :=
  ((const n before).append hf).append (const n after)

theorem counter : Templated 1 fun loops => counterName (loops + 1) := by
  refine ⟨[.inr 0], fun loops => ?_⟩
  simp [Template.fill, Template.place]

theorem more (hf : Templated n f) (m : Nat) : Templated (n + m) f := by
  obtain ⟨t, ht⟩ := hf
  refine ⟨t.map (Sum.map id (Fin.castAdd m)), fun loops => ?_⟩
  rw [ht, Template.fill, Template.fill, List.flatMap_map]
  congr 2
  funext x
  cases x <;> rfl

theorem shift (hf : Templated m f) (n : Nat) : Templated (n + m) fun loops => f (loops + n) := by
  obtain ⟨t, ht⟩ := hf
  refine ⟨t.map (Sum.map id (Fin.natAdd n)), fun loops => ?_⟩
  simp only [ht, Template.fill, List.flatMap_map]
  congr 2
  funext x
  cases x with
  | inl c => rfl
  | inr i => simp [Template.place, Nat.add_assoc]

theorem indent (hf : Templated n f) (width : Nat) : Templated n fun loops => Text.indentLines width (f loops) := by
  obtain ⟨t, ht⟩ := hf
  refine ⟨t.indent width true, fun loops => ?_⟩
  rw [← String.toList_inj, Text.toList_indentLines, ht, Template.toList_fill, Template.toList_fill,
    Template.flatMap_indent]

end Templated

variable {n : Nat} {fs : List (Nat → String)}

theorem templated_getD (h : ∀ f ∈ fs, Templated n f) (i : Nat) :
    Templated n fun loops => (fs.map (· loops)).getD i "" := by
  simp only [List.getD_eq_getElem?_getD, List.getElem?_map]
  cases hi : fs[i]? with
  | none => exact Templated.const n ""
  | some f => exact h f (List.mem_of_getElem? hi)

theorem templated_intercalate (separator : String) (h : ∀ f ∈ fs, Templated n f) :
    Templated n fun loops => separator.intercalate (fs.map (· loops)) := by
  induction fs with
  | nil => exact Templated.const n ""
  | cons f rest ih =>
    have hrest := ih fun g hg => h g (List.mem_cons_of_mem f hg)
    cases rest with
    | nil => simpa using h f List.mem_cons_self
    | cons g rest =>
      simpa [String.intercalate_cons_cons] using
        ((h f List.mem_cons_self).append (Templated.const n separator)).append hrest

/-- the branches of a conditional from conditions and bodies that depend on the number of loops -/
theorem templated_branchTexts (fs : List (Nat → String)) (h : ∀ f ∈ fs, Templated n f) :
    ∃ gs : List (Nat → String), (∀ g ∈ gs, Templated n g) ∧
      ∀ loops, Kind.branchTexts (fs.map (· loops)) = gs.map (· loops) := by
  have hbraced {body : Nat → String} (hbody : Templated n body) : Templated n fun loops => Library.braced (body loops) :=
    hbody.between "\x7b\n" "\x7d"
  match fs with
  | [] => exact ⟨[], by simp, fun _ => rfl⟩
  | [body] => exact ⟨[fun loops => Library.braced (body loops)], by simpa using hbraced (h body (by simp)), fun _ => rfl⟩
  | condition :: body :: rest =>
    obtain ⟨gs, hgs, heq⟩ := templated_branchTexts rest fun f hf => h f (by simp [hf])
    have hbranch := ((h condition (by simp)).between "if (" ") ").append (hbraced (h body (by simp)))
    refine ⟨_ :: gs, List.forall_mem_cons.2 ⟨hbranch, hgs⟩, fun loops => ?_⟩
    exact congrArg (List.cons _) (heq loops)

/-- **Statements name the counters of what they are made of**, each kind in its own way. -/
theorem Kind.templated_sentence (k : Kind) (b : Block) (word : String) (h : ∀ f ∈ fs, Templated n f) :
    Templated n fun loops => k.sentence b word (fs.map (· loops)) := by
  have htext (i : Nat) : Templated n fun loops => (fs.map (· loops)).getD i "" := templated_getD h i
  cases k with
  | servoWrite => exact (htext 0).between (servoName word ++ ".write(") ");\n"
  | digitalWrite => exact (htext 0).between ("digitalWrite(" ++ word ++ ", ") ");\n"
  | analogWrite => exact (htext 0).between ("analogWrite(" ++ word ++ ", ") ");\n"
  | timeDelay => exact (htext 0).between "delay(" ");\n"
  | serialPrint =>
    exact (htext 0).between (word ++ "." ++ (if Library.endsLine b then "println" else "print") ++ "(") ");\n"
  | controlsIf =>
    obtain ⟨gs, hgs, heq⟩ := templated_branchTexts fs h
    have hsentence (loops : Nat) : Kind.controlsIf.sentence b word (fs.map (· loops)) =
        " else ".intercalate (gs.map (· loops)) ++ "\n" := by
      rw [← heq]
      rfl
    rw [funext hsentence]
    exact (templated_intercalate " else " hgs).append (.const n "\n")
  | controlsRepeat =>
    -- the counter stands in the header three times, around the number of turns
    have hstart := (((htext 1).between "for (int " " = 0; ").append (htext 1)).append (.const n " < ")
    have hheader := (((hstart.append (htext 0)).append (.const n "; ")).append (htext 1)).append (.const n "++) ")
    exact (hheader.append ((htext 2).between "\x7b\n" "\x7d")).append (.const n "\n")
  | ledColor => exact .const n ("Rob.SetAllLed(\"" ++ word ++ "\");\n")
  | _ => exact .const n ""

/-! ## The code of a block -/

/-- a text names the counters of its loops, whose number does not depend on how many came before -/
def Steady (f : Nat → String × Nat) : Prop :=
  ∃ n g, Templated n g ∧ ∀ loops, f loops = (g loops, loops + n)

theorem steady_chainText {chain : List (Nat → String × Nat)} (h : ∀ f ∈ chain, Steady f) : Steady (chainText chain) := by
  induction chain with
  | nil => exact ⟨0, fun _ => "", .const 0 "", fun _ => rfl⟩
  | cons f rest ih =>
    obtain ⟨n, first, hfirst, hf⟩ := h f List.mem_cons_self
    obtain ⟨m, others, hothers, hrest⟩ := ih fun g hg => h g (List.mem_cons_of_mem f hg)
    refine ⟨n + m, _, (hfirst.more m).append (hothers.shift n), fun loops => ?_⟩
    simp only [chainText, hf, hrest, Nat.add_assoc]

theorem steady_bodyText (indent : Nat) {chain : List (Nat → String × Nat)} (h : ∀ f ∈ chain, Steady f) :
    Steady (bodyText indent chain) := by
  obtain ⟨n, text, htext, hchain⟩ := steady_chainText h
  refine ⟨n, _, htext.indent indent, fun loops => ?_⟩
  rw [bodyText, hchain]

theorem steady_request (values : String → Option OrderedCode) {chains : String → Nat → String × Nat}
    (hchains : ∀ slot, Steady (chains slot)) (request : Request) : Steady (request.text values chains) := by
  cases request with
  | value slot required default => exact ⟨0, _, .const 0 _, fun _ => rfl⟩
  | chain slot => exact hchains slot
  | counter => exact ⟨1, _, .counter, fun _ => rfl⟩

theorem steady_requests (values : String → Option OrderedCode) {chains : String → Nat → String × Nat}
    (hchains : ∀ slot, Steady (chains slot)) (requests : List Request) :
    ∃ (n : Nat) (fs : List (Nat → String)), (∀ f ∈ fs, Templated n f) ∧
      ∀ loops, Request.texts values chains requests loops = (fs.map (· loops), loops + n) := by
  induction requests with
  | nil => exact ⟨0, [], by simp, fun _ => rfl⟩
  | cons request rest ih =>
    obtain ⟨n, first, hfirst, hrequest⟩ := steady_request values hchains request
    obtain ⟨m, others, hothers, hrest⟩ := ih
    refine ⟨n + m, first :: others.map fun f loops => f (loops + n), ?_, fun loops => ?_⟩
    · rw [List.forall_mem_cons]
      refine ⟨hfirst.more m, fun g hg => ?_⟩
      obtain ⟨f, hf, rfl⟩ := List.mem_map.1 hg
      exact (hothers f hf).shift n
    · rw [Request.texts_cons, hrequest, hrest, ← Nat.add_assoc, List.map_cons, List.map_map]
      rfl

theorem Kind.endLine_sentence (k : Kind) (b : Block) (word : String) (texts : List String) :
    endLine (k.sentence b word texts) = k.sentence b word texts := by
  cases hs : k.shape with
  | statement =>
    obtain ⟨s, hsentence⟩ := Kind.sentence_newline hs b word texts
    rw [hsentence, endLine_newline]
  | value =>
    have hempty : k.sentence b word texts = "" := by cases k <;> first | rfl | cases hs
    rw [hempty]
    rfl

/-- **The code of a block** depends on the loops before it in the names of its counters and nowhere else. -/
theorem Block.code_steady (indent : Nat) (b : Block) : Steady (b.code indent) := by
  induction b using Block.induct with
  | step b _ hs =>
    have hchains (slot : String) : Steady (bodyText indent ((b.statement slot).map (code indent))) := by
      apply steady_bodyText
      intro f hf
      obtain ⟨c, hc, rfl⟩ := List.mem_map.1 hf
      exact hs slot c hc
    obtain ⟨n, fs, hfs, htexts⟩ := steady_requests (fun slot => (b.input? slot).map expression) hchains b.requests
    have hcode (loops : Nat) : b.code indent loops =
        (b.kind?.elim "" fun k => k.sentence b (k.word b) (fs.map (· loops)), loops + n) := by
      have hb : b.texts indent loops = (fs.map (· loops), loops + n) := htexts loops
      simp only [code_eq, hb, Kind.endLine_sentence]
    refine ⟨n, _, ?_, hcode⟩
    cases b.kind? with
    | none => exact .const n ""
    | some k => exact k.templated_sentence b (k.word b) hfs

theorem chainCodeText_steady (indent : Nat) (chain : List Block) : Steady (chainCodeText indent chain) := by
  apply steady_chainText
  intro f hf
  obtain ⟨b, -, rfl⟩ := List.mem_map.1 hf
  exact b.code_steady indent

/-! ## Once more -/

/-- a step that succeeds does all the actions listed for it and gives the result listed for it -/
theorem Performs.of_ok {α : Type} {x : Gen α} {indent depth loops loops' : Nat} {result a : α}
    (h : Performs x indent depth loops actions result loops') (hp : p.Sees indent depth loops) (hx : x p = .ok a q) :
    performAll actions p = .ok () q ∧ a = result ∧ q.uses counterBase = loops' := by
  have hrun := h p hp
  cases ha : performAll actions p with
  | ok u s =>
    rw [ha] at hrun
    obtain ⟨hresult, hsees⟩ := hrun
    rw [hx] at hresult
    cases hresult
    exact ⟨rfl, rfl, hsees.loops⟩
  | error e s =>
    rw [ha] at hrun
    rw [hx] at hrun
    cases hrun

/-- a step whose actions do not depend on the loops counted succeeds again once it has succeeded -/
theorem Performs.again {α : Type} {x : Gen α} {result : Nat → α} {counted : Nat → Nat}
    (h : ∀ loops, Performs x p.indent p.depth loops actions (result loops) (counted loops)) {a : α} (hx : x p = .ok a q)
    (hkeeps : q.Keeps r) (hframe : q.SameFrame r) :
    a = result (p.uses counterBase) ∧ q.uses counterBase = counted (p.uses counterBase) ∧
      ∃ s, x r = .ok (result (r.uses counterBase)) s ∧ s.registry = r.registry ∧ s.pins = r.pins := by
  obtain ⟨hdone, hresult, hcounted⟩ := (h _).of_ok ⟨rfl, rfl, rfl⟩ hx
  have hfirst := performAll_frame actions p
  rw [hdone] at hfirst
  obtain ⟨s, hs, hregistry, hpins⟩ := performAll_settled fun action ha =>
    (performAll_settles hdone action ha).mono hkeeps hframe.board
  have hagain := h (r.uses counterBase) r ⟨hframe.indent.trans hfirst.indent, hframe.depth.trans hfirst.depth, rfl⟩
  rw [hs] at hagain
  exact ⟨hresult, hcounted, s, hagain.1, hregistry, hpins⟩

/-- whatever steps come later, what is on record stays and the frame is the same -/
theorem Step.later (steps : List Step) (p : Pass) :
    p.Keeps (steps.foldl Step.after p) ∧ p.SameFrame (steps.foldl Step.after p) := by
  induction steps generalizing p with
  | nil => exact ⟨Pass.Keeps.refl p, Pass.SameFrame.refl p⟩
  | cons step rest ih =>
    obtain ⟨actions, heq, -⟩ := step.after_eq p
    have hframe := performAll_frame actions p
    rw [← heq] at hframe
    obtain ⟨hkeeps', hframe'⟩ := ih (step.after p)
    exact ⟨(step.keeps p).trans hkeeps', hframe.trans hframe'⟩

/-- a step gives a result and leaves the four sections and the pin table exactly as they are -/
def AddsNothing {α : Type} (x : Gen α) (p : Pass) (result : α) : Prop :=
  ∃ q, x p = .ok result q ∧ q.registry = p.registry ∧ q.pins = p.pins

/-- **A block that has been generated adds nothing when it is generated again.** If an expression or a chain was
generated from some state of a pass, then it can be generated again in every state that further steps lead to, whether
these succeed or fail (asking for the value in a slot is made of such steps, by `afterwards_valueOr`), and adds nothing to
the sections and the pin table. The expression is the same as the first time. The code of the chain is the same up to the
names of its counters: it is one template that depends on the chain alone, each time with the next names of the pass in
its gaps. -/
theorem repetition_adds_nothing (indent : Nat) :
    (∀ (b : Block) (p q : Pass) (code : OrderedCode), valueCode Table.builtin b p = .ok code q →
      ∀ steps : List Step, AddsNothing (valueCode Table.builtin b) (steps.foldl Step.after q) code) ∧
    ∀ chain : List Block, ∃ (n : Nat) (template : Template n), ∀ (p q : Pass) (code : String), p.indent = indent →
      chainCode Table.builtin chain p = .ok code q →
        code = template.fill (p.uses counterBase) ∧ q.uses counterBase = p.uses counterBase + n ∧
        ∀ steps : List Step, AddsNothing (chainCode Table.builtin chain) (steps.foldl Step.after q)
          (template.fill ((steps.foldl Step.after q).uses counterBase)) := by
  constructor
  · intro b p q code hcode steps
    obtain ⟨hkeeps, hframe⟩ := Step.later steps q
    obtain ⟨rfl, -, hagain⟩ :=
      Performs.again (fun loops => valueCode_performs b p.indent p.depth loops) hcode hkeeps hframe
    exact hagain
  · intro chain
    obtain ⟨n, text, ⟨template, htemplate⟩, hchain⟩ := chainCodeText_steady indent chain
    refine ⟨n, template, ?_⟩
    rintro p q code rfl hcode
    have hperforms (loops : Nat) := chainCode_performs chain p.indent p.depth loops
    simp only [hchain, htemplate] at hperforms
    obtain ⟨hfirst, hcounted, -⟩ := Performs.again hperforms hcode (Pass.Keeps.refl q) (Pass.SameFrame.refl q)
    refine ⟨hfirst, hcounted, fun steps => ?_⟩
    obtain ⟨hkeeps, hframe⟩ := Step.later steps q
    exact (Performs.again hperforms hcode hkeeps hframe).2.2

def sampleServoLoop : List Block :=
  [⟨"r", "controls_repeat_ext", [], [("TIMES", ⟨"t", "math_number", [("NUM", "3")], [], [], default⟩)],
    [("DO", [⟨"s", "servo_write", [("SERVO_PIN", "9")], [], [], default⟩])], default⟩]

/-- the loop is generated, then once more, then something fails; the third time it has the third counter, and nothing is
added -/
theorem repetition_adds_nothing_loop :
    ∃ q, chainCode Table.builtin sampleServoLoop { board := Board.uno, indent := 2 } =
        .ok "for (int count = 0; count < 3; count++) \x7b\n  myServo9.write(90);\n\x7d\n" q ∧
      AddsNothing (chainCode Table.builtin sampleServoLoop)
        ([.chain sampleServoLoop, .value ⟨"m", "mystery", [], [], [], default⟩].foldl Step.after q)
        "for (int count3 = 0; count3 < 3; count3++) \x7b\n  myServo9.write(90);\n\x7d\n" := by
  have hfirst : result? (chainCode Table.builtin sampleServoLoop { board := Board.uno, indent := 2 }) =
      some "for (int count = 0; count < 3; count++) \x7b\n  myServo9.write(90);\n\x7d\n" := by
    decide +kernel
  have hthird : result? (chainCode Table.builtin sampleServoLoop
      ([.chain sampleServoLoop, .value ⟨"m", "mystery", [], [], [], default⟩].foldl Step.after
        (afterwards (chainCode Table.builtin sampleServoLoop { board := Board.uno, indent := 2 })))) =
      some "for (int count3 = 0; count3 < 3; count3++) \x7b\n  myServo9.write(90);\n\x7d\n" := by
    decide +kernel
  obtain ⟨q, hq⟩ := result?_eq_some hfirst
  obtain ⟨n, template, hchain⟩ := (repetition_adds_nothing 2).2 sampleServoLoop
  obtain ⟨-, -, hlater⟩ := hchain _ q _ rfl hq
  obtain ⟨s, hs, hregistry, hpins⟩ := hlater [.chain sampleServoLoop, .value ⟨"m", "mystery", [], [], [], default⟩]
  rw [hq] at hthird
  simp only [afterwards, hs, result?, Option.some.injEq] at hthird
  rw [hthird] at hs
  exact ⟨q, hq, s, hs, hregistry, hpins⟩

end BlockSketch
