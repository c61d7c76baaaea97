/-
Commands and golden tests come to the same sketch.

`generate` and `check` on one side and golden tests on the other each make their own way from the text of a program to its
sketch: they read the document, look for the board, and let the program become a sketch. `draw` is that way without the
messages, and `Drawing` says where it ended. Both sides are shown to follow it, so what one of them finds the other finds.

Results:
- `sketchOf_fst`, `Golden.check_eq_ok_iff`: the commands and the golden tests both go by what `draw` gives;
- `generate_prints_iff`, `check_finished_iff`, `test_finished_iff`: when each of the commands succeeds;
- `output_of_failure`: a command that fails prints nothing;
- `commands_agree`: `generate`, `check` and golden tests agree about every program.
-/
import BlockSketch.Command.Run

namespace BlockSketch

/-! ## From a text to a sketch -/

/-- what comes of the text of a program: no program, a program for a board that is not known, a program that cannot be
generated, or a sketch -/
inductive Drawing where
  | rejected (r : Rejection)
  | unknownBoard (name : String)
  | failed (e : Failure)
  | drawn (sketch : String)

/-- the way from a program to its sketch -/
def Program.draw (program : Program) (settings : Settings) (asked : Option String) : Drawing :=
  match settings.findBoard? (settings.boardNameFor asked program) with
  | none => .unknownBoard (settings.boardNameFor asked program)
  | some board =>
    match (program.generate board Table.builtin settings.indent).1 with
    | .error e => .failed e
    | .ok sketch => .drawn sketch

def draw (settings : Settings) (asked : Option String) (source : String) : Drawing :=
  match Program.parse source 0 with
  | .error r => .rejected r
  | .ok program => program.draw settings asked

def Drawing.sketch? : Drawing → Option String
  | .drawn sketch => some sketch
  | _ => none

section

variable {settings : Settings} {asked : Option String} {source : String} {program : Program}

theorem Program.draw_cases (program : Program) (settings : Settings) (asked : Option String) :
    (settings.findBoard? (settings.boardNameFor asked program) = none ∧
        program.draw settings asked = .unknownBoard (settings.boardNameFor asked program)) ∨
      ∃ board, settings.findBoard? (settings.boardNameFor asked program) = some board ∧
        ((∃ e, (program.generate board Table.builtin settings.indent).1 = .error e ∧
            program.draw settings asked = .failed e) ∨
          ∃ sketch, (program.generate board Table.builtin settings.indent).1 = .ok sketch ∧
            program.draw settings asked = .drawn sketch) := by
  unfold Program.draw
  cases settings.findBoard? (settings.boardNameFor asked program) with
  | none => exact .inl ⟨rfl, rfl⟩
  | some board =>
    refine .inr ⟨board, rfl, ?_⟩
    simp only
    cases (program.generate board Table.builtin settings.indent).1 with
    | error e => exact .inl ⟨e, rfl, rfl⟩
    | ok sketch => exact .inr ⟨sketch, rfl, rfl⟩

theorem draw_eq_rejected_iff {r : Rejection} :
    draw settings asked source = .rejected r ↔ Program.parse source 0 = .error r := by
  unfold draw
  cases Program.parse source 0 with
  | error r' => simp
  | ok program =>
    rcases program.draw_cases settings asked with ⟨-, h⟩ | ⟨board, -, ⟨e, -, h⟩ | ⟨sketch, -, h⟩⟩ <;> simp [h]

theorem draw_eq_failed_iff {e : Failure} :
    draw settings asked source = .failed e ↔
      ∃ program board, Program.parse source 0 = .ok program ∧
        settings.findBoard? (settings.boardNameFor asked program) = some board ∧
        (program.generate board Table.builtin settings.indent).1 = .error e := by
  unfold draw
  cases Program.parse source 0 with
  | error r => simp
  | ok program =>
    rcases program.draw_cases settings asked with ⟨hboard, h⟩ | ⟨board, hboard, ⟨e', he, h⟩ | ⟨sketch, he, h⟩⟩
    · simp [h, hboard]
    · simp [h, hboard, he]
    · simp [h, hboard, he]

theorem sketchOf_fst (settings : Settings) (asked : Option String) (file source : String) :
    (sketchOf settings asked file source).1 = (draw settings asked source).sketch? := by
  unfold sketchOf draw
  cases Program.parse source 0 with
  | error r => rfl
  | ok program =>
    rcases program.draw_cases settings asked with ⟨hboard, h⟩ | ⟨board, hboard, ⟨e, he, h⟩ | ⟨sketch, he, h⟩⟩
    · simp only [h, hboard, Drawing.sketch?]
    · simp only [h, hboard, he, Drawing.sketch?]
    · simp only [h, hboard, he, Drawing.sketch?]

end

/-! ## Golden tests -/

namespace Text

theorem occursIn_iff (part cs : List Char) : occursIn part cs = true ↔ part <:+: cs := by
  induction cs with
  | nil => simp [occursIn]
  | cons c rest ih => simp [occursIn, ih, List.infix_cons_iff, List.isPrefixOf_iff_prefix]

theorem contains_iff {s part : String} : contains s part = true ↔ part.toList <:+: s.toList := occursIn_iff _ _

end Text

namespace Expectations

variable {e : Expectations}

/-- what came of a program is as expected -/
def Met (e : Expectations) (drawing : Drawing) : Prop :=
  match e.parseError, drawing with
  | true, .rejected _ => True
  | true, _ => False
  | false, .failed found => ∃ wanted, e.error = some wanted ∧ wanted.toList <:+: found.fault.message.toList
  | false, .drawn sketch =>
    e.error = none ∧ (∀ wanted, e.output = some wanted → Text.trim sketch = Text.trim wanted) ∧
      ∀ part ∈ e.contains, part.toList <:+: sketch.toList
  | false, _ => False

theorem judgeSketch_eq_ok_iff {sketch : String} :
    e.judgeSketch sketch = .ok () ↔
      (∀ wanted, e.output = some wanted → Text.trim sketch = Text.trim wanted) ∧
        ∀ part ∈ e.contains, part.toList <:+: sketch.toList := by
  have hparts : (e.contains.find? fun part => !Text.contains sketch part) = none ↔
      ∀ part ∈ e.contains, part.toList <:+: sketch.toList := by simp [Text.contains_iff]
  rw [← hparts]
  unfold judgeSketch
  cases e.output with
  | none =>
    cases e.contains.find? fun part => !Text.contains sketch part with
    | none => simp
    | some part => simp
  | some wanted =>
    by_cases htrim : Text.trim sketch = Text.trim wanted
    · cases e.contains.find? fun part => !Text.contains sketch part with
      | none => simp [htrim]
      | some part => simp [htrim]
    · simp [htrim, bind, Except.bind]

theorem judge_error_eq_ok_iff {found : Failure} :
    e.judge (.error found) = .ok () ↔ ∃ wanted, e.error = some wanted ∧ wanted.toList <:+: found.fault.message.toList := by
  unfold judge
  cases e.error with
  | none => simp
  | some wanted => simp [← Text.contains_iff]

theorem judge_ok_eq_ok_iff {sketch : String} :
    e.judge (.ok sketch) = .ok () ↔ e.error = none ∧ e.judgeSketch sketch = .ok () := by
  unfold judge
  cases e.error with
  | none => simp
  | some wanted => simp

theorem met_of_parseError (h : e.parseError = true) (drawing : Drawing) :
    e.Met drawing ↔ ∃ r, drawing = .rejected r := by
  unfold Met
  rw [h]
  cases drawing <;> simp

variable {description board : Option String} {wanted : String} {drawing : Drawing}

/-- a header that expects a sketch and nothing else -/
theorem met_output_iff :
    Met { description, board, output := some wanted } drawing ↔
      ∃ sketch, drawing.sketch? = some sketch ∧ Text.trim sketch = Text.trim wanted := by
  cases drawing <;> simp [Met, Drawing.sketch?]

/-- a header that expects generation to fail and nothing else -/
theorem met_error_iff :
    Met { description, board, error := some wanted } drawing ↔
      ∃ e, drawing = .failed e ∧ wanted.toList <:+: e.fault.message.toList := by
  cases drawing <;> simp [Met]

end Expectations

/-- a golden test goes by what is drawn -/
theorem Golden.check_eq_ok_iff (t : Golden) (settings : Settings) :
    (t.check settings).1 = .ok () ↔ t.expect.Met (draw settings t.expect.board t.program) := by
  unfold Golden.check draw
  cases Program.parse t.program 0 with
  | error r => cases hparse : t.expect.parseError <;> simp [Expectations.Met, hparse]
  | ok program =>
    rcases program.draw_cases settings t.expect.board with ⟨hboard, h⟩ | ⟨board, hboard, hdrawn⟩
    · cases hparse : t.expect.parseError <;> simp [Expectations.Met, hparse, h, hboard]
    · cases hparse : t.expect.parseError with
      | true =>
        -- a test that expects a rejection does not go on to the board
        rcases hdrawn with ⟨e, -, h⟩ | ⟨sketch, -, h⟩ <;> simp [Expectations.Met, hparse, h]
      | false =>
        rcases hdrawn with ⟨e, he, h⟩ | ⟨sketch, he, h⟩
        · simp only [h, hboard, he, Expectations.judge_error_eq_ok_iff, Expectations.Met, hparse]
        · simp only [h, hboard, he, Expectations.judge_ok_eq_ok_iff, Expectations.judgeSketch_eq_ok_iff,
            Expectations.Met, hparse]

def TestFile.Passes (settings : Settings) (f : TestFile) : Prop := (f.run settings).1.passed = true

theorem TestFile.passes_iff {f : TestFile} {settings : Settings} {t : Golden} (h : Golden.parse f.content = .ok t) :
    f.Passes settings ↔ t.expect.Met (draw settings t.expect.board t.program) := by
  rw [← Golden.check_eq_ok_iff]
  unfold Passes TestFile.run
  rw [h]
  simp only [TestResult.passed]
  cases (t.check settings).1 with
  | error c => simp [complaintOf]
  | ok u => simp [complaintOf]

/-! ## Commands -/

/-- the arguments ask for a job, with the configuration named -/
def Asks (args : List String) (config : Option String) (job : Job) : Prop :=
  ∃ noColor verbose, Invocation.ofArguments args = .ok ⟨noColor, verbose, config, job⟩

/-- the sketch of the program in a file, if there are settings, the file can be read, and it comes to a sketch -/
def sketchIn? (disk : Disk) (config asked : Option String) (file : String) : Option String :=
  match Settings.choose disk config, disk.read file with
  | .ok settings, .ok source => (draw settings asked source).sketch?
  | _, _ => none

section

variable {args : List String} {config board : Option String} {file path : String} {job : Job}
  (environment : List (String × String)) (disk : Disk)

theorem runCommand_of_asks (h : Asks args config job) :
    ∃ noColor verbose, (runCommand args environment disk).code =
        ((Invocation.mk noColor verbose config job).run disk).1.code ∧
      (runCommand args environment disk).output = ((Invocation.mk noColor verbose config job).run disk).1.output := by
  obtain ⟨noColor, verbose, hargs⟩ := h
  refine ⟨noColor, verbose, ?_⟩
  unfold runCommand
  rw [hargs]
  exact ⟨rfl, rfl⟩

theorem sketchIn?_of_error {message : String} (h : Settings.choose disk config = .error message) :
    sketchIn? disk config board file = none := by
  rw [sketchIn?, h]

theorem sketchOfFile_fst {settings : Settings} (h : Settings.choose disk config = .ok settings) :
    (sketchOfFile disk settings board file).1 = sketchIn? disk config board file := by
  unfold sketchOfFile sketchIn?
  rw [h]
  cases disk.read file with
  | error e => rfl
  | ok source => exact sketchOf_fst settings board file source

/-- `generate` succeeds and prints something if that is the sketch in the file -/
theorem generate_prints_iff (h : Asks args config (.generate file board none)) (P : String → Prop) :
    ((runCommand args environment disk).code = 0 ∧ P (runCommand args environment disk).output) ↔
      ∃ sketch, sketchIn? disk config board file = some sketch ∧ P sketch := by
  obtain ⟨noColor, verbose, hcode, houtput⟩ := runCommand_of_asks environment disk h
  rw [hcode, houtput, Invocation.run]
  cases hsettings : Settings.choose disk config with
  | error message => simp [sketchIn?_of_error disk hsettings, Report.failure]
  | ok settings =>
    rw [← sketchOfFile_fst disk hsettings]
    simp only [Job.run, runGenerate]
    rcases sketchOfFile disk settings board file with ⟨_ | sketch, messages⟩
    · simp
    · simp

/-- `check` succeeds if there is a sketch -/
theorem check_finished_iff (h : Asks args config (.check file board)) :
    (runCommand args environment disk).code = 0 ↔ ∃ sketch, sketchIn? disk config board file = some sketch := by
  obtain ⟨noColor, verbose, hcode, -⟩ := runCommand_of_asks environment disk h
  rw [hcode, Invocation.run]
  cases hsettings : Settings.choose disk config with
  | error message => simp [sketchIn?_of_error disk hsettings, Report.failure]
  | ok settings =>
    rw [← sketchOfFile_fst disk hsettings]
    simp only [Job.run, runCheck]
    rcases sketchOfFile disk settings board file with ⟨_ | sketch, messages⟩
    · simp
    · simp

theorem Suite.runSelected_code_iff (settings : Settings) (palette : Palette) (suite : Suite) :
    (suite.runSelected settings palette).code = 0 ↔ ∀ c ∈ suite, ∀ f ∈ c.files, f.Passes settings := by
  have hfailed : ((suite.results settings).filter (!·.passed)).isEmpty = true ↔
      ∀ c ∈ suite, ∀ f ∈ c.files, f.Passes settings := by
    simp only [List.isEmpty_iff, List.filter_eq_nil_iff, Suite.results, List.mem_flatMap, List.mem_map]
    constructor
    · intro h c hc f hf
      have hpassed := h _ ⟨c, hc, f, hf, rfl⟩
      simpa [TestFile.Passes] using hpassed
    · rintro h _ ⟨c, hc, f, hf, rfl⟩
      have hpassed : (f.run settings).1.passed = true := h c hc f hf
      simp [hpassed]
  rw [← hfailed]
  simp only [Suite.runSelected]
  split
  · simp [*]
  · simp [*]

/-- the tests at a path that are to run; a file is run whatever is wanted -/
def Suite.chosen (path : String) (wanted : List String) : Suite :=
  (Suite.atPath disk path).select (if disk.isFile path then [] else wanted)

/-- a suite succeeds if there is something to run and all of it passes -/
theorem Suite.run_code_iff (settings : Settings) (palette : Palette) (wanted : List String) :
    (Suite.run disk path settings palette wanted).code = 0 ↔
      Suite.chosen disk path wanted ≠ [] ∧
        ∀ c ∈ Suite.chosen disk path wanted, ∀ f ∈ c.files, f.Passes settings := by
  unfold Suite.run Suite.chosen
  generalize (if disk.isFile path then [] else wanted) = wanted
  cases Suite.atPath disk path with
  | nil => simp [Suite.select]
  | cons c rest =>
    simp only [List.isEmpty_cons, Bool.false_eq_true, if_false]
    cases Suite.select (c :: rest) wanted with
    | nil => simp
    | cons first others =>
      simp only [List.isEmpty_cons, Bool.false_eq_true, if_false]
      rw [Suite.runSelected_code_iff]
      simp

theorem Suite.run_output (settings : Settings) (palette : Palette) (wanted : List String) :
    (Suite.run disk path settings palette wanted).output = "" := by
  unfold Suite.run
  dsimp only
  generalize (if disk.isFile path then [] else wanted) = wanted
  split
  · rfl
  · split
    · rfl
    · rfl

theorem Job.output_of_failure (settings : Settings) (noColor : Bool) (job : Job)
    (h : (job.run disk settings noColor).1.code ≠ 0) : (job.run disk settings noColor).1.output = "" := by
  cases job with
  | generate file board output =>
    revert h
    simp only [Job.run, runGenerate]
    rcases sketchOfFile disk settings board file with ⟨_ | sketch, messages⟩
    · exact fun _ => rfl
    · cases output with
      | none => exact fun h => absurd rfl h
      | some path =>
        simp only
        cases disk.write path sketch with
        | ok disk => exact fun _ => rfl
        | error e => exact fun _ => rfl
  | check file board =>
    simp only [Job.run, runCheck]
    rcases sketchOfFile disk settings board file with ⟨_ | sketch, messages⟩
    · rfl
    · rfl
  | boards role => exact absurd rfl h
  | test path categories => exact Suite.run_output disk settings _ categories
  | listCategories path => rfl

/-- a command that fails prints nothing -/
theorem output_of_failure (args : List String) (h : (runCommand args environment disk).code ≠ 0) :
    (runCommand args environment disk).output = "" := by
  revert h
  unfold runCommand
  cases Invocation.ofArguments args with
  | error halt =>
    cases halt with
    | misuse => exact fun _ => rfl
    | help => exact fun h => absurd rfl h
    | version => exact fun h => absurd rfl h
  | ok i =>
    simp only [Invocation.run]
    cases Settings.choose disk i.config with
    | error message => exact fun _ => rfl
    | ok settings => exact i.job.output_of_failure disk settings i.noColor

/-- `test` succeeds if there is something to run and all of it passes -/
theorem test_finished_iff {settings : Settings} (hsettings : Settings.choose disk config = .ok settings)
    {wanted : List String} (h : Asks args config (.test path wanted)) :
    (runCommand args environment disk).code = 0 ↔
      Suite.chosen disk path wanted ≠ [] ∧
        ∀ c ∈ Suite.chosen disk path wanted, ∀ f ∈ c.files, f.Passes settings := by
  obtain ⟨noColor, verbose, hcode, -⟩ := runCommand_of_asks environment disk h
  rw [hcode, Invocation.run, hsettings]
  exact Suite.run_code_iff disk settings _ wanted

end

/-! ## Agreement -/

/-- **Commands and golden tests agree.** Whatever is on the disk, with the same program, board and configuration: `check`
succeeds exactly if `generate` does, and a command that fails prints nothing. A golden test of the program with the same
board that expects one thing passes exactly if that is what happens: a sketch, if `generate` prints it but for white space
around it; an error, if the document is a program for a known board and generation fails with a message that contains
it; a rejection, if the document is rejected. Running tests succeeds if there are some and they all pass. -/
theorem commands_agree {config board : Option String} {file : String} {generateArgs checkArgs : List String}
    (hgenerate : Asks generateArgs config (.generate file board none)) (hcheck : Asks checkArgs config (.check file board))
    (environment : List (String × String)) (disk : Disk) :
    let generated := runCommand generateArgs environment disk
    ((runCommand checkArgs environment disk).code = 0 ↔ generated.code = 0) ∧
    (∀ args, (runCommand args environment disk).code ≠ 0 → (runCommand args environment disk).output = "") ∧
    ∀ settings source, Settings.choose disk config = .ok settings → disk.read file = .ok source →
      (∀ (f : TestFile) description wanted,
        Golden.parse f.content = .ok ⟨{ description, board, output := some wanted }, source⟩ →
          (f.Passes settings ↔ generated.code = 0 ∧ Text.trim generated.output = Text.trim wanted)) ∧
      (∀ (f : TestFile) description wanted,
        Golden.parse f.content = .ok ⟨{ description, board, error := some wanted }, source⟩ →
          (f.Passes settings ↔ ∃ program b e, Program.parse source 0 = .ok program ∧
            settings.findBoard? (settings.boardNameFor board program) = some b ∧
            (program.generate b Table.builtin settings.indent).1 = .error e ∧
            wanted.toList <:+: e.fault.message.toList)) ∧
      (∀ (f : TestFile) expect, Golden.parse f.content = .ok ⟨expect, source⟩ → expect.parseError = true →
        (f.Passes settings ↔ ∃ r, Program.parse source 0 = .error r)) ∧
      ∀ testArgs path wanted, Asks testArgs config (.test path wanted) →
        ((runCommand testArgs environment disk).code = 0 ↔
          Suite.chosen disk path wanted ≠ [] ∧
            ∀ c ∈ Suite.chosen disk path wanted, ∀ f ∈ c.files, f.Passes settings) := by
  intro generated
  refine ⟨?_, output_of_failure environment disk, ?_⟩
  · have hsketch := generate_prints_iff environment disk hgenerate fun _ => True
    simp only [and_true] at hsketch
    rw [hsketch]
    exact check_finished_iff environment disk hcheck
  · intro settings source hsettings hread
    refine ⟨?_, ?_, ?_, fun testArgs path wanted => test_finished_iff environment disk hsettings⟩
    · intro f description wanted hparse
      have hsketch : sketchIn? disk config board file = (draw settings board source).sketch? := by
        rw [sketchIn?, hsettings, hread]
      rw [TestFile.passes_iff hparse, Expectations.met_output_iff, ← hsketch]
      exact (generate_prints_iff environment disk hgenerate fun text => Text.trim text = Text.trim wanted).symm
    · intro f description wanted hparse
      rw [TestFile.passes_iff hparse, Expectations.met_error_iff]
      simp only [draw_eq_failed_iff]
      constructor
      · rintro ⟨e, ⟨program, b, hprogram, hboard, herror⟩, hmessage⟩
        exact ⟨program, b, e, hprogram, hboard, herror, hmessage⟩
      · rintro ⟨program, b, e, hprogram, hboard, herror, hmessage⟩
        exact ⟨e, ⟨program, b, hprogram, hboard, herror⟩, hmessage⟩
    · intro f expect hparse hexpect
      rw [TestFile.passes_iff hparse, Expectations.met_of_parseError hexpect]
      simp only [draw_eq_rejected_iff]

/-- a program with a block of a type that is not known -/
def sampleUnknown : String := "[[block]]\nid=\"a\"\ntype=\"q\""

def sampleTest (header : String) : TestFile := ⟨"t", "t", "---\n" ++ header ++ "\n---\n" ++ sampleUnknown⟩

/-- a disk with the program and a golden test that expects it to fail -/
def sampleDisk : Disk where
  root := .folder [("p", .file sampleUnknown), ("t", .file (sampleTest "expect_error=\"'q'\"").content)]

theorem eq_ok_of_toOption {ε α : Type} {x : Except ε α} {a : α} (h : x.toOption = some a) : x = .ok a := by
  cases x with
  | error e => cases h
  | ok b => cases h; rfl

/-- neither command succeeds, so no sketch is what the test expects; the failure is -/
theorem commands_agree_unknown :
    Asks ["generate", "p"] none (.generate "p" none none) ∧ Asks ["check", "p"] none (.check "p" none) ∧
    Settings.choose sampleDisk none = .ok {} ∧ sampleDisk.read "p" = .ok sampleUnknown ∧
    (runCommand ["check", "p"] [] sampleDisk).code ≠ 0 ∧ (runCommand ["generate", "p"] [] sampleDisk).output = "" ∧
    ¬ (sampleTest "expect_output=\"\"").Passes {} ∧ ¬ (sampleTest "expect_parse_error=true").Passes {} ∧
    (∃ program b e, Program.parse sampleUnknown 0 = .ok program ∧
      ({} : Settings).findBoard? (({} : Settings).boardNameFor none program) = some b ∧
      (program.generate b Table.builtin 2).1 = .error e ∧ "'q'".toList <:+: e.fault.message.toList) ∧
    (runCommand ["test", "t"] [] sampleDisk).code = 0 := by
  have hgenerate : Asks ["generate", "p"] none (.generate "p" none none) := ⟨false, false, rfl⟩
  have hcheck : Asks ["check", "p"] none (.check "p" none) := ⟨false, false, rfl⟩
  have htest : Asks ["test", "t"] none (.test "t" []) := ⟨false, false, rfl⟩
  have hcode : (runCommand ["generate", "p"] [] sampleDisk).code ≠ 0 := by decide +kernel
  have hpasses : (sampleTest "expect_error=\"'q'\"").Passes {} := by
    unfold TestFile.Passes
    decide +kernel
  obtain ⟨hboth, hfailure, hall⟩ := commands_agree hgenerate hcheck [] sampleDisk
  obtain ⟨houtput, herror, hreject, hrun⟩ := hall {} sampleUnknown rfl rfl
  have hparsed := (herror _ none "'q'" (eq_ok_of_toOption (by decide +kernel))).1 hpasses
  refine ⟨hgenerate, hcheck, rfl, rfl, fun h => hcode (hboth.1 h), hfailure _ hcode, ?_, ?_, hparsed, ?_⟩
  · intro h
    exact hcode ((houtput _ none "" (eq_ok_of_toOption (by decide +kernel))).1 h).1
  · intro h
    obtain ⟨program, b, e, hprogram, -⟩ := hparsed
    obtain ⟨r, hr⟩ := (hreject _ { parseError := true } (eq_ok_of_toOption (by decide +kernel)) rfl).1 h
    rw [hprogram] at hr
    cases hr
  · have hchosen : Suite.chosen sampleDisk "t" [] = [⟨"", [sampleTest "expect_error=\"'q'\""]⟩] := by decide +kernel
    rw [hrun _ _ _ htest, hchosen]
    simpa using hpasses

end BlockSketch
