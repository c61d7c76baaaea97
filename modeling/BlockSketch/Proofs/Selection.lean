/-
Which tests run.

A suite is found by a walk through the folders below a path, kept by category, cut down to the categories that are wanted,
and run category by category. Here the files of a tree are told apart from that walk (`FileTree.Holds`), and what is wanted
is said file by file, through the steps of the way to the file (`StoredFile.LiesIn`), so that nothing has to be known about
categories to say which tests run.

A wanted category is compared without the slashes around it. A file lies in it if the first steps on the way to it spell
the category. Slashes alone are an exception: every file lies below the folder at the top, but only the files in that
folder itself are selected.

Results:
- `mem_files_iff`, `files_nodup`: the listing of a tree has the files it holds, each once;
- `categoryNames_strict`, `categoryFiles_perm`: categories are in the byte order of their names, each once, and share out
  the files;
- `runSelected_ran`: the log of a run tells of every test of the suite, in order;
- `selection_is_exact`: the tests that run are the wanted ones, each once and in order, a category is warned about exactly
  if it alone selects nothing, and the run succeeds exactly if something runs and all of it passes.

Failing case:
- `slash_leaves_folders_out`: a test in a folder lies below `/`, but is not run for it.
-/
import BlockSketch.Proofs.Agreement
import BlockSketch.Proofs.Categories
import BlockSketch.Proofs.DraftOrder
import BlockSketch.Proofs.Success

namespace BlockSketch

/-! ## The files of a tree -/

namespace FileTree

/-- a file is in a tree, at the end of a way through its folders -/
inductive Holds : FileTree → StoredFile → Prop where
  | here {entries : List (String × FileTree)} {name content : String} (h : (name, .file content) ∈ entries) :
    Holds (.folder entries) ⟨[], name, content⟩
  | inside {entries : List (String × FileTree)} {name : String} {tree : FileTree} {f : StoredFile}
    (h : (name, tree) ∈ entries) (hf : Holds tree f) : Holds (.folder entries) ⟨name :: f.folder, f.name, f.content⟩

/-- the entries of a folder have names that are not empty and have no slash, each its own, in any of the folders -/
inductive WellNamed : FileTree → Prop where
  | file (content : String) : WellNamed (.file content)
  | folder {entries : List (String × FileTree)} (hdistinct : (entries.map (·.1)).Nodup)
    (hsteps : ∀ entry ∈ entries, IsStep entry.1) (hbelow : ∀ entry ∈ entries, WellNamed entry.2) :
    WellNamed (.folder entries)

end FileTree

namespace StoredFile

/-- a file further down -/
def under (above : List String) (f : StoredFile) : StoredFile := ⟨above ++ f.folder, f.name, f.content⟩

/-- the way to a file, its name at the end -/
def way (f : StoredFile) : List String := f.folder ++ [f.name]

theorem under_under (above more : List String) (f : StoredFile) : (f.under more).under above = f.under (above ++ more) := by
  simp [under]

theorem way_under (above : List String) (f : StoredFile) : (f.under above).way = above ++ f.way := by
  simp [way, under]

end StoredFile

namespace FileTree

variable {above : List String} {name : String} {tree : FileTree} {entries : List (String × FileTree)} {f : StoredFile}

@[simp] theorem wellNamed_file (content : String) : (file content).WellNamed := .file content

@[simp] theorem wellNamed_folder_iff :
    (folder entries).WellNamed ↔
      (entries.map (·.1)).Nodup ∧ (∀ entry ∈ entries, IsStep entry.1) ∧ ∀ entry ∈ entries, entry.2.WellNamed := by
  constructor
  · rintro (_ | ⟨hdistinct, hsteps, hbelow⟩)
    exact ⟨hdistinct, hsteps, hbelow⟩
  · rintro ⟨hdistinct, hsteps, hbelow⟩
    exact .folder hdistinct hsteps hbelow

/-- a folder holds its own files and what the folders in it hold -/
theorem holds_folder_iff :
    (folder entries).Holds f ↔
      ∃ entry ∈ entries, (∃ content, entry.2 = .file content ∧ f = ⟨[], entry.1, content⟩) ∨
        ∃ g, entry.2.Holds g ∧ f = g.under [entry.1] := by
  constructor
  · intro h
    cases h with
    | here hentry => exact ⟨_, hentry, .inl ⟨_, rfl, rfl⟩⟩
    | inside hentry hf => exact ⟨_, hentry, .inr ⟨_, hf, rfl⟩⟩
  · rintro ⟨⟨name, tree⟩, hentry, ⟨content, rfl, rfl⟩ | ⟨g, hg, rfl⟩⟩
    · exact .here hentry
    · exact .inside hentry hg

mutual

/-- what is listed for an entry of a folder: the file that it is, or what it holds -/
theorem mem_filesAt : ∀ (tree : FileTree) (above : List String) (name : String) (f : StoredFile),
    f ∈ filesAt above name tree ↔ (∃ content, tree = .file content ∧ f = ⟨above, name, content⟩) ∨
      ∃ g, tree.Holds g ∧ f = g.under (above ++ [name])
  | .file content, above, name, f => by
    rw [filesAt, List.mem_singleton]
    constructor
    · intro h
      exact .inl ⟨content, rfl, h⟩
    · rintro (⟨_, htree, rfl⟩ | ⟨g, hg, -⟩)
      · cases htree
        rfl
      · cases hg
  | .folder entries, above, name, f => by
    rw [filesAt, mem_filesAmong entries]
    constructor
    · intro h
      exact .inr h
    · rintro (⟨_, htree, -⟩ | h)
      · cases htree
      · exact h

theorem mem_filesAmong : ∀ (entries : List (String × FileTree)) (above : List String) (f : StoredFile),
    f ∈ filesAmong above entries ↔ ∃ g, (folder entries).Holds g ∧ f = g.under above
  | [], above, f => by
    rw [filesAmong]
    simp [holds_folder_iff]
  | (name, tree) :: rest, above, f => by
    rw [filesAmong, List.mem_append, mem_filesAt tree, mem_filesAmong rest]
    simp only [holds_folder_iff, List.mem_cons]
    constructor
    · rintro ((⟨content, rfl, rfl⟩ | ⟨g, hg, rfl⟩) | ⟨_, ⟨entry, hentry, hheld⟩, rfl⟩)
      · exact ⟨⟨[], name, content⟩, ⟨_, .inl rfl, .inl ⟨content, rfl, rfl⟩⟩, by simp [StoredFile.under]⟩
      · exact ⟨g.under [name], ⟨_, .inl rfl, .inr ⟨g, hg, rfl⟩⟩, (StoredFile.under_under _ _ _).symm⟩
      · exact ⟨_, ⟨entry, .inr hentry, hheld⟩, rfl⟩
    · rintro ⟨_, ⟨entry, rfl | hentry, hheld⟩, rfl⟩
      · rcases hheld with ⟨content, hfile, rfl⟩ | ⟨g, hg, rfl⟩
        · exact .inl (.inl ⟨content, hfile, by simp [StoredFile.under]⟩)
        · exact .inl (.inr ⟨g, hg, StoredFile.under_under _ _ _⟩)
      · exact .inr ⟨_, ⟨entry, hentry, hheld⟩, rfl⟩

end

/-- **The listing of a folder** has the files that the folder holds. -/
theorem mem_files_iff : f ∈ (folder entries).files ↔ (folder entries).Holds f := by
  rw [files, FileTree.entries, mem_filesAmong]
  simp [StoredFile.under]

/-- the way to what is listed for an entry goes through the entry -/
theorem way_of_mem_filesAt (h : f ∈ filesAt above name tree) : above ++ [name] <+: f.way := by
  rcases (mem_filesAt tree above name f).1 h with ⟨content, -, rfl⟩ | ⟨g, -, rfl⟩
  · exact List.prefix_refl _
  · rw [StoredFile.way_under]
    exact List.prefix_append _ _

/-- entries of two names have no file in common -/
theorem filesAt_disjoint {other : String} {tree' : FileTree} (hne : name ≠ other) :
    List.Disjoint (filesAt above name tree) (filesAt above other tree') := by
  intro f hf hf'
  have hsame : above ++ [name] = above ++ [other] :=
    (List.prefix_of_prefix_length_le (way_of_mem_filesAt hf) (way_of_mem_filesAt hf') (by simp)).eq_of_length (by simp)
  simp at hsame
  exact hne hsame

theorem filesAmong_eq_flatMap (above : List String) (entries : List (String × FileTree)) :
    filesAmong above entries = entries.flatMap fun entry => filesAt above entry.1 entry.2 := by
  induction entries with
  | nil => rw [filesAmong]; rfl
  | cons entry rest ih => rw [filesAmong, ih, List.flatMap_cons]

/-- in a folder whose entries have different names, no file is listed twice if no entry lists one twice -/
theorem filesAmong_nodup (hnames : (entries.map (·.1)).Nodup)
    (hentries : ∀ entry ∈ entries, (filesAt above entry.1 entry.2).Nodup) : (filesAmong above entries).Nodup := by
  rw [filesAmong_eq_flatMap, List.nodup_flatMap]
  refine ⟨hentries, ?_⟩
  rw [List.Nodup, List.pairwise_map] at hnames
  exact hnames.imp fun hne => filesAt_disjoint hne

theorem filesAt_nodup (h : tree.WellNamed) : ∀ (above : List String) (name : String), (filesAt above name tree).Nodup := by
  induction h with
  | file content =>
    intro above name
    rw [filesAt]
    exact List.nodup_singleton _
  | folder hdistinct _ _ ih =>
    intro above name
    rw [filesAt]
    exact filesAmong_nodup hdistinct fun entry hentry => ih entry hentry _ _

/-- **No file is listed twice** if the entries of every folder have different names. -/
theorem files_nodup (h : (folder entries).WellNamed) : (folder entries).files.Nodup := by
  obtain ⟨hdistinct, -, hbelow⟩ := wellNamed_folder_iff.1 h
  exact filesAmong_nodup hdistinct fun entry hentry => filesAt_nodup (hbelow entry hentry) _ _

theorem isStep_of_holds (htree : tree.WellNamed) (hheld : tree.Holds f) : ∀ step ∈ f.folder, IsStep step := by
  induction hheld with
  | here hentry => simp
  | inside hentry hf ih =>
    obtain ⟨-, hsteps, hbelow⟩ := wellNamed_folder_iff.1 htree
    intro step hstep
    rcases List.mem_cons.1 hstep with rfl | hfurther
    · exact hsteps _ hentry
    · exact ih (hbelow _ hentry) step hfurther

end FileTree

/-! ## Categories -/

namespace StoredFile

def IsTest (f : StoredFile) : Prop := ".test.toml".toList <:+ f.name.toList

theorem isTest_iff {f : StoredFile} : f.isTest = true ↔ f.IsTest := List.isSuffixOf_iff_suffix

end StoredFile

namespace Text

theorem sortNames_sorted (names : List String) : (sortNames names).Pairwise fun a b => bytes a ≤ bytes b := by
  have hsorted : ByName (sortByName (names.map fun name => (name, ()))) := sortByName_byName _
  have hsame : sortNames names = (sortByName (names.map fun name => (name, ()))).map (·.1) := by
    have hmap := List.map_mergeSort (r := fun a b : String × Unit => !decide (b.1 < a.1))
      (s := fun a b : String => !decide (b < a)) (f := Prod.fst) (l := names.map fun name => (name, ()))
      (fun _ _ _ _ => rfl)
    rw [sortByName, hmap]
    simp [sortNames, Function.comp_def]
  rw [hsame, List.pairwise_map]
  exact hsorted

end Text

theorem eraseDups_nodup (names : List String) : names.eraseDups.Nodup := by
  match names with
  | [] => exact List.nodup_nil
  | name :: rest =>
    rw [List.eraseDups_cons, List.nodup_cons]
    constructor
    · rw [List.mem_eraseDups]
      simp
    · exact eraseDups_nodup (rest.filter fun other => !other == name)
termination_by names.length
decreasing_by exact Nat.lt_succ_of_le (List.length_filter_le _ _)

namespace Suite

variable {files : List StoredFile} {category : String} {f : StoredFile}

/-- **Categories are in the byte order of their names**, each once. -/
theorem categoryNames_strict (files : List StoredFile) :
    (categoryNames files).Pairwise fun a b => Text.bytes a < Text.bytes b := by
  have hnodup : (categoryNames files).Nodup :=
    (List.mergeSort_perm _ _).nodup_iff.2 (eraseDups_nodup (files.map (·.category)))
  refine (Text.sortNames_sorted _).imp₂ (fun a b hle hne => ?_) hnodup
  rcases lt_trichotomy a b with hlt | heq | hgt
  · exact Text.bytes_lt_iff.2 hlt
  · exact absurd heq hne
  · exact absurd (Text.bytes_lt_iff.2 hgt) (List.not_lt.2 hle)

theorem mem_categoryNames : category ∈ categoryNames files ↔ ∃ f ∈ files, f.category = category := by
  rw [categoryNames, Text.sortNames, List.mem_mergeSort, List.mem_eraseDups, List.mem_map]

/-- **A category has the files whose folder it is.** -/
theorem categoryFiles_perm (files : List StoredFile) (category : String) :
    (categoryFiles files category).Perm (files.filter (·.category == category)) := by
  have hperm := (List.mergeSort_perm ((files.filter (·.category == category)).map fun f => (f.name, f))
    fun a b => !decide (b.1 < a.1)).map (·.2)
  simpa [categoryFiles, Text.sortByName, Function.comp_def] using hperm

theorem mem_categoryFiles : f ∈ categoryFiles files category ↔ f ∈ files ∧ f.category = category := by
  rw [(categoryFiles_perm files category).mem_iff, List.mem_filter, beq_iff_eq]

theorem categoryFiles_sorted (files : List StoredFile) (category : String) :
    (categoryFiles files category).Pairwise fun f g => Text.bytes f.name ≤ Text.bytes g.name := by
  have hnamed : ∀ entry ∈ Text.sortByName ((files.filter (·.category == category)).map fun f => (f.name, f)),
      entry.1 = entry.2.name := by
    intro entry hentry
    obtain ⟨f, -, rfl⟩ := List.mem_map.1 (Text.mem_sortByName.1 hentry)
    rfl
  rw [categoryFiles, List.pairwise_map]
  refine (Text.sortByName_byName _).imp_of_mem fun ha hb hle => ?_
  rw [← hnamed _ ha, ← hnamed _ hb]
  exact hle

end Suite

/-! ## What the log tells -/

/-- the test that a note tells of, and whether it passed -/
def Event.ran? : Event → Option (String × Bool)
  | .testRan path passed => some (path, passed)
  | _ => none

def Message.ran? : Message → Option (String × Bool)
  | .line _ => none
  | .event e => e.ran?

/-- the tests that a report tells of, in order, and whether they passed -/
def Report.ran (r : Report) : List (String × Bool) := r.messages.filterMap Message.ran?

open BlockSketch.Action in
/-- the only notes of a walk that are not about contributions are those on statements -/
theorem Block.note_of_mem_actions (b : Block) : ∀ shape level e, note e ∈ b.actions shape level →
    ∃ id kind, e = .statement id kind := by
  induction b using Block.induct with
  | step b hv hs =>
    intro shape level e h
    have hopening (ho : note e ∈ b.opening shape) : ∃ id kind, e = .statement id kind := by
      cases shape with
      | value => cases ho
      | statement => cases List.mem_singleton.1 ho; exact ⟨_, _, rfl⟩
    cases hrefusal : b.refusal? shape level with
    | some fault =>
      rw [actions_eq, hrefusal] at h
      rcases List.mem_append.1 h with ho | hfail
      · exact hopening ho
      · cases List.mem_singleton.1 hfail
    | none =>
      rcases (mem_actions hrefusal).1 h with ho | ⟨request, -, hrequest⟩ | hown
      · exact hopening ho
      · rcases mem_request_actions.1 hrequest with ⟨⟨slotShape, slot⟩, c, -, hc, hinside⟩ | ⟨-, hcount⟩
        · cases slotShape with
          | value => exact hv slot c (Option.mem_toList.1 hc) _ _ _ hinside
          | statement => exact hs slot c hc _ _ _ hinside
        · cases hcount
      · rcases List.mem_append.1 hown with hclaim | hneed
        · obtain ⟨use, -, heq⟩ := List.mem_map.1 hclaim
          cases heq
        · obtain ⟨need, -, heq⟩ := List.mem_map.1 hneed
          cases heq

open BlockSketch.Action in
/-- what is in the journal after actions was there before, is a note among them, or is about a contribution -/
theorem journal_performAll {actions : List Action} {p : Pass} {e : Event}
    (h : e ∈ (afterwards (performAll actions p)).journal) (hran : e.ran?.isSome) : e ∈ p.journal ∨ note e ∈ actions := by
  induction actions generalizing p with
  | nil => exact .inl h
  | cons action rest ih =>
    have hfirst : e ∈ (afterwards (action.perform p)).journal → e ∈ p.journal ∨ note e = action := by
      intro he
      cases action with
      | note e' =>
        rcases List.mem_cons.1 he with rfl | he
        · exact .inr rfl
        · exact .inl he
      | count => exact .inl he
      | fail block fault => exact .inl he
      | contribute need =>
        rcases List.mem_cons.1 he with rfl | he
        · split at hran <;> cases hran
        · exact .inl he
      | claim block use =>
        rcases afterwards_claim block use p with ⟨pins, -, heq⟩ | heq
        · rw [heq] at he
          exact .inl he
        · rw [heq] at he
          exact .inl he
    rw [performAll_cons] at h
    have hdone : e ∈ (afterwards (action.perform p)).journal ∨ note e ∈ rest := by
      cases hp : action.perform p with
      | ok u q => rw [hp] at h; exact ih h
      | error e' q => rw [hp] at h; exact .inl h
    rcases hdone with he | hrest
    · rcases hfirst he with he | rfl
      · exact .inl he
      · exact .inr List.mem_cons_self
    · exact .inr (List.mem_cons_of_mem _ hrest)

theorem ran?_of_generate (program : Program) (board : Board) (indent : Nat) :
    ∀ e ∈ (program.generate board Table.builtin indent).2, e.ran? = none := by
  intro e he
  rw [← Option.not_isSome_iff_eq_none]
  intro hran
  have hwalk : e ∉ (afterwards (Action.performAll (program.actions board indent) (program.start board indent))).journal := by
    intro hj
    rcases journal_performAll hj hran with hstart | hnote
    · cases hstart
    · rcases mem_program_actions.1 hnote with heq | ⟨b, -, hb⟩ | ⟨need, -, heq⟩ | ⟨b, -, hb⟩
      · cases heq
        cases hran
      · obtain ⟨id, kind, rfl⟩ := b.note_of_mem_actions _ _ _ hb
        cases hran
      · cases heq
      · obtain ⟨id, kind, rfl⟩ := b.note_of_mem_actions _ _ _ hb
        cases hran
  unfold Program.generate at he
  rw [runProgram_eq] at he
  cases hrun : Action.performAll (program.actions board indent) (program.start board indent) with
  | ok u q =>
    rw [hrun] at he hwalk
    -- the layout takes two notes of its own
    have hnotes : e ∈ (Event.traversalComplete q.pins.size :: q.journal) ∨
        e = .assembling (q.registry.size .includes) (q.registry.size .declarations) (q.registry.size .setup)
          (q.registry.size .body) := by
      have hmem : e ∈ (Event.assembling _ _ _ _ :: .traversalComplete q.pins.size :: q.journal).reverse := he
      rcases List.mem_cons.1 (List.mem_reverse.1 hmem) with h | h
      · exact .inr h
      · exact .inl h
    rcases hnotes with h | rfl
    · rcases List.mem_cons.1 h with rfl | h
      · cases hran
      · exact hwalk h
    · cases hran
  | error e' q =>
    rw [hrun] at he hwalk
    exact hwalk (List.mem_reverse.1 he)

theorem Golden.ran?_of_check (t : Golden) (settings : Settings) : ∀ e ∈ (t.check settings).2, e.ran? = none := by
  unfold Golden.check
  cases Program.parse t.program 0 with
  | error r => cases t.expect.parseError <;> simp
  | ok program =>
    cases t.expect.parseError with
    | true => simp
    | false =>
      simp only
      cases settings.findBoard? (settings.boardNameFor t.expect.board program) with
      | none => simp
      | some board => exact ran?_of_generate program board settings.indent

theorem TestFile.ran?_of_run (f : TestFile) (settings : Settings) : ∀ e ∈ (f.run settings).2, e.ran? = none := by
  unfold TestFile.run
  cases Golden.parse f.content with
  | error c => simp
  | ok t => exact t.ran?_of_check settings

theorem TestFile.run_path (f : TestFile) (settings : Settings) : (f.run settings).1.path = f.path := by
  unfold TestFile.run
  cases Golden.parse f.content with
  | error c => rfl
  | ok t => rfl

namespace Suite

variable (settings : Settings) (palette : Palette)

theorem testMessages_ran (f : TestFile) :
    (testMessages palette (f.run settings).1 (f.run settings).2).filterMap Message.ran? =
      [(f.path, (f.run settings).1.passed)] := by
  have hquiet : ((f.run settings).2.map Message.event).filterMap Message.ran? = [] := by
    rw [List.filterMap_map, List.filterMap_eq_nil_iff]
    exact f.ran?_of_run settings
  rw [testMessages, List.filterMap_append, hquiet, ← f.run_path settings]
  rfl

theorem failureMessages_ran (result : TestResult) : (failureMessages palette result).filterMap Message.ran? = [] := by
  unfold failureMessages
  cases result.complaint with
  | none => rfl
  | some c => simp [Message.ran?, List.filterMap_eq_nil_iff]

/-- **The log of a run tells of every test of the suite**, category by category, and of nothing else. -/
theorem runSelected_ran (suite : Suite) :
    (suite.runSelected settings palette).ran =
      suite.flatMap fun c => c.files.map fun f => (f.path, (f.run settings).1.passed) := by
  have hcategory (c : Category) :
      ([.line "", .line (palette.bold c.title)] ++ c.files.flatMap fun f =>
        testMessages palette (f.run settings).1 (f.run settings).2 : List Message).filterMap Message.ran? =
        c.files.map fun f => (f.path, (f.run settings).1.passed) := by
    have htests : (c.files.flatMap fun f => testMessages palette (f.run settings).1 (f.run settings).2).filterMap
        Message.ran? = c.files.map fun f => (f.path, (f.run settings).1.passed) := by
      rw [List.filterMap_flatMap, List.map_eq_flatMap]
      simp only [testMessages_ran]
    rw [List.filterMap_append, htests]
    rfl
  have hfailed (results : List TestResult) : (results.flatMap (failureMessages palette)).filterMap Message.ran? = [] := by
    rw [List.filterMap_flatMap]
    simp [failureMessages_ran]
  unfold Report.ran runSelected
  simp only [List.filterMap_append, hfailed]
  rw [List.filterMap_flatMap]
  simp only [hcategory]
  simp [Message.ran?]

end Suite

/-! ## The selection -/

/-- the wanted folders among those of some files, in order, each with its files -/
def wantedFolders (files : List StoredFile) (wanted : List String) : List (String × List StoredFile) :=
  ((Suite.categoryNames files).filter fun c =>
    wanted.isEmpty || wanted.any fun w => Suite.isWithin c (Suite.wantedName w)).map fun c => (c, Suite.categoryFiles files c)

/-- folders below a path with their files, as a suite -/
def suiteOf (path : String) (folders : List (String × List StoredFile)) : Suite :=
  folders.map fun s => ⟨s.1, s.2.map (·.toTest path)⟩

/-- what is said of a wanted category in which there is no test -/
def strangerWarning (wanted : String) : Message :=
  .line ("warning: no test category named " ++ singleQuoted (Suite.wantedName wanted))

/-- the file is wanted, or whatever there is -/
def StoredFile.Wanted (f : StoredFile) (wanted : List String) : Prop :=
  wanted = [] ∨ ∃ w ∈ wanted, f.LiesIn (Suite.wantedName w)

section

variable {files : List StoredFile} {wanted : List String} {f : StoredFile}

theorem wantedCategory_iff (hsteps : ∀ step ∈ f.folder, FileTree.IsStep step) :
    (wanted.isEmpty || wanted.any fun w => Suite.isWithin f.category (Suite.wantedName w)) = true ↔ f.Wanted wanted := by
  simp only [Bool.or_eq_true, List.isEmpty_iff, List.any_eq_true, Suite.isWithin_eq_goesBy, Suite.goesBy_iff_liesIn hsteps]
  rfl

theorem mem_wantedFolders {s : String × List StoredFile} (h : s ∈ wantedFolders files wanted) :
    s.1 ∈ Suite.categoryNames files ∧ s.2 = Suite.categoryFiles files s.1 := by
  obtain ⟨c, hc, rfl⟩ := List.mem_map.1 h
  exact ⟨(List.mem_filter.1 hc).1, rfl⟩

/-- the wanted folders have the wanted files -/
theorem mem_files_wantedFolders (hsteps : ∀ f ∈ files, ∀ step ∈ f.folder, FileTree.IsStep step) :
    f ∈ (wantedFolders files wanted).flatMap (·.2) ↔ f ∈ files ∧ f.Wanted wanted := by
  simp only [wantedFolders, List.mem_flatMap, List.mem_map, List.mem_filter]
  constructor
  · rintro ⟨_, ⟨c, ⟨-, hwanted⟩, rfl⟩, hf⟩
    obtain ⟨hmem, rfl⟩ := Suite.mem_categoryFiles.1 hf
    exact ⟨hmem, (wantedCategory_iff (hsteps f hmem)).1 hwanted⟩
  · rintro ⟨hmem, hwanted⟩
    refine ⟨_, ⟨f.category, ⟨Suite.mem_categoryNames.2 ⟨f, hmem, rfl⟩, ?_⟩, rfl⟩, Suite.mem_categoryFiles.2 ⟨hmem, rfl⟩⟩
    exact (wantedCategory_iff (hsteps f hmem)).2 hwanted

theorem wantedFolders_strict (files : List StoredFile) (wanted : List String) :
    ((wantedFolders files wanted).map (·.1)).Pairwise fun a b => Text.bytes a < Text.bytes b := by
  have hnames : (wantedFolders files wanted).map (·.1) = (Suite.categoryNames files).filter fun c =>
      wanted.isEmpty || wanted.any fun w => Suite.isWithin c (Suite.wantedName w) := by
    simp [wantedFolders, Function.comp_def]
  rw [hnames]
  exact (Suite.categoryNames_strict files).filter _

theorem wantedFolders_nodup (h : files.Nodup) : ((wantedFolders files wanted).flatMap (·.2)).Nodup := by
  rw [List.nodup_flatMap]
  constructor
  · intro s hs
    rw [(mem_wantedFolders hs).2]
    exact (Suite.categoryFiles_perm files s.1).nodup_iff.2 (h.filter _)
  · have hstrict := List.pairwise_map.1 (wantedFolders_strict files wanted)
    refine hstrict.imp_of_mem fun {s t} hs ht hlt => ?_
    show List.Disjoint s.2 t.2
    intro f hfs hft
    rw [(mem_wantedFolders hs).2] at hfs
    rw [(mem_wantedFolders ht).2] at hft
    rw [← (Suite.mem_categoryFiles.1 hfs).2, ← (Suite.mem_categoryFiles.1 hft).2] at hlt
    exact List.lt_irrefl _ hlt

theorem select_discover (path : String) (tree : FileTree) (wanted : List String) :
    (Suite.discover path tree).select wanted = suiteOf path (wantedFolders (tree.files.filter (·.isTest)) wanted) := by
  simp [Suite.discover, Suite.select, suiteOf, wantedFolders, List.filter_map, Function.comp_def]

theorem discover_eq_nil_iff {path : String} {tree : FileTree} :
    Suite.discover path tree = [] ↔ ∀ f ∈ tree.files, f.isTest = false := by
  rw [Suite.discover, List.map_eq_nil_iff, List.eq_nil_iff_forall_not_mem]
  simp only [Suite.mem_categoryNames, List.mem_filter]
  constructor
  · intro h f hf
    rw [← Bool.not_eq_true]
    exact fun htest => h f.category ⟨f, ⟨hf, htest⟩, rfl⟩
  · rintro h _ ⟨f, ⟨hf, htest⟩, -⟩
    rw [h f hf] at htest
    cases htest

/-- a category goes by a wanted name if a test lies in it -/
theorem any_goesBy_iff {path : String} {tree : FileTree} {w : String}
    (hsteps : ∀ f ∈ tree.files, ∀ step ∈ f.folder, FileTree.IsStep step) :
    ((Suite.discover path tree).any fun c => Suite.goesBy c.name w) = true ↔
      ∃ f ∈ tree.files, f.isTest = true ∧ f.LiesIn w := by
  simp only [Suite.discover, List.any_map, List.any_eq_true, Function.comp_apply, Suite.mem_categoryNames, List.mem_filter]
  constructor
  · rintro ⟨_, ⟨f, ⟨hf, htest⟩, rfl⟩, hgoes⟩
    exact ⟨f, hf, htest, (Suite.goesBy_iff_liesIn (hsteps f hf)).1 hgoes⟩
  · rintro ⟨f, hf, htest, hlies⟩
    exact ⟨_, ⟨f, ⟨hf, htest⟩, rfl⟩, (Suite.goesBy_iff_liesIn (hsteps f hf)).2 hlies⟩

/-- what runs of a suite, in terms of the files of the tree -/
theorem ran_suiteOf (settings : Settings) (palette : Palette) (path : String) (folders : List (String × List StoredFile)) :
    ((suiteOf path folders).runSelected settings palette).ran = (folders.flatMap (·.2)).map fun f =>
      (f.pathBelow path, ((f.toTest path).run settings).1.passed) := by
  rw [Suite.runSelected_ran, suiteOf, List.flatMap_map, List.map_flatMap]
  simp [Function.comp_def, StoredFile.toTest]

theorem code_suiteOf (settings : Settings) (palette : Palette) (path : String) (folders : List (String × List StoredFile)) :
    ((suiteOf path folders).runSelected settings palette).code = 0 ↔
      ∀ f ∈ folders.flatMap (·.2), (f.toTest path).Passes settings := by
  rw [Suite.runSelected_code_iff]
  constructor
  · intro h f hf
    obtain ⟨s, hs, hf⟩ := List.mem_flatMap.1 hf
    exact h _ (List.mem_map.2 ⟨s, hs, rfl⟩) _ (List.mem_map.2 ⟨f, hf, rfl⟩)
  · intro h c hc test htest
    obtain ⟨s, hs, rfl⟩ := List.mem_map.1 hc
    obtain ⟨f, hf, rfl⟩ := List.mem_map.1 htest
    exact h f (List.mem_flatMap.2 ⟨s, hs, hf⟩)

theorem ran_warnings (strangers : List String) : (strangers.map strangerWarning).filterMap Message.ran? = [] := by
  simp [strangerWarning, Message.ran?, List.filterMap_map, Function.comp_def]

/-- every wanted folder has a file, and its files are in it -/
theorem wantedFolders_grouped : ∀ s ∈ wantedFolders files wanted, s.2 ≠ [] ∧ ∀ f ∈ s.2, f.category = s.1 := by
  intro s hs
  obtain ⟨hname, hfiles⟩ := mem_wantedFolders hs
  obtain ⟨f, hf, hcategory⟩ := Suite.mem_categoryNames.1 hname
  rw [hfiles]
  exact ⟨List.ne_nil_of_mem (Suite.mem_categoryFiles.2 ⟨hf, hcategory⟩), fun g hg => (Suite.mem_categoryFiles.1 hg).2⟩

theorem exists_file_iff :
    (∃ f, f ∈ (wantedFolders files wanted).flatMap (·.2)) ↔ wantedFolders files wanted ≠ [] := by
  constructor
  · rintro ⟨f, hf⟩ hnil
    rw [hnil] at hf
    cases hf
  · intro hne
    obtain ⟨s, hs⟩ := List.exists_mem_of_ne_nil _ hne
    obtain ⟨f, hf⟩ := List.exists_mem_of_ne_nil _ (wantedFolders_grouped s hs).1
    exact ⟨f, List.mem_flatMap.2 ⟨s, hs, hf⟩⟩

end

/-- What comes of running the tests below a folder: `folders` are the folders whose tests run, each with its tests, and
`strangers` the wanted categories that are warned about. -/
structure SelectsExactly (tree : FileTree) (path : String) (settings : Settings) (palette : Palette) (wanted : List String)
    (report : Report) (folders : List (String × List StoredFile)) (strangers : List String) : Prop where
  /-- the tests that run are the test files in the tree that are wanted -/
  selected : ∀ f, f ∈ folders.flatMap (·.2) ↔ tree.Holds f ∧ f.IsTest ∧ f.Wanted wanted
  /-- none of them runs twice -/
  once : (folders.flatMap (·.2)).Nodup
  /-- each runs with the others of its folder -/
  grouped : ∀ s ∈ folders, s.2 ≠ [] ∧ ∀ f ∈ s.2, f.category = s.1
  folderOrder : (folders.map (·.1)).Pairwise fun a b => Text.bytes a < Text.bytes b
  nameOrder : ∀ s ∈ folders, s.2.Pairwise fun f g => Text.bytes f.name ≤ Text.bytes g.name
  /-- these are the tests that the report tells of, in this order -/
  ran : report.ran = (folders.flatMap (·.2)).map fun f => (f.pathBelow path, ((f.toTest path).run settings).1.passed)
  /-- a wanted category is strange if it alone selects nothing -/
  strange : strangers.Sublist wanted ∧
    ∀ w ∈ wanted, w ∈ strangers ↔ ¬ ∃ f, tree.Holds f ∧ f.IsTest ∧ f.Wanted [w]
  /-- if there are tests at all, the report starts with the warnings, and there are no others -/
  messages : (∃ f, tree.Holds f ∧ f.IsTest) → report.messages = strangers.map strangerWarning ++
    if folders = [] then [.line "no tests selected"] else ((suiteOf path folders).runSelected settings palette).messages
  /-- the run succeeds if something runs and all of it passes -/
  code : report.code = 0 ↔
    (∃ f, f ∈ folders.flatMap (·.2)) ∧ ∀ f ∈ folders.flatMap (·.2), (f.toTest path).Passes settings

section

variable {disk : Disk} {path : String} {entries : List (String × FileTree)} {settings : Settings} {palette : Palette}
  {wanted : List String}

/-- the wanted categories that no category of a suite goes by -/
def strangersTo (suite : Suite) (wanted : List String) : List String :=
  wanted.filter fun w => !suite.any fun c => Suite.goesBy c.name (Suite.wantedName w)

theorem strangers_eq (suite : Suite) (wanted : List String) :
    suite.strangers wanted = (strangersTo suite wanted).map Suite.wantedName := by
  rw [Suite.strangers, List.filter_map]
  rfl

/-- the three ends of a run below a folder: there are no tests, none is selected, or the selected ones run -/
theorem run_of_folder (h : disk.find path = .ok (.folder entries)) :
    let suite := Suite.discover path (.folder entries)
    let report := Suite.run disk path settings palette wanted
    let warnings := (strangersTo suite wanted).map strangerWarning
    (suite = [] ∧ report = { code := 1, messages := [Suite.nothingFound path] }) ∨
      suite ≠ [] ∧
        ((suite.select wanted = [] ∧ report = { code := 1, messages := warnings ++ [.line "no tests selected"] }) ∨
          suite.select wanted ≠ [] ∧ report.code = ((suite.select wanted).runSelected settings palette).code ∧
            report.messages = warnings ++ ((suite.select wanted).runSelected settings palette).messages) := by
  intro suite report warnings
  have hsuite : Suite.atPath disk path = suite := by rw [Suite.atPath, h]
  have hfile : disk.isFile path = false := by rw [Disk.isFile, Disk.read, h]; rfl
  have hwarnings : ((suite.strangers wanted).map fun w =>
      Message.line ("warning: no test category named " ++ singleQuoted w)) = warnings := by
    rw [strangers_eq, List.map_map]
    rfl
  have hreport : report =
      if suite.isEmpty then { code := 1, messages := [Suite.nothingFound path] }
      else if (suite.select wanted).isEmpty then { code := 1, messages := warnings ++ [.line "no tests selected"] }
      else { (suite.select wanted).runSelected settings palette with
        messages := warnings ++ ((suite.select wanted).runSelected settings palette).messages } := by
    simp only [report, Suite.run, hsuite, hfile, Bool.false_eq_true, if_false, hwarnings]
  by_cases hempty : suite = []
  · left
    rw [hreport, if_pos (List.isEmpty_iff.2 hempty)]
    exact ⟨hempty, rfl⟩
  · right
    rw [hreport, if_neg (by simpa using hempty)]
    refine ⟨hempty, ?_⟩
    by_cases hselected : suite.select wanted = []
    · left
      rw [if_pos (List.isEmpty_iff.2 hselected)]
      exact ⟨hselected, rfl⟩
    · right
      rw [if_neg (by simpa using hselected)]
      exact ⟨hselected, rfl, rfl⟩

/-- the wanted folders of a tree with the tests in them -/
def testFolders (tree : FileTree) (wanted : List String) : List (String × List StoredFile) :=
  wantedFolders (tree.files.filter (·.isTest)) wanted

theorem select_eq_nil_iff {tree : FileTree} :
    (Suite.discover path tree).select wanted = [] ↔ testFolders tree wanted = [] := by
  rw [select_discover]
  exact List.map_eq_nil_iff

/-- the log tells of the tests in the wanted folders -/
theorem run_ran (h : disk.find path = .ok (.folder entries)) :
    (Suite.run disk path settings palette wanted).ran =
      ((testFolders (.folder entries) wanted).flatMap (·.2)).map fun f =>
        (f.pathBelow path, ((f.toTest path).run settings).1.passed) := by
  rcases run_of_folder h with ⟨hnone, hreport⟩ | ⟨-, ⟨hnone, hreport⟩ | ⟨-, -, hmessages⟩⟩
  · rw [hreport, select_eq_nil_iff.1 (by rw [hnone]; rfl)]
    rfl
  · rw [hreport, select_eq_nil_iff.1 hnone, Report.ran, List.filterMap_append, ran_warnings]
    rfl
  · rw [Report.ran, hmessages, List.filterMap_append, ran_warnings, List.nil_append, select_discover]
    exact ran_suiteOf settings palette path _

theorem run_messages (h : disk.find path = .ok (.folder entries))
    (htests : ∃ f ∈ (FileTree.folder entries).files, f.isTest = true) :
    (Suite.run disk path settings palette wanted).messages =
      (strangersTo (Suite.discover path (.folder entries)) wanted).map strangerWarning ++
        if testFolders (.folder entries) wanted = [] then [.line "no tests selected"]
        else ((suiteOf path (testFolders (.folder entries) wanted)).runSelected settings palette).messages := by
  rcases run_of_folder h with ⟨hnone, -⟩ | ⟨-, ⟨hnone, hreport⟩ | ⟨hsome, -, hmessages⟩⟩
  · obtain ⟨f, hf, htest⟩ := htests
    rw [discover_eq_nil_iff.1 hnone f hf] at htest
    cases htest
  · rw [hreport, if_pos (select_eq_nil_iff.1 hnone)]
  · rw [hmessages, if_neg fun hnil => hsome (select_eq_nil_iff.2 hnil), select_discover]
    rfl

theorem run_code_iff (h : disk.find path = .ok (.folder entries)) :
    (Suite.run disk path settings palette wanted).code = 0 ↔ testFolders (.folder entries) wanted ≠ [] ∧
      ∀ f ∈ (testFolders (.folder entries) wanted).flatMap (·.2), (f.toTest path).Passes settings := by
  rcases run_of_folder h with ⟨hnone, hreport⟩ | ⟨-, ⟨hnone, hreport⟩ | ⟨hsome, hcode, -⟩⟩
  · rw [hreport, select_eq_nil_iff.1 (by rw [hnone]; rfl)]
    simp
  · rw [hreport, select_eq_nil_iff.1 hnone]
    simp
  · have hne := fun hnil => hsome (select_eq_nil_iff.2 hnil)
    rw [hcode, select_discover, code_suiteOf]
    exact ⟨fun hall => ⟨hne, hall⟩, fun hruns => hruns.2⟩

/-- **The selection is exact.** Below a folder, the tests that run are the test files in the wanted categories, or all of
them if none is named: each once, folder by folder in the byte order of the folders, and by name in each folder. A category
has the tests at any depth below it, except that slashes alone stand for the tests at the top. If there are tests at all, a
wanted category is warned about exactly if it alone selects nothing. The run succeeds exactly if something is selected and
all of it passes. -/
theorem selection_is_exact (h : disk.find path = .ok (.folder entries)) (hnames : (FileTree.folder entries).WellNamed)
    (settings : Settings) (palette : Palette) (wanted : List String) :
    ∃ folders strangers, SelectsExactly (.folder entries) path settings palette wanted
      (Suite.run disk path settings palette wanted) folders strangers := by
  have htests (f : StoredFile) : f ∈ (FileTree.folder entries).files ∧ f.isTest = true ↔
      (FileTree.folder entries).Holds f ∧ f.IsTest := by
    rw [StoredFile.isTest_iff, FileTree.mem_files_iff]
  have hsteps : ∀ f ∈ (FileTree.folder entries).files, ∀ step ∈ f.folder, FileTree.IsStep step := fun f hf =>
    FileTree.isStep_of_holds hnames (FileTree.mem_files_iff.1 hf)
  refine ⟨testFolders (.folder entries) wanted, strangersTo (Suite.discover path (.folder entries)) wanted, ?_⟩
  constructor
  case selected =>
    intro f
    rw [testFolders, mem_files_wantedFolders fun g hg => hsteps g (List.mem_filter.1 hg).1, List.mem_filter, htests,
      and_assoc]
  case once => exact wantedFolders_nodup ((FileTree.files_nodup hnames).filter _)
  case grouped => exact wantedFolders_grouped
  case folderOrder => exact wantedFolders_strict _ _
  case nameOrder =>
    intro s hs
    rw [(mem_wantedFolders hs).2]
    exact Suite.categoryFiles_sorted _ _
  case ran => exact run_ran h
  case strange =>
    refine ⟨List.filter_sublist, fun w hw => ?_⟩
    have hlies : (∃ f, (FileTree.folder entries).Holds f ∧ f.IsTest ∧ f.Wanted [w]) ↔
        ((Suite.discover path (.folder entries)).any fun c => Suite.goesBy c.name (Suite.wantedName w)) = true := by
      rw [any_goesBy_iff hsteps]
      simp only [← and_assoc, htests]
      simp [StoredFile.Wanted]
    rw [hlies, strangersTo, List.mem_filter]
    simp [hw]
  case messages =>
    rintro ⟨f, hheld, htest⟩
    exact run_messages h ⟨f, (htests f).2 ⟨hheld, htest⟩⟩
  case code =>
    rw [run_code_iff h, testFolders, exists_file_iff]

end

/-- a folder with a test at the top, and two folders below it whose names start alike -/
def sampleFolder : List (String × FileTree) :=
  [("s", .folder [("n", .folder [("b.test.toml", .file "")]), ("n.md", .file "")]),
    ("st", .folder [("a.test.toml", .file "")]), ("c.test.toml", .file "")]

def sampleSuiteDisk : Disk where
  root := .folder [("t", .folder sampleFolder)]

/-- the one test below the folder named runs, and the folder that is not there is warned about -/
theorem selection_is_exact_named :
    sampleSuiteDisk.find "t" = .ok (.folder sampleFolder) ∧ (FileTree.folder sampleFolder).WellNamed ∧
      ∃ folders strangers, SelectsExactly (.folder sampleFolder) "t" {} ⟨false⟩ ["/s/", "m"]
          (Suite.run sampleSuiteDisk "t" {} ⟨false⟩ ["/s/", "m"]) folders strangers ∧
        folders.flatMap (·.2) = [⟨["s", "n"], "b.test.toml", ""⟩] ∧ "m" ∈ strangers ∧ "/s/" ∉ strangers ∧
        (Suite.run sampleSuiteDisk "t" {} ⟨false⟩ ["/s/", "m"]).code ≠ 0 := by
  have hfound : sampleSuiteDisk.find "t" = .ok (.folder sampleFolder) := by rfl
  have hnames : (FileTree.folder sampleFolder).WellNamed := by simp [sampleFolder, FileTree.IsStep]
  obtain ⟨folders, strangers, hselects⟩ := selection_is_exact hfound hnames {} ⟨false⟩ ["/s/", "m"]
  have hfiles (names : List String) (f : StoredFile) :
      (f ∈ (FileTree.folder sampleFolder).files.filter fun f =>
        f.isTest && names.any fun w => Suite.goesBy f.category (Suite.wantedName w)) ↔
      (FileTree.folder sampleFolder).Holds f ∧ f.IsTest ∧ ∃ w ∈ names, f.LiesIn (Suite.wantedName w) := by
    rw [List.mem_filter, FileTree.mem_files_iff, Bool.and_eq_true, StoredFile.isTest_iff]
    refine and_congr_right fun hheld => and_congr_right fun _ => ?_
    simp only [List.any_eq_true, Suite.goesBy_iff_liesIn (FileTree.isStep_of_holds hnames hheld)]
  have hran : folders.flatMap (·.2) = [⟨["s", "n"], "b.test.toml", ""⟩] := by
    refine List.perm_singleton.1 ((List.perm_ext_iff_of_nodup hselects.once (List.nodup_singleton _)).2 ?_)
    intro f
    have hone : ((FileTree.folder sampleFolder).files.filter fun f =>
        f.isTest && ["/s/", "m"].any fun w => Suite.goesBy f.category (Suite.wantedName w)) =
          [⟨["s", "n"], "b.test.toml", ""⟩] := by decide +kernel
    rw [hselects.selected, ← hone, hfiles]
    simp [StoredFile.Wanted]
  refine ⟨hfound, hnames, folders, strangers, hselects, hran, ?_, ?_, ?_⟩
  · rw [hselects.strange.2 "m" (by simp)]
    rintro ⟨f, hheld, htest, hwanted⟩
    have hnone : ((FileTree.folder sampleFolder).files.filter fun f =>
        f.isTest && ["m"].any fun w => Suite.goesBy f.category (Suite.wantedName w)) = [] := by decide +kernel
    have hmem := (hfiles ["m"] f).2 ⟨hheld, htest, hwanted.resolve_left (by simp)⟩
    rw [hnone] at hmem
    cases hmem
  · rw [hselects.strange.2 "/s/" (by simp), not_not]
    have hlies : (⟨["s", "n"], "b.test.toml", ""⟩ : StoredFile).LiesIn (Suite.wantedName "/s/") :=
      ⟨⟨["s"], by decide, by decide⟩, by decide⟩
    refine ⟨⟨["s", "n"], "b.test.toml", ""⟩, ?_, ?_, .inr ⟨"/s/", by simp, hlies⟩⟩
    · exact FileTree.mem_files_iff.1 (by decide)
    · exact StoredFile.isTest_iff.1 (by decide)
  · rw [Ne, hselects.code, hran]
    rintro ⟨-, hall⟩
    have hpasses := hall _ (List.mem_singleton.2 rfl)
    revert hpasses
    unfold TestFile.Passes
    decide +kernel

/-- a test that passes, in a folder -/
def folderedTest : StoredFile :=
  ⟨["servo"], "a.test.toml",
    "---\nexpect_contains = []\n---\n[[block]]\ntype = \"servo_write\"\nfields = \x7b SERVO_PIN = 9 \x7d\n"⟩

/-- the folder at the top, with no other test in it -/
def folderedEntries : List (String × FileTree) :=
  [("servo", .folder [("a.test.toml", .file folderedTest.content)])]

def folderedDisk : Disk where
  root := .folder [("t", .folder folderedEntries)]

/-- every folder is below the one at the top, but with slashes for the wanted category a test in a folder does not run:
there is a warning, nothing is selected, and the run fails although the test passes -/
theorem slash_leaves_folders_out :
    folderedDisk.find "t" = .ok (.folder folderedEntries) ∧ (FileTree.folder folderedEntries).Holds folderedTest ∧
      folderedTest.IsTest ∧ folderedTest.LiesBelow (Suite.wantedName "/") ∧ (folderedTest.toTest "t").Passes {} ∧
      (Suite.run folderedDisk "t" {} ⟨false⟩ ["/"]).code = 1 ∧
      (Suite.run folderedDisk "t" {} ⟨false⟩ ["/"]).messages =
        [.line "warning: no test category named ''", .line "no tests selected"] := by
  refine ⟨rfl, ?_, StoredFile.isTest_iff.1 (by decide), StoredFile.liesBelow_empty _, ?_, by decide +kernel,
    by decide +kernel⟩
  · exact .inside (f := ⟨[], "a.test.toml", _⟩) List.mem_cons_self (.here List.mem_cons_self)
  · unfold TestFile.Passes
    decide +kernel

end BlockSketch
