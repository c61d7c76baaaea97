/-
What lies in a category.

A category is written as the steps of the way to a folder with slashes between them, and is compared as a text. There are
two such tests: the one that selects takes the wanted name off the start of a category and looks at what is left
(`Suite.isWithin`), and the one that warns looks for the wanted name with a slash behind it (`Suite.goesBy`). Here both are
compared with nesting by steps, which mentions no text but the wanted name: a file lies below a category if the first
steps on the way to its folder spell it (`StoredFile.LiesBelow`).

On texts alone the comparison would fail: `servo` is the start of `servos`. It is right since the name of a folder is not
empty and has no slash in it (`FileTree.IsStep`), with one exception. The empty name is that of the folder at the top, and
every file lies below it, but no category starts with a slash. So slashes alone select the files at the top and nothing
below them (`StoredFile.LiesIn`).

Results:
- `Suite.isWithin_eq_goesBy`: the two tests agree on every two texts;
- `exists_front_of_join`: where steps are joined by slashes, what stands before a slash is some of the steps joined;
- `Suite.goesBy_iff_liesIn`: the tests say that a file lies below the wanted category, and at the top if that is the empty
  one.
-/
import BlockSketch.Command.Suite
import Mathlib.Data.List.Basic

namespace BlockSketch

/-! ## The two tests -/

namespace Text

variable {s start rest : String}

theorem startsWith_iff : startsWith s start = true ↔ ∃ rest, s = start ++ rest := by
  rw [startsWith, List.isPrefixOf_iff_prefix]
  constructor
  · rintro ⟨rest, h⟩
    refine ⟨String.ofList rest, ?_⟩
    rw [← String.toList_inj, String.toList_append, String.toList_ofList]
    exact h.symm
  · rintro ⟨rest, rfl⟩
    rw [String.toList_append]
    exact List.prefix_append _ _

theorem afterStart?_eq_some_iff : afterStart? s start = some rest ↔ s = start ++ rest := by
  unfold afterStart?
  constructor
  · intro h
    split at h
    case isTrue hstarts =>
      obtain ⟨rest', rfl⟩ := startsWith_iff.1 hstarts
      rw [String.toList_append, List.drop_left, String.ofList_toList] at h
      rw [Option.some.inj h]
    case isFalse => cases h
  · rintro rfl
    rw [if_pos (startsWith_iff.2 ⟨rest, rfl⟩), String.toList_append, List.drop_left, String.ofList_toList]

end Text

namespace Suite

variable {category wanted : String}

theorem goesBy_iff : goesBy category wanted = true ↔ category = wanted ∨ ∃ rest, category = wanted ++ "/" ++ rest := by
  rw [goesBy, Bool.or_eq_true, beq_iff_eq, Text.startsWith_iff]

theorem isWithin_iff : isWithin category wanted = true ↔ category = wanted ∨ ∃ rest, category = wanted ++ "/" ++ rest := by
  rw [isWithin, Bool.or_eq_true, beq_iff_eq, Option.any_eq_true]
  refine or_congr_right ⟨?_, ?_⟩
  · rintro ⟨rest, hafter, hslash⟩
    obtain ⟨rest', rfl⟩ := Text.startsWith_iff.1 hslash
    refine ⟨rest', ?_⟩
    rw [Text.afterStart?_eq_some_iff.1 hafter, String.append_assoc]
  · rintro ⟨rest, h⟩
    refine ⟨"/" ++ rest, Text.afterStart?_eq_some_iff.2 ?_, Text.startsWith_iff.2 ⟨rest, rfl⟩⟩
    rw [h, String.append_assoc]

/-- **The test that selects and the test that warns agree**, whatever the texts are. -/
theorem isWithin_eq_goesBy (category wanted : String) : isWithin category wanted = goesBy category wanted := by
  rw [Bool.eq_iff_iff, isWithin_iff, goesBy_iff]

end Suite

/-! ## Steps joined by slashes -/

/-- a name that an entry of a folder can have -/
def FileTree.IsStep (name : String) : Prop := name ≠ "" ∧ '/' ∉ name.toList

instance (name : String) : Decidable (FileTree.IsStep name) := inferInstanceAs (Decidable (_ ∧ _))

section

variable {steps : List String} {before after : String}

theorem join_eq_empty_iff (hsteps : ∀ step ∈ steps, FileTree.IsStep step) : "/".intercalate steps = "" ↔ steps = [] := by
  constructor
  · intro h
    match steps with
    | [] => rfl
    | [step] => exact absurd (by simpa using h) (hsteps step (by simp)).1
    | step :: next :: rest => simp [String.intercalate_cons_cons] at h
  · rintro rfl
    exact String.intercalate_nil

/-- a step has no slash, so it ends where the first slash is -/
theorem step_or_beyond {step : String} {rest : List Char} (hstep : '/' ∉ step.toList)
    (h : step.toList ++ '/' :: rest = before.toList ++ '/' :: after.toList) :
    before = step ∨ ∃ further, before = step ++ "/" ++ String.ofList further ∧ rest = further ++ '/' :: after.toList := by
  rcases List.append_eq_append_iff.1 h with ⟨more, hbefore, hrest⟩ | ⟨more, hname, hrest⟩
  · cases more with
    | nil => exact .inl (String.toList_inj.1 (by simpa using hbefore))
    | cons c further =>
      obtain ⟨rfl, hbehind⟩ := List.cons.inj hrest
      refine .inr ⟨further, String.toList_inj.1 ?_, hbehind⟩
      simpa using hbefore
  · cases more with
    | nil => exact .inl (String.toList_inj.1 (by simpa using hname.symm))
    | cons c further =>
      obtain ⟨rfl, -⟩ := List.cons.inj hrest
      rw [hname] at hstep
      simp at hstep

/-- **What stands before a slash is some of the steps**, at least one of them. -/
theorem exists_front_of_join (hsteps : ∀ step ∈ steps, FileTree.IsStep step)
    (h : "/".intercalate steps = before ++ "/" ++ after) :
    ∃ front, front <+: steps ∧ front ≠ [] ∧ "/".intercalate front = before := by
  induction steps generalizing before with
  | nil => simp at h
  | cons step rest ih =>
    have hstep := (hsteps step List.mem_cons_self).2
    cases rest with
    | nil =>
      rw [String.intercalate_singleton] at h
      rw [h] at hstep
      simp at hstep
    | cons next rest =>
      have hchars : step.toList ++ '/' :: ("/".intercalate (next :: rest)).toList = before.toList ++ '/' :: after.toList := by
        rw [String.intercalate_cons_cons, ← String.toList_inj] at h
        simpa using h
      rcases step_or_beyond hstep hchars with rfl | ⟨further, rfl, hrest⟩
      · exact ⟨[before], by simp, by simp, String.intercalate_singleton⟩
      · have hjoined : "/".intercalate (next :: rest) = String.ofList further ++ "/" ++ after :=
          String.toList_inj.1 (by simpa using hrest)
        obtain ⟨front, hfront, hne, hjoin⟩ := ih (fun s hs => hsteps s (List.mem_cons_of_mem _ hs)) hjoined
        refine ⟨step :: front, List.cons_prefix_cons.2 ⟨rfl, hfront⟩, List.cons_ne_nil _ _, ?_⟩
        rw [String.intercalate_cons_of_ne_nil hne, hjoin]

end

/-! ## Files in a category -/

namespace StoredFile

/-- the first steps on the way to the folder of the file, or all of them, spell the category -/
def LiesBelow (f : StoredFile) (category : String) : Prop :=
  ∃ steps, steps <+: f.folder ∧ "/".intercalate steps = category

/-- the file lies below the category, and at the top if that is the empty one -/
def LiesIn (f : StoredFile) (category : String) : Prop := f.LiesBelow category ∧ (category = "" → f.folder = [])

theorem liesBelow_empty (f : StoredFile) : f.LiesBelow "" := ⟨[], List.nil_prefix, String.intercalate_nil⟩

end StoredFile

/-- **The tests on category names** say where a file lies. -/
theorem Suite.goesBy_iff_liesIn {f : StoredFile} {wanted : String} (hsteps : ∀ step ∈ f.folder, FileTree.IsStep step) :
    goesBy f.category wanted = true ↔ f.LiesIn wanted := by
  rw [goesBy_iff, StoredFile.category]
  constructor
  · rintro (rfl | ⟨rest, h⟩)
    · exact ⟨⟨f.folder, List.prefix_refl _, rfl⟩, (join_eq_empty_iff hsteps).1⟩
    · obtain ⟨front, hfront, hne, rfl⟩ := exists_front_of_join hsteps h
      refine ⟨⟨front, hfront, rfl⟩, fun hempty => ?_⟩
      exact absurd ((join_eq_empty_iff fun step hs => hsteps step (hfront.subset hs)).1 hempty) hne
  · rintro ⟨⟨front, ⟨back, hway⟩, rfl⟩, htop⟩
    by_cases hback : back = []
    · left
      rw [← hway, hback, List.append_nil]
    · -- a front without steps is the category at the top, and has no folder below it
      have hfront : front ≠ [] := by
        rintro rfl
        have hnone : f.folder = [] := htop String.intercalate_nil
        rw [hnone, List.nil_append] at hway
        exact hback hway
      right
      exact ⟨"/".intercalate back, by rw [← hway, String.intercalate_append_of_ne_nil hfront hback]⟩

end BlockSketch
