/-
The file shorthand.

Arguments are skipped from the left: options, and behind a `--config` its value, whatever that is. A `--config` that is
itself such a value has no value of its own, so whether an argument is one depends on all arguments before it. If the
first argument that remains names no subcommand, `generate` is put directly before it, and nothing else changes. The same
arguments are then skipped again and `generate` is what remains, so the shorthand applied twice is the shorthand applied
once. The arguments are those behind the name of the program.

Results:
- `skipped_or_remaining`: either all arguments are skipped, or there is a first one that remains;
- `resume_cons`: one argument that is skipped stays where it is, `expandShorthand_append`: so all of them do, and the
  arguments behind them are treated as if they were alone, but for a value that is due;
- `shorthand_inserts_once`: what the shorthand does to all arguments, and that applying it twice is applying it once.
-/
import BlockSketch.Command.Arguments
import Mathlib.Data.List.Induction

namespace BlockSketch

/-! ## Arguments that are skipped -/

/-- the next argument is the value of a `--config`: the last one is `--config`, and is not such a value itself -/
def awaitsValue (args : List String) : Bool := args.foldl (fun awaits arg => !awaits && arg == "--config") false

/-- an argument is skipped behind others: it is an option, or the value of a `--config` -/
def Skipped (before : List String) (arg : String) : Prop := isDashed arg = true ∨ awaitsValue before = true

/-- every argument is skipped behind those before it -/
def AllSkipped (args : List String) : Prop := ∀ before arg after, args = before ++ arg :: after → Skipped before arg

/-- an argument remains behind others that are all skipped -/
structure FirstRemaining (before : List String) (arg : String) : Prop where
  skipped : AllSkipped before
  remains : ¬ Skipped before arg

variable {args before : List String} {arg : String}

theorem awaitsValue_concat (args : List String) (arg : String) :
    awaitsValue (args ++ [arg]) = (!awaitsValue args && arg == "--config") := by
  rw [awaitsValue, List.foldl_append]
  rfl

theorem allSkipped_nil : AllSkipped [] := by
  intro before arg after h
  exact absurd h.symm (List.append_ne_nil_of_right_ne_nil _ (List.cons_ne_nil _ _))

theorem allSkipped_concat : AllSkipped (args ++ [arg]) ↔ AllSkipped args ∧ Skipped args arg := by
  constructor
  · intro h
    refine ⟨?_, h args arg [] rfl⟩
    intro before x after hargs
    apply h before x (after ++ [arg])
    rw [hargs, List.append_assoc]
    rfl
  · rintro ⟨hargs, harg⟩ before x after hsplit
    rcases List.eq_nil_or_concat after with rfl | ⟨after, last, rfl⟩
    · obtain ⟨rfl, hlast⟩ := List.append_inj' hsplit rfl
      cases hlast
      exact harg
    · rw [List.concat_eq_append, ← List.cons_append, ← List.append_assoc] at hsplit
      exact hargs before x after (List.append_inj' hsplit rfl).1

/-- **Either all arguments are skipped, or there is a first one that remains.** -/
theorem skipped_or_remaining (args : List String) :
    AllSkipped args ∨ ∃ before arg after, args = before ++ arg :: after ∧ FirstRemaining before arg := by
  induction args using List.reverseRecOn with
  | nil => exact .inl allSkipped_nil
  | append_singleton args arg ih =>
    rcases ih with hargs | ⟨before, first, after, rfl, hfirst⟩
    · by_cases harg : Skipped args arg
      · exact .inl (allSkipped_concat.2 ⟨hargs, harg⟩)
      · exact .inr ⟨args, arg, [], rfl, hargs, harg⟩
    · refine .inr ⟨before, first, after ++ [arg], ?_, hfirst⟩
      rw [List.append_assoc]
      rfl

/-! ## The shorthand along the arguments -/

/-- the shorthand among arguments: where a value is due, it is left alone and the shorthand goes on behind it -/
def resume : Bool → List String → List String
  | true, value :: rest => value :: expandShorthand rest
  | _, rest => expandShorthand rest

theorem resume_nil (awaits : Bool) : resume awaits [] = [] := by
  cases awaits <;> rfl

/-- **One argument that is skipped** stays where it is, and decides whether the next one is a value. -/
theorem resume_cons {awaits : Bool} (h : isDashed arg = true ∨ awaits = true) (rest : List String) :
    resume awaits (arg :: rest) = arg :: resume (!awaits && arg == "--config") rest := by
  cases awaits with
  | true => cases rest <;> rfl
  | false =>
    have hdash : isDashed arg = true := h.resolve_right Bool.false_ne_true
    by_cases hconfig : arg = "--config"
    · subst hconfig
      cases rest <;> rfl
    · have hnone : (!false && arg == "--config") = false := by simp [hconfig]
      rw [hnone]
      cases rest with
      | nil => simp [resume, expandShorthand, hdash]
      | cons next rest => simp [resume, expandShorthand, hdash, hconfig]

/-- **All arguments that are skipped** stay where they are. -/
theorem expandShorthand_append (h : AllSkipped before) (rest : List String) :
    expandShorthand (before ++ rest) = before ++ resume (awaitsValue before) rest := by
  induction before using List.reverseRecOn generalizing rest with
  | nil => rfl
  | append_singleton before arg ih =>
    obtain ⟨hbefore, harg⟩ := allSkipped_concat.1 h
    rw [List.append_assoc, List.singleton_append, ih hbefore, resume_cons harg, ← awaitsValue_concat,
      List.append_assoc]
    rfl

theorem expandShorthand_of_allSkipped (h : AllSkipped args) : expandShorthand args = args := by
  have happend := expandShorthand_append h []
  rw [resume_nil, List.append_nil] at happend
  exact happend

/-- the first argument that remains decides by itself what happens -/
theorem expandShorthand_of_firstRemaining (h : FirstRemaining before arg) (after : List String) :
    expandShorthand (before ++ arg :: after) =
      if arg ∈ subcommands then before ++ arg :: after else before ++ "generate" :: arg :: after := by
  obtain ⟨hdash, hvalue⟩ : isDashed arg = false ∧ awaitsValue before = false := by
    simpa [Skipped] using h.remains
  have hconfig : arg ≠ "--config" := by
    rintro rfl
    cases hdash
  have hhead : expandShorthand (arg :: after) =
      if arg ∈ subcommands then arg :: after else "generate" :: arg :: after := by
    cases after <;> simp [expandShorthand, hdash, hconfig]
  have hresume : resume false (arg :: after) = expandShorthand (arg :: after) := rfl
  rw [expandShorthand_append h.skipped, hvalue, hresume, hhead]
  split <;> rfl

theorem FirstRemaining.generate (h : FirstRemaining before arg) : FirstRemaining before "generate" := by
  refine ⟨h.skipped, ?_⟩
  rintro (hdash | hvalue)
  · cases hdash
  · exact h.remains (.inr hvalue)

theorem expandShorthand_idempotent (args : List String) :
    expandShorthand (expandShorthand args) = expandShorthand args := by
  rcases skipped_or_remaining args with hargs | ⟨before, arg, after, rfl, hfirst⟩
  · rw [expandShorthand_of_allSkipped hargs, expandShorthand_of_allSkipped hargs]
  · have hexpand := expandShorthand_of_firstRemaining hfirst after
    split at hexpand
    · rw [hexpand, hexpand]
    · rw [hexpand, expandShorthand_of_firstRemaining hfirst.generate, if_pos (by decide)]

/-- **The shorthand inserts `generate` once.** Arguments stay as they are if all of them are skipped, or if the first one
that remains names a subcommand; else `generate` is put directly before that one. One of these is always the case. The
shorthand applied twice is the shorthand applied once. -/
theorem shorthand_inserts_once (args : List String) :
    (AllSkipped args → expandShorthand args = args) ∧
    (∀ before arg after, args = before ++ arg :: after → FirstRemaining before arg →
      (arg ∈ subcommands → expandShorthand args = args) ∧
      (arg ∉ subcommands → expandShorthand args = before ++ "generate" :: arg :: after)) ∧
    (AllSkipped args ∨ ∃ before arg after, args = before ++ arg :: after ∧ FirstRemaining before arg) ∧
    expandShorthand (expandShorthand args) = expandShorthand args := by
  refine ⟨expandShorthand_of_allSkipped, ?_, skipped_or_remaining args, expandShorthand_idempotent args⟩
  rintro before arg after rfl hfirst
  have hexpand := expandShorthand_of_firstRemaining hfirst after
  constructor
  · intro hname
    rw [hexpand, if_pos hname]
  · intro hname
    rw [hexpand, if_neg hname]

/-- a `--config` whose value is another one, and a `--config` whose value names a subcommand, before a file -/
theorem shorthand_inserts_once_behind_values :
    FirstRemaining ["--config", "--config", "--config", "check", "-v"] "p.toml" ∧
      expandShorthand ["--config", "--config", "--config", "check", "-v", "p.toml", "boards"] =
        ["--config", "--config", "--config", "check", "-v", "generate", "p.toml", "boards"] ∧
      AllSkipped ["--config", "check", "-v", "--config"] ∧
      expandShorthand ["--config", "check", "-v", "--config"] = ["--config", "check", "-v", "--config"] := by
  have hvalues : AllSkipped ((((([] ++ ["--config"]) ++ ["--config"]) ++ ["--config"]) ++ ["check"]) ++ ["-v"]) := by
    simp only [allSkipped_concat, allSkipped_nil, Skipped]
    decide
  have hskipped : AllSkipped (((([] ++ ["--config"]) ++ ["check"]) ++ ["-v"]) ++ ["--config"]) := by
    simp only [allSkipped_concat, allSkipped_nil, Skipped]
    decide
  have hfirst : FirstRemaining ["--config", "--config", "--config", "check", "-v"] "p.toml" := by
    refine ⟨hvalues, ?_⟩
    simp only [Skipped]
    decide
  obtain ⟨-, hremaining, -, -⟩ :=
    shorthand_inserts_once ["--config", "--config", "--config", "check", "-v", "p.toml", "boards"]
  exact ⟨hfirst, (hremaining _ _ _ rfl hfirst).2 (by decide), hskipped, (shorthand_inserts_once _).1 hskipped⟩

end BlockSketch
