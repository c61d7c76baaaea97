/-
Configured boards hide built-in ones.

The built-in boards are added one by one behind the configured ones, and each is left out if a board that is already
there goes by its name. Two names are one if they agree letter by letter up to the case of ASCII letters, so a board
`UNO` hides the built-in `uno`. A board is looked for in the list that comes out. The lookup finds what a search of the
configured boards and, after it, a search of all built-in boards would find: a built-in board that is left out could
only have been found where the board that hides it is found before it.

Results:
- `sameName_iff`: names are compared letter by letter;
- `foldl_addBoard`: which boards are added in a row;
- `lookup_respects_hiding`: what the list of all boards holds, and which board a name finds.
-/
import BlockSketch.Board.Settings
import Mathlib.Data.List.Forall2

namespace BlockSketch

/-! ## Names up to case -/

namespace Text

/-- the same character, or an ASCII letter in its two cases -/
def SameLetter (c d : Char) : Prop :=
  c = d ∨ (c.isUpper = true ∧ d.toNat = c.toNat + 32) ∨ (d.isUpper = true ∧ c.toNat = d.toNat + 32)

/-- the texts agree letter by letter, up to the case of ASCII letters -/
def SameUpToCase (a b : String) : Prop := List.Forall₂ SameLetter a.toList b.toList

theorem isUpper_iff (c : Char) : c.isUpper = true ↔ 65 ≤ c.toNat ∧ c.toNat ≤ 90 := decide_eq_true_iff

theorem toNat_toLower (c : Char) : c.toLower.toNat = if c.isUpper then c.toNat + 32 else c.toNat := by
  by_cases h : c.isUpper = true
  · have hbounds := (isUpper_iff c).1 h
    have hcase : c.val ≥ 'A'.val ∧ c.val ≤ 'Z'.val := of_decide_eq_true h
    have hsum : (c.val + ('a'.val - 'A'.val)).toNat = (c.toNat + 32) % 2 ^ 32 := UInt32.toNat_add _ _
    have hlower : c.toLower.toNat = (c.val + ('a'.val - 'A'.val)).toNat := congrArg Char.toNat (dif_pos hcase)
    rw [if_pos h, hlower, hsum]
    omega
  · have hcase : ¬ (c.val ≥ 'A'.val ∧ c.val ≤ 'Z'.val) := fun hcase => h (decide_eq_true hcase)
    have hlower : c.toLower = c := dif_neg hcase
    rw [if_neg h, hlower]

/-- lower case letters are the same exactly if the letters are the same up to case -/
theorem toLower_eq_iff (c d : Char) : c.toLower = d.toLower ↔ SameLetter c d := by
  rw [← Char.toNat_inj, toNat_toLower, toNat_toLower, SameLetter, ← Char.toNat_inj]
  have hc := isUpper_iff c
  have hd := isUpper_iff d
  split <;> split <;> simp_all <;> omega

theorem sameName_iff {a b : String} : sameName a b = true ↔ SameUpToCase a b := by
  simp only [sameName, lowerAscii, beq_iff_eq, String.ofList_inj, SameUpToCase]
  rw [← List.forall₂_eq_eq_eq, List.forall₂_map_left_iff, List.forall₂_map_right_iff]
  simp only [toLower_eq_iff]

instance (a b : String) : Decidable (SameUpToCase a b) := decidable_of_iff _ sameName_iff

theorem sameName_trans {a b c : String} (hab : sameName a b = true) (hbc : sameName b c = true) :
    sameName a c = true := by
  simp only [sameName, beq_iff_eq] at hab hbc ⊢
  exact hab.trans hbc

end Text

/-! ## Boards in a row -/

theorem isNamed_iff {b : Board} {name : String} : b.isNamed name = true ↔ Text.SameUpToCase b.name name :=
  Text.sameName_iff

theorem any_isNamed_eq_false_iff {boards : List Board} {name : String} :
    boards.any (·.isNamed name) = false ↔ ∀ b ∈ boards, ¬ Text.SameUpToCase b.name name := by
  simp only [List.any_eq_false, isNamed_iff]

theorem addBoard_of_hidden {boards : List Board} {b : Board} (h : boards.any (·.isNamed b.name) = true) :
    Settings.addBoard boards b = boards := if_pos h

theorem addBoard_of_shown {boards : List Board} {b : Board} (h : boards.any (·.isNamed b.name) = false) :
    Settings.addBoard boards b = boards ++ [b] := by
  rw [Settings.addBoard, h]
  rfl

/-- **Boards added in a row**, no two of which share a name: those that the boards at the start do not hide. The list
grows on the way, but what it grows by hides nothing that is still to come. -/
theorem foldl_addBoard (boards more : List Board) (h : more.Pairwise fun b c => b.isNamed c.name = false) :
    more.foldl Settings.addBoard boards = boards ++ more.filter fun b => !boards.any (·.isNamed b.name) := by
  induction more generalizing boards with
  | nil => rw [List.foldl_nil, List.filter_nil, List.append_nil]
  | cons b rest ih =>
    obtain ⟨hb, hrest⟩ := List.pairwise_cons.1 h
    rw [List.foldl_cons]
    cases hidden : boards.any (·.isNamed b.name) with
    | true =>
      rw [addBoard_of_hidden hidden, ih boards hrest, List.filter_cons_of_neg (by simp [hidden])]
    | false =>
      have hsame : rest.filter (fun c => !(boards ++ [b]).any (·.isNamed c.name)) =
          rest.filter fun c => !boards.any (·.isNamed c.name) := by
        apply List.filter_congr
        intro c hc
        simp [hb c hc]
      rw [addBoard_of_shown hidden, ih (boards ++ [b]) hrest, hsame, List.filter_cons_of_pos (by simp [hidden]),
        List.append_assoc]
      rfl

theorem builtins_pairwise : Board.builtins.Pairwise fun b c => b.isNamed c.name = false := by
  decide

theorem allBoards_eq (s : Settings) :
    s.allBoards = s.boards ++ Board.builtins.filter fun b => !s.boards.any (·.isNamed b.name) :=
  foldl_addBoard s.boards Board.builtins builtins_pairwise

/-- a board that goes by a name and is hidden is hidden by a board that goes by that name -/
theorem shown_of_isNamed {boards : List Board} {b : Board} {name : String} (hname : b.isNamed name = true)
    (h : boards.find? (·.isNamed name) = none) : boards.any (·.isNamed b.name) = false := by
  rw [List.any_eq_false]
  intro c hc hhides
  exact List.find?_eq_none.1 h c hc (Text.sameName_trans hhides hname)

/-- **Lookup respects hiding.** A name finds the first configured board that goes by it, and if there is none the
built-in board that does. All boards are the configured ones in order, and behind them, in their fixed order, those
built-in ones whose name no configured board goes by. -/
theorem lookup_respects_hiding (s : Settings) (name : String) :
    s.findBoard? name = (s.boards.find? fun b => Text.SameUpToCase b.name name).or (Board.builtin? name) ∧
      s.allBoards = s.boards ++ Board.builtins.filter fun b => ∀ c ∈ s.boards, ¬ Text.SameUpToCase c.name b.name := by
  constructor
  · have hconfigured : (s.boards.find? fun b => Text.SameUpToCase b.name name) = s.boards.find? (·.isNamed name) := by
      simp only [← isNamed_iff, Bool.decide_eq_true]
    rw [hconfigured, Settings.findBoard?, allBoards_eq, List.find?_append]
    cases hfound : s.boards.find? (·.isNamed name) with
    | some b => rfl
    | none =>
      have hbuiltin : (Board.builtins.filter fun b => !s.boards.any (·.isNamed b.name)).find? (·.isNamed name) =
          Board.builtin? name := by
        rw [List.find?_filter, Board.builtin?]
        congr 1
        funext b
        cases hname : b.isNamed name with
        | false => simp
        | true => simp [shown_of_isNamed hname hfound]
      rw [hbuiltin]
  · rw [allBoards_eq]
    congr 2
    funext b
    rw [Bool.eq_iff_iff, decide_eq_true_eq, Bool.not_eq_true', any_isNamed_eq_false_iff]

example : ({ boards := [{ name := "Bot" }, { name := "UNO" }, { name := "bOT" }] } : Settings).allBoards.map Board.name =
    ["Bot", "UNO", "bOT", "nano", "mega", "leonardo"] := by decide

end BlockSketch
