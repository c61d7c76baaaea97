/-
Fields and slots stand in the byte order of their names.

A document spells the fields and slots of a block in any order. They are sorted by name when the draft is read, so that
the order in which a draft is visited does not depend on how its document is arranged. Names compare by code point, and
this is the order of their UTF-8 bytes.

Results:
- `bytes_lt_iff`: one name comes before another exactly if its bytes do;
- `sortByName_byName`: sorted entries stand in the byte order of their names;
- `ofValue_orderly`: every draft read from a value, and every draft inside it, has its fields and slots in order;
- `ofEntries_orderly`: so have all drafts of a program that is read from a document.
-/
import BlockSketch.Proofs.Entering
import Mathlib.Data.String.Basic
import Mathlib.Tactic.SplitIfs

namespace BlockSketch

/-! ## The order of names -/

namespace Text

def bytes (s : String) : List UInt8 := s.toUTF8.data.toList

theorem bytes_eq (s : String) : bytes s = s.toList.flatMap String.utf8EncodeChar := by
  have hencode : s.toUTF8 = (s.toList.flatMap String.utf8EncodeChar).toByteArray := String.utf8Encode_toList.symm
  rw [bytes, hencode, List.data_toByteArray]

/-- the bytes of a smaller character come first, whatever follows -/
theorem utf8EncodeChar_lt {c d : Char} (h : c < d) (cs ds : List UInt8) :
    String.utf8EncodeChar c ++ cs < String.utf8EncodeChar d ++ ds := by
  have hlt : c.val.toNat < d.val.toNat := h
  have hmax : d.val.toNat < 0x110000 := d.valid.elim (fun h => Nat.lt_trans h (by decide)) And.right
  unfold String.utf8EncodeChar
  generalize c.val.toNat = m, d.val.toNat = n at hlt hmax
  -- a longer code starts with a larger byte, and codes of one length spell the number to base 64
  simp only
  split_ifs
  all_goals
    simp (disch := omega) only [List.cons_append, List.nil_append, List.cons_lt_cons_iff, UInt8.lt_iff_toNat_lt,
      ← UInt8.toNat_inj, UInt8.toNat_ofNat', Nat.reducePow, Nat.mod_eq_of_lt]
    omega

theorem flatMap_encode_lt {cs ds : List Char} (h : cs < ds) :
    cs.flatMap String.utf8EncodeChar < ds.flatMap String.utf8EncodeChar := by
  induction h with
  | @nil d ds =>
    obtain ⟨byte, rest, hd⟩ := List.exists_cons_of_ne_nil (String.utf8EncodeChar_ne_nil (c := d))
    simp [hd]
  | rel h => exact utf8EncodeChar_lt h _ _
  | cons _ ih => exact List.append_left_lt ih

theorem bytes_lt_iff {s t : String} : bytes s < bytes t ↔ s < t := by
  have hmono {s t : String} (h : s < t) : bytes s < bytes t := by
    rw [bytes_eq, bytes_eq]
    exact flatMap_encode_lt h
  refine ⟨fun h => ?_, hmono⟩
  rcases lt_trichotomy s t with hlt | rfl | hgt
  · exact hlt
  · exact absurd h (List.lt_irrefl _)
  · exact absurd h (List.lt_asymm (hmono hgt))

variable {α : Type}

/-- the entries stand in the byte order of their names -/
def ByName (entries : List (String × α)) : Prop := entries.Pairwise fun a b => bytes a.1 ≤ bytes b.1

theorem sortByName_byName (entries : List (String × α)) : ByName (sortByName entries) := by
  have htrans (a b c : String × α) (hab : (!decide (b.1 < a.1)) = true) (hbc : (!decide (c.1 < b.1)) = true) :
      (!decide (c.1 < a.1)) = true := by
    simp only [Bool.not_eq_true', decide_eq_false_iff_not, String.not_lt] at *
    exact String.le_trans hab hbc
  have htotal (a b : String × α) : (!decide (b.1 < a.1) || !decide (a.1 < b.1)) = true := by
    simp only [Bool.or_eq_true, Bool.not_eq_true', decide_eq_false_iff_not, String.not_lt]
    exact String.le_total a.1 b.1
  refine (List.pairwise_mergeSort htrans htotal entries).imp fun hle => ?_
  rw [← List.not_lt, bytes_lt_iff]
  simpa using hle

theorem mem_sortByName {entries : List (String × α)} {entry : String × α} :
    entry ∈ sortByName entries ↔ entry ∈ entries := List.mem_mergeSort

end Text

/-! ## Reading that succeeds -/

namespace Toml.Shaped

variable {α β : Type} {x : Shaped α}

theorem bind_eq_ok {f : α → Shaped β} {b : β} : (x >>= f) = .ok b ↔ ∃ a, x = .ok a ∧ f a = .ok b := by
  cases x <;> simp [bind, Except.bind]

theorem pure_eq_ok {a b : α} : (pure a : Shaped α) = .ok b ↔ a = b := by
  simp [pure, Except.pure]

theorem bind_pure_eq_ok {f : α → β} {b : β} : (x >>= fun a => pure (f a)) = .ok b ↔ ∃ a, x = .ok a ∧ f a = b := by
  simp only [bind_eq_ok, pure_eq_ok]

theorem mapError_eq_ok {f : ShapeError → ShapeError} {a : α} : x.mapError f = .ok a ↔ x = .ok a := by
  cases x <;> simp [Except.mapError]

theorem under_eq_ok {key : Key} {v : Value} {a : α} : under key v x = .ok a ↔ x = .ok a := mapError_eq_ok

/-- what every field keeps, reading a table keeps -/
theorem record_keeps {P : α → Prop} {field : α → Key → Value → Shaped α}
    (hfield : ∀ a key v a', P a → field a key v = .ok a' → P a') {start a : α} (hstart : P start)
    {entries : List (Key × Value)} (h : record field start entries = .ok a) : P a := by
  induction entries generalizing start with
  | nil =>
    cases h
    exact hstart
  | cons entry rest ih =>
    rw [record, List.foldlM_cons] at h
    obtain ⟨next, hnext, hrest⟩ := bind_eq_ok.1 h
    exact ih (hfield _ _ _ _ hstart (under_eq_ok.1 hnext)) hrest

end Toml.Shaped

/-! ## Drafts with everything in order -/

namespace Draft

open BlockSketch.Toml BlockSketch.Text Shaped

/-- fields and slots stand in the byte order of their names -/
structure Ordered (d : Draft) : Prop where
  fields : ByName d.fields
  inputs : ByName d.inputs
  statements : ByName d.statements

/-- a draft and all drafts inside it have their fields and slots in order -/
def Orderly (d : Draft) : Prop := ∀ e ∈ d.all, e.Ordered

theorem mem_allInputs {e : Draft} {inputs : List (String × Draft)} :
    e ∈ allInputs inputs ↔ ∃ entry ∈ inputs, e ∈ entry.2.all := by
  induction inputs with
  | nil => simp [allInputs]
  | cons entry rest ih => simp [allInputs, ih]

theorem mem_allChain {e : Draft} {chain : List Draft} : e ∈ allChain chain ↔ ∃ d ∈ chain, e ∈ d.all := by
  induction chain with
  | nil => simp [allChain]
  | cons d rest ih => simp [allChain, ih]

theorem mem_allStatements {e : Draft} {statements : List (String × List Draft)} :
    e ∈ allStatements statements ↔ ∃ entry ∈ statements, ∃ d ∈ entry.2, e ∈ d.all := by
  induction statements with
  | nil => simp [allStatements]
  | cons entry rest ih => simp [allStatements, ih, mem_allChain]

/-- value slots in order that hold drafts in order -/
structure InputsOrderly (inputs : List (String × Draft)) : Prop where
  byName : ByName inputs
  inside : ∀ entry ∈ inputs, entry.2.Orderly

/-- statement slots in order that hold drafts in order -/
structure StatementsOrderly (statements : List (String × List Draft)) : Prop where
  byName : ByName statements
  inside : ∀ entry ∈ statements, ∀ d ∈ entry.2, d.Orderly

theorem InputsOrderly.nil : InputsOrderly [] := ⟨.nil, by simp⟩

theorem StatementsOrderly.nil : StatementsOrderly [] := ⟨.nil, by simp⟩

theorem orderly_of_slots {d : Draft} (hfields : ByName d.fields) (hinputs : InputsOrderly d.inputs)
    (hstatements : StatementsOrderly d.statements) : d.Orderly := by
  obtain ⟨id, kind, fields, inputs, statements⟩ := d
  intro e he
  rw [all, List.mem_cons, List.mem_append, mem_allInputs, mem_allStatements] at he
  rcases he with rfl | ⟨entry, hentry, he⟩ | ⟨entry, hentry, d, hd, he⟩
  · exact ⟨hfields, hinputs.byName, hstatements.byName⟩
  · exact hinputs.inside entry hentry e he
  · exact hstatements.inside entry hentry d hd e he

structure Parts.Orderly (parts : Parts) : Prop where
  fields : ByName parts.fields
  inputs : InputsOrderly parts.inputs
  statements : StatementsOrderly parts.statements

theorem Parts.Orderly.finish {parts : Parts} (h : parts.Orderly) {span : Option Span} {d : Draft}
    (hd : parts.finish span = .ok d) : d.Orderly := by
  unfold Parts.finish at hd
  split at hd
  · cases hd
  · cases hd
    exact orderly_of_slots h.fields h.inputs h.statements

theorem readFields_byName {v : Value} {fields : List (String × Located Value)} (h : readFields v = .ok fields) :
    ByName fields := by
  unfold readFields at h
  split at h
  · obtain ⟨read, -, rfl⟩ := bind_pure_eq_ok.1 h
    exact sortByName_byName read
  · cases h
  · cases h

mutual
/-- **Every draft read from a value**, and every draft inside it, has its fields and slots in order. -/
theorem ofValue_orderly : ∀ (v : Value) {d : Draft}, ofValue v = .ok d → d.Orderly
  | .table span entries, d, h => by
    rw [ofValue] at h
    obtain ⟨parts, hparts, hd⟩ := bind_eq_ok.1 h
    have hstart : Parts.Orderly {} := ⟨.nil, .nil, .nil⟩
    exact (readEntries_orderly entries hstart (mapError_eq_ok.1 hparts)).finish hd
  | .array _ [], d, h => by cases h
  | .array _ [_], d, h => by
    simp only [ofValue, bind_eq_ok] at h
    obtain ⟨_, -, h⟩ := h
    cases h
  | .array _ [_, _], d, h => by
    simp only [ofValue, bind_eq_ok, pure_eq_ok] at h
    obtain ⟨_, -, _, -, rfl⟩ := h
    exact orderly_of_slots .nil .nil .nil
  | .array _ [_, _, _], d, h => by
    simp only [ofValue, bind_eq_ok, pure_eq_ok] at h
    obtain ⟨_, -, _, -, _, hfields, rfl⟩ := h
    exact orderly_of_slots (readFields_byName hfields) .nil .nil
  | .array _ [_, _, _, inputs], d, h => by
    simp only [ofValue, bind_eq_ok, pure_eq_ok] at h
    obtain ⟨_, -, _, -, _, hfields, _, hinputs, rfl⟩ := h
    exact orderly_of_slots (readFields_byName hfields) (readInputs_orderly inputs hinputs) .nil
  | .array _ (_ :: _ :: _ :: inputs :: statements :: _), d, h => by
    simp only [ofValue, bind_eq_ok, pure_eq_ok] at h
    obtain ⟨_, -, _, -, _, hfields, _, hinputs, _, hstatements, rfl⟩ := h
    exact orderly_of_slots (readFields_byName hfields) (readInputs_orderly inputs hinputs)
      (readStatements_orderly statements hstatements)
  | .string .., d, h | .integer .., d, h | .float .., d, h | .boolean .., d, h | .dateTime .., d, h => by cases h

theorem readEntries_orderly : ∀ (entries : List (Key × Value)) {parts parts' : Parts}, parts.Orderly →
    readEntries parts entries = .ok parts' → parts'.Orderly
  | [], parts, parts', hparts, h => by
    cases h
    exact hparts
  | (key, v) :: rest, parts, parts', hparts, h => by
    rw [readEntries] at h
    obtain ⟨read, hread, hrest⟩ := bind_eq_ok.1 h
    refine readEntries_orderly rest ?_ hrest
    rw [under_eq_ok] at hread
    split at hread
    · obtain ⟨id, -, rfl⟩ := bind_pure_eq_ok.1 hread
      exact { hparts with }
    · obtain ⟨kind, -, rfl⟩ := bind_pure_eq_ok.1 hread
      exact { hparts with }
    · obtain ⟨fields, hfields, rfl⟩ := bind_pure_eq_ok.1 hread
      exact { hparts with fields := readFields_byName hfields }
    · obtain ⟨inputs, hinputs, rfl⟩ := bind_pure_eq_ok.1 hread
      exact { hparts with inputs := readInputs_orderly v hinputs }
    · obtain ⟨statements, hstatements, rfl⟩ := bind_pure_eq_ok.1 hread
      exact { hparts with statements := readStatements_orderly v hstatements }
    · cases hread

theorem readInputs_orderly : ∀ (v : Value) {inputs : List (String × Draft)}, readInputs v = .ok inputs →
    InputsOrderly inputs
  | .table _ entries, inputs, h => by
    rw [readInputs] at h
    obtain ⟨read, hread, rfl⟩ := bind_pure_eq_ok.1 h
    have hinside := readInputEntries_orderly entries hread
    exact ⟨sortByName_byName read, fun entry hentry => hinside entry (mem_sortByName.1 hentry)⟩
  | .string .., _, h | .integer .., _, h | .float .., _, h | .boolean .., _, h | .dateTime .., _, h
  | .array .., _, h => by cases h

theorem readInputEntries_orderly : ∀ (entries : List (Key × Value)) {inputs : List (String × Draft)},
    readInputEntries entries = .ok inputs → ∀ entry ∈ inputs, entry.2.Orderly
  | [], inputs, h => by
    cases h
    simp
  | (key, v) :: rest, inputs, h => by
    rw [readInputEntries] at h
    obtain ⟨draft, hdraft, h⟩ := bind_eq_ok.1 h
    obtain ⟨others, hothers, rfl⟩ := bind_pure_eq_ok.1 h
    exact List.forall_mem_cons.2
      ⟨ofValue_orderly v (under_eq_ok.1 hdraft), readInputEntries_orderly rest hothers⟩

theorem readStatements_orderly : ∀ (v : Value) {statements : List (String × List Draft)},
    readStatements v = .ok statements → StatementsOrderly statements
  | .table _ entries, statements, h => by
    rw [readStatements] at h
    obtain ⟨read, hread, rfl⟩ := bind_pure_eq_ok.1 h
    have hinside := readStatementEntries_orderly entries hread
    exact ⟨sortByName_byName read, fun entry hentry => hinside entry (mem_sortByName.1 hentry)⟩
  | .string .., _, h | .integer .., _, h | .float .., _, h | .boolean .., _, h | .dateTime .., _, h
  | .array .., _, h => by cases h

theorem readStatementEntries_orderly : ∀ (entries : List (Key × Value)) {statements : List (String × List Draft)},
    readStatementEntries entries = .ok statements → ∀ entry ∈ statements, ∀ d ∈ entry.2, d.Orderly
  | [], statements, h => by
    cases h
    simp
  | (key, v) :: rest, statements, h => by
    rw [readStatementEntries] at h
    obtain ⟨chain, hchain, h⟩ := bind_eq_ok.1 h
    obtain ⟨others, hothers, rfl⟩ := bind_pure_eq_ok.1 h
    exact List.forall_mem_cons.2
      ⟨readChain_orderly v (under_eq_ok.1 hchain), readStatementEntries_orderly rest hothers⟩

theorem readChain_orderly : ∀ (v : Value) {chain : List Draft}, readChain v = .ok chain → ∀ d ∈ chain, d.Orderly
  | .array _ items, chain, h => readItems_orderly items h
  | .string .., _, h | .integer .., _, h | .float .., _, h | .boolean .., _, h | .dateTime .., _, h
  | .table .., _, h => by cases h

theorem readItems_orderly : ∀ (items : List Value) {chain : List Draft}, readItems items = .ok chain →
    ∀ d ∈ chain, d.Orderly
  | [], chain, h => by
    cases h
    simp
  | v :: rest, chain, h => by
    rw [readItems] at h
    obtain ⟨draft, hdraft, h⟩ := bind_eq_ok.1 h
    obtain ⟨others, hothers, rfl⟩ := bind_pure_eq_ok.1 h
    exact List.forall_mem_cons.2 ⟨ofValue_orderly v hdraft, readItems_orderly rest hothers⟩
end

end Draft

/-! ## Programs -/

namespace DraftProgram

open BlockSketch.Toml Shaped

/-- every draft of both chains is in order -/
def Orderly (draft : DraftProgram) : Prop := (∀ d ∈ draft.setup, d.Orderly) ∧ ∀ d ∈ draft.main, d.Orderly

theorem orderly_iff {draft : DraftProgram} : draft.Orderly ↔ ∀ d ∈ draft.drafts, d.Ordered := by
  simp only [Orderly, Draft.Orderly, drafts, List.mem_append, Draft.mem_allChain]
  grind

/-- **All drafts of a program that is read from a document** have their fields and slots in the byte order of names. -/
theorem ofEntries_orderly {entries : List (Key × Value)} {draft : DraftProgram} (h : ofEntries entries = .ok draft) :
    ∀ d ∈ draft.drafts, d.Ordered := by
  rw [← orderly_iff]
  refine record_keeps ?_ (by simp [Orderly]) h
  intro p key v p' hp hread
  split at hread
  · obtain ⟨_, -, rfl⟩ := bind_pure_eq_ok.1 hread
    exact hp
  · obtain ⟨setup, hsetup, rfl⟩ := bind_pure_eq_ok.1 hread
    exact ⟨Draft.readChain_orderly v hsetup, hp.2⟩
  · obtain ⟨main, hmain, rfl⟩ := bind_pure_eq_ok.1 hread
    exact ⟨hp.1, Draft.readChain_orderly v hmain⟩
  · cases hread

end DraftProgram

end BlockSketch
