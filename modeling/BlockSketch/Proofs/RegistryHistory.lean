/-
The registry and the calls that made it.

Contributions are made to a fresh registry one after the other, each to a section, under a key, with a text and a rank.
What the registry holds and what it answers next is told here by the calls so far, without a registry: a section has the
first contribution under each key, as it was made but for the white space at its end; the key, the text and the rank of
later ones under that key leave no trace.

Results:
- `trimsTo_trimEnd`: what is stored of a text is the text up to the white space at its end;
- `get?_add`, `get?_foldl_add`: a key is looked up to the first contribution under it, call by call;
- `registry_follows_history`: what the registry holds after any calls, and what it answers to the next.
-/
import BlockSketch.Proofs.Boilerplate
import BlockSketch.Proofs.PinHistory
import Mathlib.Data.List.TakeWhile

namespace BlockSketch

/-! ## Texts without the white space at their end -/

namespace Text

/-- one text is another one without the white space at its end: what is left out is white space, and what stays does not
end in any -/
def TrimsTo (s t : String) : Prop :=
  ∃ blanks : List Char, s.toList = t.toList ++ blanks ∧ (∀ c ∈ blanks, isBlank c = true) ∧
    ∀ c, t.toList.getLast? = some c → isBlank c = false

theorem trimsTo_trimEnd (s : String) : TrimsTo s (trimEnd s) := by
  refine ⟨(s.toList.reverse.takeWhile isBlank).reverse, ?_, ?_, ?_⟩
  · rw [trimEnd, String.toList_ofList, dropBlankEnd, ← List.reverse_append, List.takeWhile_append_dropWhile,
      List.reverse_reverse]
  · intro c hc
    exact List.mem_takeWhile_imp (List.mem_reverse.1 hc)
  · intro c hc
    rw [trimEnd, String.toList_ofList, dropBlankEnd, List.getLast?_reverse] at hc
    have hfirst := List.head?_dropWhile_not isBlank s.toList.reverse
    rw [hc] at hfirst
    simpa using hfirst

end Text

/-! ## One call -/

namespace Registry

/-- looking up a key after a contribution: what was there before, else the contribution if it is under that key -/
theorem get?_add (r : Registry) (call : Need) (s : Section) (key : String) :
    (r.add call).get? s key =
      (r.get? s key).or (if call.place = s ∧ call.key = key then some call.fragment else none) := by
  unfold add contribute
  cases hget : r.get? call.place call.key with
  | some f =>
    simp only [Option.isSome_some, if_true]
    split
    · rename_i hsame
      obtain ⟨rfl, rfl⟩ := hsame
      rw [hget, Option.some_or]
    · rw [Option.or_none]
  | none =>
    simp only [Option.isSome_none, Bool.false_eq_true, if_false]
    rw [get?_push]
    by_cases hplace : call.place = s
    · simp [hplace, Need.fragment]
    · simp [hplace]

/-- looking up a key after contributions in a row: what was there before, else the first one under that key -/
theorem get?_foldl_add (calls : List Need) (r : Registry) (s : Section) (key : String) :
    (calls.foldl add r).get? s key =
      (r.get? s key).or (((needsIn s calls).find? fun c => c.key == key).map Need.fragment) := by
  induction calls generalizing r with
  | nil => exact (Option.or_none).symm
  | cons call rest ih =>
    rw [List.foldl_cons, ih, get?_add, Option.or_assoc]
    congr 1
    by_cases hplace : call.place = s
    · by_cases hkey : call.key = key
      · simp [needsIn, hplace, hkey]
      · simp [needsIn, hplace, hkey]
    · simp [needsIn, hplace]

theorem contribute_fst (r : Registry) (call : Need) :
    (r.contribute call.place call.key call.text call.runFirst).1 = true ↔ r.get? call.place call.key = none := by
  unfold contribute
  cases r.get? call.place call.key with
  | none => simp
  | some f => simp

theorem stored_add_of_ne (r : Registry) {call : Need} {s : Section} (h : call.place ≠ s) :
    (r.add call).stored s = r.stored s := by
  rw [stored_add, if_neg fun hadd => h hadd.1]

end Registry

/-! ## All calls -/

theorem length_firstPerKey (calls : List Need) :
    (firstPerKey calls).length = (calls.map Need.key).dedup.length := by
  have hmem (key : String) : key ∈ (firstPerKey calls).map Need.key ↔ key ∈ calls.map Need.key := by
    constructor
    · intro h
      obtain ⟨call, hcall, rfl⟩ := List.mem_map.1 h
      exact List.mem_map_of_mem (mem_of_mem_firstPerKey hcall)
    · intro h
      obtain ⟨call, hcall, rfl⟩ := List.mem_map.1 h
      obtain ⟨first, hfirst, hkey⟩ := exists_mem_firstPerKey hcall
      exact List.mem_map.2 ⟨first, hfirst, hkey⟩
  have hlength := length_eq_dedup (firstPerKey_nodup calls) hmem
  rwa [List.length_map] at hlength

/-- the fragments of a section as they are rendered, from those that were stored for contributions -/
theorem Registry.fragments_of_stored {r : Registry} {s : Section} {kept : List Need}
    (h : r.stored s = kept.map Need.fragment) : r.fragments s = (byRank kept).map Need.fragment := by
  rw [fragments, h, byRank, List.filter_map, List.filter_map, List.map_append]
  rfl

/-- **The registry follows the history of its calls.** After any calls on a fresh registry, the next call is stored
exactly if no earlier one had its section and key. A section has the first contribution under each key, without the white
space at its end, those that run first before the others and both in the order of the calls; there are as many as
different keys; a key is looked up to the first contribution under it; the text of the section is that of its fragments,
one on each line. Calls to other sections do not show. -/
theorem registry_follows_history (calls : List Need) (call : Need) :
    let r := calls.foldl Registry.add {}
    ((r.contribute call.place call.key call.text call.runFirst).1 = true ↔
      ∀ c ∈ calls, c.place = call.place → c.key ≠ call.key) ∧
    (∀ s, r.fragments s = (byRank (firstPerKey (needsIn s calls))).map Need.fragment) ∧
    (∀ c ∈ calls, Text.TrimsTo c.text c.fragment.text) ∧
    (∀ s, r.size s = ((needsIn s calls).map Need.key).dedup.length ∧ (r.isEmpty s = true ↔ r.size s = 0)) ∧
    (∀ s key, r.get? s key = ((needsIn s calls).find? fun c => c.key == key).map Need.fragment) ∧
    (∀ s, r.render s =
      "\n".intercalate ((byRank (firstPerKey (needsIn s calls))).map fun c => Text.trimEnd c.text)) ∧
    (∀ s, s ≠ call.place →
      (r.add call).fragments s = r.fragments s ∧ (r.add call).size s = r.size s ∧
        (∀ key, (r.add call).get? s key = r.get? s key) ∧ (r.add call).render s = r.render s) := by
  intro r
  have hstored (s : Section) : r.stored s = (firstPerKey (needsIn s calls)).map Need.fragment :=
    Registry.stored_foldl_add_fresh calls s
  have hfragments (s : Section) := Registry.fragments_of_stored (hstored s)
  have hget (s : Section) (key : String) :
      r.get? s key = ((needsIn s calls).find? fun c => c.key == key).map Need.fragment := by
    have hfresh : ({} : Registry).get? s key = none := by cases s <;> rfl
    rw [Registry.get?_foldl_add, hfresh, Option.none_or]
  refine ⟨?_, hfragments, fun c _ => Text.trimsTo_trimEnd c.text, ?_, hget, ?_, ?_⟩
  · rw [Registry.contribute_fst, hget, Option.map_eq_none_iff, List.find?_eq_none]
    simp [needsIn]
  · intro s
    constructor
    · rw [Registry.size, hstored, List.length_map, length_firstPerKey]
    · rw [Registry.isEmpty, Registry.size, List.isEmpty_iff, List.length_eq_zero_iff]
  · intro s
    rw [Registry.render, hfragments, List.map_map]
    rfl
  · intro s hs
    have hsame := Registry.stored_add_of_ne r (Ne.symm hs)
    refine ⟨?_, ?_, fun key => ?_, ?_⟩
    · rw [Registry.fragments, hsame, Registry.fragments]
    · rw [Registry.size, hsame, Registry.size]
    · rw [Registry.get?, hsame, Registry.get?]
    · rw [Registry.render, Registry.fragments, hsame, Registry.render, Registry.fragments]

/-- a mode for a pin, a servo, the same key again with another text and rank, and that key in another section -/
def sampleContributions : List Need :=
  [⟨.setup, "io_13", "pinMode(13, OUTPUT);\n", false⟩, ⟨.setup, "servo_9", "myServo9.attach(9);", true⟩,
    ⟨.setup, "io_13", "pinMode(13, INPUT);", true⟩, ⟨.declarations, "io_13", "int led = 13;", false⟩]

/-- the second mode is not stored and does not move the first one to the front, and a third one is refused as well -/
theorem registry_follows_history_ranked :
    let r := sampleContributions.foldl Registry.add {}
    (r.contribute .setup "io_13" "pinMode(13, INPUT);" true).1 ≠ true ∧
      r.fragments .setup = [⟨"servo_9", "myServo9.attach(9);", true⟩, ⟨"io_13", "pinMode(13, OUTPUT);", false⟩] ∧
      (r.add ⟨.setup, "io_13", "pinMode(13, INPUT);", true⟩).size .declarations = 1 := by
  intro r
  obtain ⟨hanswer, hfragments, -, hsize, -, -, hothers⟩ :=
    registry_follows_history sampleContributions ⟨.setup, "io_13", "pinMode(13, INPUT);", true⟩
  refine ⟨fun hstored => ?_, (hfragments .setup).trans (by decide), ?_⟩
  · exact hanswer.1 hstored ⟨.setup, "io_13", "pinMode(13, OUTPUT);\n", false⟩ (by decide) rfl rfl
  · exact ((hothers .declarations (by decide)).2.1.trans (hsize .declarations).1).trans (by decide)

end BlockSketch
