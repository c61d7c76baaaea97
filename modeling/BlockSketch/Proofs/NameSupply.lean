/-
Names made from a base and a number, and when two of them are the same.

A pass counts the uses of each base on its own. The first use of a base gets the base as its name, the n-th gets the base
with n behind it. Two uses of one base never share a name. Uses of two bases share one in a single way: the longer base
is the shorter one with digits behind it, and those digits and the number of the use of the longer base read together
are the number of a use of the shorter one.

Results:
- `usesAfter_nodup`, `mem_usesAfter`: the uses in a row are different, and they are the numbers up to the count of each base;
- `distinctNames_eq`: the names handed out in a row, from any state;
- `nameOfUse_eq_iff`: when two uses share a name;
- `names_distinct_iff`: names in a row are distinct up to that one way, those of one base always, and
  `names_repeat_numbered_base`, a case of it.
-/
import BlockSketch.Proofs.Growth
import BlockSketch.Proofs.Success

namespace BlockSketch

/-! ## Uses of bases -/

/-- what stands behind the base in the name of its n-th use -/
def useNumber (n : Nat) : String := if n = 1 then "" else toString n

def nameOfUse (base : String) (n : Nat) : String := base ++ useNumber n

/-- bases asked for in a row, each with the number of its use, if those in `before` were asked for earlier -/
def usesAfter (before : List String) : List String → List (String × Nat)
  | [] => []
  | base :: rest => (base, before.count base + 1) :: usesAfter (before ++ [base]) rest

theorem count_concat_self (before : List String) (base : String) :
    (before ++ [base]).count base = before.count base + 1 := by
  rw [List.count_append, List.count_singleton_self]

theorem count_concat_of_ne (before : List String) {base other : String} (h : other ≠ base) :
    (before ++ [base]).count other = before.count other := by
  rw [List.count_append, List.count_singleton, if_neg (by simpa using h.symm), Nat.add_zero]

/-- the uses of a base have the numbers that follow on those before -/
theorem mem_usesAfter {before bases : List String} {base : String} {n : Nat} :
    (base, n) ∈ usesAfter before bases ↔ before.count base < n ∧ n ≤ before.count base + bases.count base := by
  induction bases generalizing before with
  | nil =>
    rw [usesAfter, List.count_nil]
    simp only [List.not_mem_nil, false_iff]
    omega
  | cons first rest ih =>
    rw [usesAfter, List.mem_cons, ih, Prod.mk.injEq]
    by_cases h : base = first
    · subst h
      rw [count_concat_self, List.count_cons_self]
      simp only [true_and]
      omega
    · rw [count_concat_of_ne before h, List.count_cons_of_ne (Ne.symm h)]
      simp only [h, false_and, false_or]

theorem usesAfter_nodup (before bases : List String) : (usesAfter before bases).Nodup := by
  induction bases generalizing before with
  | nil => exact List.nodup_nil
  | cons base rest ih =>
    refine List.nodup_cons.2 ⟨?_, ih (before ++ [base])⟩
    intro hmem
    have hlater := (mem_usesAfter.1 hmem).1
    rw [count_concat_self] at hlater
    omega

theorem usesAfter_getElem? {before bases : List String} {i : Nat} {base : String} (h : bases[i]? = some base) :
    (usesAfter before bases)[i]? = some (base, before.count base + (bases.take (i + 1)).count base) := by
  induction bases generalizing before i with
  | nil => cases h
  | cons first rest ih =>
    cases i with
    | zero =>
      cases h
      simp [usesAfter]
    | succ i =>
      have hcount : (before ++ [first]).count base + (rest.take (i + 1)).count base =
          before.count base + ((first :: rest).take (i + 1 + 1)).count base := by
        have htake : (first :: rest).take (i + 1 + 1) = [first] ++ rest.take (i + 1) := rfl
        rw [htake, List.count_append, List.count_append]
        omega
      rw [usesAfter, List.getElem?_cons_succ, ih h, hcount]

theorem length_usesAfter (before bases : List String) : (usesAfter before bases).length = bases.length := by
  induction bases generalizing before with
  | nil => rfl
  | cons base rest ih => rw [usesAfter, List.length_cons, ih, List.length_cons]

/-! ## The supply -/

theorem distinctName_eq (base : String) (p : Pass) :
    Gen.distinctName base p = .ok (nameOfUse base (p.uses base + 1)) (p.countUse base) := by
  have hname : (if p.uses base + 1 = 1 then base else base ++ toString (p.uses base + 1)) =
      nameOfUse base (p.uses base + 1) := by
    unfold nameOfUse useNumber
    split
    · rw [String.append_empty]
    · rfl
  rw [← hname]
  rfl

/-- names asked for in a row are those of the uses in a row, whatever was asked for before -/
theorem distinctNames_eq (bases before : List String) (p : Pass) (h : ∀ base, p.uses base = before.count base) :
    ∃ q, bases.mapM Gen.distinctName p = .ok ((usesAfter before bases).map fun use => nameOfUse use.1 use.2) q := by
  induction bases generalizing before p with
  | nil => exact ⟨p, rfl⟩
  | cons base rest ih =>
    have hnext (other : String) : (p.countUse base).uses other = (before ++ [base]).count other := by
      by_cases heq : other = base
      · rw [heq, uses_countUse, count_concat_self, h base]
      · rw [uses_countUse_of_ne p heq, count_concat_of_ne before heq, h other]
    obtain ⟨q, hq⟩ := ih (before ++ [base]) (p.countUse base) hnext
    refine ⟨q, ?_⟩
    rw [List.mapM_cons]
    simp only [bind, EStateM.bind, distinctName_eq, hq, pure, EStateM.pure, usesAfter, List.map_cons, h base]

/-! ## Shared names -/

/-- the n-th use of the longer base gets the name of the m-th use of the shorter one: the longer base goes on with digits,
and these begin the number m and leave the number n -/
def Overlaps (short : String) (m : Nat) (long : String) (n : Nat) : Prop :=
  ∃ digits, digits ≠ "" ∧ long = short ++ digits ∧ useNumber m = digits ++ useNumber n

theorem isDigit_of_mem_useNumber {n : Nat} {c : Char} (h : c ∈ (useNumber n).toList) : c.isDigit = true := by
  unfold useNumber at h
  split at h
  · simp at h
  · rw [Nat.toString_eq_repr, Nat.toList_repr] at h
    exact Nat.isDigit_of_mem_toDigits (by decide) (by decide) h

theorem nameOfUse_injective {base : String} {m n : Nat} (h : nameOfUse base m = nameOfUse base n) : m = n := by
  -- a number is written with a digit at least, so the bare base is the name of the first use only
  have hbare (k : Nat) : base ++ toString k ≠ base := by
    intro heq
    have hlength := congrArg String.length heq
    have hpos : 0 < (toString k).length := by
      rw [Nat.toString_eq_repr]
      exact Nat.length_repr_pos
    rw [String.length_append] at hlength
    omega
  unfold nameOfUse useNumber at h
  by_cases h1 : m = 1
  · by_cases h2 : n = 1
    · omega
    · rw [if_pos h1, if_neg h2, String.append_empty] at h
      exact absurd h.symm (hbare n)
  · by_cases h2 : n = 1
    · rw [if_neg h1, if_pos h2, String.append_empty] at h
      exact absurd h (hbare m)
    · rw [if_neg h1, if_neg h2] at h
      exact numbered_injective h

theorem Overlaps.name_eq {short long : String} {m n : Nat} (h : Overlaps short m long n) :
    nameOfUse short m = nameOfUse long n := by
  obtain ⟨digits, -, rfl, hnumber⟩ := h
  rw [nameOfUse, nameOfUse, hnumber, String.append_assoc]

theorem Overlaps.ne {short long : String} {m n : Nat} (h : Overlaps short m long n) : short ≠ long := by
  obtain ⟨digits, hdigits, rfl, -⟩ := h
  intro heq
  apply hdigits
  have hlist := congrArg String.toList heq
  rw [String.toList_append] at hlist
  exact String.toList_eq_nil_iff.1 (List.self_eq_append_right.1 hlist)

theorem Overlaps.ends_in_digit {short long : String} {m n : Nat} (h : Overlaps short m long n) :
    ∃ c, long.toList.getLast? = some c ∧ c.isDigit = true := by
  obtain ⟨digits, hdigits, rfl, hnumber⟩ := h
  have hne : digits.toList ≠ [] := fun hnil => hdigits (String.toList_eq_nil_iff.1 hnil)
  refine ⟨digits.toList.getLast hne, ?_, ?_⟩
  · rw [String.toList_append, List.getLast?_append_of_ne_nil _ hne, List.getLast?_eq_getLast_of_ne_nil hne]
  · apply isDigit_of_mem_useNumber (n := m)
    rw [hnumber, String.toList_append]
    exact List.mem_append_left _ (List.getLast_mem hne)

/-- two uses share a name if they are the same use, or if the digits at the end of one base fill in for a number -/
theorem nameOfUse_eq_iff {b c : String} {m n : Nat} :
    nameOfUse b m = nameOfUse c n ↔ (b = c ∧ m = n) ∨ Overlaps b m c n ∨ Overlaps c n b m := by
  constructor
  · intro h
    by_cases hbc : b = c
    · subst hbc
      exact .inl ⟨rfl, nameOfUse_injective h⟩
    · have hlists := congrArg String.toList h
      simp only [nameOfUse, String.toList_append] at hlists
      -- one base is a beginning of the other, and what it goes on with is a beginning of the number of the shorter one
      have hsplit {x y : String} {i j : Nat} (hxy : x ≠ y) {ds : List Char} (hy : y.toList = x.toList ++ ds)
          (hi : (useNumber i).toList = ds ++ (useNumber j).toList) : Overlaps x i y j := by
        refine ⟨String.ofList ds, ?_, ?_, ?_⟩
        · intro hempty
          apply hxy
          have hnil : ds = [] := by simpa using congrArg String.toList hempty
          rw [hnil, List.append_nil] at hy
          exact (String.toList_injective hy).symm
        · apply String.toList_injective
          rw [String.toList_append, String.toList_ofList, hy]
        · apply String.toList_injective
          rw [String.toList_append, String.toList_ofList, hi]
      rcases List.append_eq_append_iff.1 hlists with ⟨ds, hc, hnumber⟩ | ⟨ds, hb, hnumber⟩
      · exact .inr (.inl (hsplit hbc hc hnumber))
      · exact .inr (.inr (hsplit (Ne.symm hbc) hb hnumber))
  · rintro (⟨rfl, rfl⟩ | h | h)
    · rfl
    · exact h.name_eq
    · exact h.name_eq.symm

/-! ## Names in a row -/

theorem eq_of_same_name {before bases : List String} {i j : Nat} {base : String} (hi : bases[i]? = some base)
    (hj : bases[j]? = some base) (h : ((usesAfter before bases).map fun use => nameOfUse use.1 use.2)[i]? =
      ((usesAfter before bases).map fun use => nameOfUse use.1 use.2)[j]?) : i = j := by
  have hlt : i < (usesAfter before bases).length := by
    rw [length_usesAfter]
    exact (List.getElem?_eq_some_iff.1 hi).1
  refine (List.getElem?_inj hlt (usesAfter_nodup before bases)).1 ?_
  rw [List.getElem?_map, List.getElem?_map, usesAfter_getElem? hi, usesAfter_getElem? hj] at h
  have hnumber := nameOfUse_injective (Option.some.inj h)
  rw [usesAfter_getElem? hi, usesAfter_getElem? hj]
  exact congrArg (fun n => some (base, n)) hnumber

/-- **Names in a row are distinct up to overlaps.** In a pass that has handed out no name, any bases in a row get names:
each base itself at its first use, and with the number of its use behind it from then on. Two uses of one base never get the
same name. All the names are distinct if and only if no use of one base overlaps a use of another; so they are whenever no
base ends in a digit. -/
theorem names_distinct_iff (board : Board) (indent : Nat) (bases : List String) :
    ∃ names q, bases.mapM Gen.distinctName { board, indent } = .ok names q ∧ names.length = bases.length ∧
      (∀ i base, bases[i]? = some base → names[i]? = some (nameOfUse base ((bases.take (i + 1)).count base))) ∧
      (∀ (i j : Nat) base, bases[i]? = some base → bases[j]? = some base → names[i]? = names[j]? → i = j) ∧
      (names.Nodup ↔ ∀ short m long n, 0 < m → m ≤ bases.count short → 0 < n → n ≤ bases.count long →
        ¬ Overlaps short m long n) ∧
      ((∀ base ∈ bases, ∀ c, base.toList.getLast? = some c → c.isDigit = false) → names.Nodup) := by
  have hfresh (base : String) : ({ board, indent } : Pass).uses base = ([] : List String).count base := rfl
  obtain ⟨q, hq⟩ := distinctNames_eq bases [] _ hfresh
  have hmem {base : String} {n : Nat} : (base, n) ∈ usesAfter [] bases ↔ 0 < n ∧ n ≤ bases.count base := by
    rw [mem_usesAfter, List.count_nil, Nat.zero_add]
  have hiff : ((usesAfter [] bases).map fun use => nameOfUse use.1 use.2).Nodup ↔
      ∀ short m long n, 0 < m → m ≤ bases.count short → 0 < n → n ≤ bases.count long → ¬ Overlaps short m long n := by
    rw [List.nodup_map_iff_inj_on (usesAfter_nodup [] bases)]
    constructor
    · intro hinj short m long n hm hm' hn hn' hover
      have heq := hinj (short, m) (hmem.2 ⟨hm, hm'⟩) (long, n) (hmem.2 ⟨hn, hn'⟩) hover.name_eq
      exact hover.ne (congrArg Prod.fst heq)
    · rintro hnone ⟨b, m⟩ hb ⟨c, n⟩ hc heq
      obtain ⟨hm, hm'⟩ := hmem.1 hb
      obtain ⟨hn, hn'⟩ := hmem.1 hc
      rcases nameOfUse_eq_iff.1 heq with ⟨rfl, rfl⟩ | hover | hover
      · rfl
      · exact absurd hover (hnone b m c n hm hm' hn hn')
      · exact absurd hover (hnone c n b m hn hn' hm hm')
  refine ⟨_, q, hq, ?_, ?_, ?_, hiff, ?_⟩
  · rw [List.length_map, length_usesAfter]
  · intro i base hi
    rw [List.getElem?_map, usesAfter_getElem? hi, List.count_nil, Nat.zero_add]
    rfl
  · exact fun i j base => eq_of_same_name
  · intro hplain
    refine hiff.2 ?_
    intro short m long n _ _ hn hn' hover
    obtain ⟨c, hlast, hdigit⟩ := hover.ends_in_digit
    have hlong : long ∈ bases := List.count_pos_iff.1 (by omega)
    rw [hplain long hlong c hlast] at hdigit
    cases hdigit

/-- a base that reads like the second use of another one is handed out twice -/
theorem names_repeat_numbered_base :
    ∃ q, ["count", "count", "count2"].mapM Gen.distinctName { board := Board.uno, indent := 2 } =
      .ok ["count", "count2", "count2"] q ∧ ¬ ["count", "count2", "count2"].Nodup :=
  ⟨_, rfl, by decide⟩

end BlockSketch
