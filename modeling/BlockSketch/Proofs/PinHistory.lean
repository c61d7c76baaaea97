/-
The pin table and the calls that made it.

Claims are made on a fresh table one after the other, each on a board of its own, and some of them fail. What the table
says and what it answers next is told here by the claims that were granted so far, without a table: a claim is refused
because its board cannot do it, or because the first claim granted on its pin is for another role.

Results:
- `firstPerPin_concat`: a claim more is a first one if there was none on its pin;
- `after_reflects`, `afterAll_reflects`: the table keeps the first claim granted on each pin, call by call;
- `pins_follow_history`: what the table holds after any calls, and what it answers to the next.
-/
import BlockSketch.Board.Builtin
import BlockSketch.Proofs.Actions
import Mathlib.Data.List.Dedup

namespace BlockSketch

/-! ## Calls -/

/-- a claim and the board it is made on; nobody need be named as its claimant -/
structure PinCall where
  board : Board
  claim : Claim

namespace PinTable

/-- the table after a call; one that fails leaves it as it is -/
def after (t : PinTable) (call : PinCall) : PinTable :=
  match t.claim call.board call.claim with
  | .ok t' => t'
  | .error _ => t

def afterAll (t : PinTable) (calls : List PinCall) : PinTable := calls.foldl after t

def grant (t : PinTable) (call : PinCall) : List Claim :=
  match t.claim call.board call.claim with
  | .ok _ => [call.claim]
  | .error _ => []

/-- the claims that are granted when calls are made in a row -/
def granted (t : PinTable) : List PinCall → List Claim
  | [] => []
  | call :: rest => t.grant call ++ (t.after call).granted rest

end PinTable

def firstPerPin : List Claim → List Claim
  | [] => []
  | c :: rest => c :: (firstPerPin rest).filter fun d => d.pin ≠ c.pin

/-! ## The first claim on each pin -/

theorem find?_firstPerPin (claims : List Claim) (pin : String) :
    (firstPerPin claims).find? (fun c => c.pin == pin) = claims.find? fun c => c.pin == pin := by
  induction claims with
  | nil => rfl
  | cons c rest ih =>
    rw [firstPerPin, List.find?_cons, List.find?_cons]
    by_cases hpin : c.pin = pin
    · simp [hpin]
    · -- what is filtered out is on the pin of `c`, so it was not looked for
      have hpass (d : Claim) : decide (decide (d.pin ≠ c.pin) = true ∧ (d.pin == pin) = true) = (d.pin == pin) := by
        by_cases hd : d.pin = pin
        · simp [hd, Ne.symm hpin]
        · simp [hd]
      simp only [List.find?_filter, hpass, ih]

/-- a claim more is a first one if there was none on its pin -/
theorem firstPerPin_concat (claims : List Claim) (c : Claim) :
    firstPerPin (claims ++ [c]) =
      firstPerPin claims ++ if claims.find? (fun d => d.pin == c.pin) = none then [c] else [] := by
  induction claims with
  | nil => rfl
  | cons d rest ih =>
    rw [List.cons_append, firstPerPin, ih, List.filter_append, firstPerPin, List.cons_append, List.find?_cons]
    by_cases hpin : d.pin = c.pin
    · split <;> simp [hpin]
    · have hother : (d.pin == c.pin) = false := by simpa using hpin
      rw [hother]
      split <;> simp [Ne.symm hpin]

theorem mem_pins_firstPerPin {claims : List Claim} {pin : String} :
    pin ∈ (firstPerPin claims).map Claim.pin ↔ pin ∈ claims.map Claim.pin := by
  have hfirst (cs : List Claim) : pin ∈ cs.map Claim.pin ↔ (cs.find? fun c => c.pin == pin).isSome := by
    simp [List.find?_isSome]
  rw [hfirst, hfirst, find?_firstPerPin]

theorem nodup_pins_firstPerPin (claims : List Claim) : ((firstPerPin claims).map Claim.pin).Nodup := by
  induction claims with
  | nil => exact .nil
  | cons c rest ih =>
    rw [firstPerPin, List.map_cons, List.nodup_cons]
    refine ⟨by simp, ?_⟩
    exact ih.sublist (List.filter_sublist.map Claim.pin)

/-- a list without repetitions that has the members of another is as long as that one without its repetitions -/
theorem length_eq_dedup {names all : List String} (hnodup : names.Nodup) (hmem : ∀ name, name ∈ names ↔ name ∈ all) :
    names.length = all.dedup.length := by
  refine List.Perm.length_eq ((List.perm_ext_iff_of_nodup hnodup (List.nodup_dedup _)).2 fun name => ?_)
  rw [hmem, List.mem_dedup]

theorem length_firstPerPin (claims : List Claim) :
    (firstPerPin claims).length = (claims.map Claim.pin).dedup.length := by
  have hlength := length_eq_dedup (nodup_pins_firstPerPin claims) fun _ => mem_pins_firstPerPin
  rwa [List.length_map] at hlength

/-! ## One call -/

namespace PinTable

variable {t : PinTable} {earlier : List Claim}

/-- the table holds the first granted claim on each pin, and the claims granted on a pin are all for one role -/
structure Reflects (t : PinTable) (earlier : List Claim) : Prop where
  claims : t.claims = firstPerPin earlier
  roles : ∀ c ∈ earlier, ∀ d ∈ earlier, c.pin = d.pin → c.role = d.role

theorem Reflects.fresh : Reflects {} [] := ⟨rfl, by simp⟩

/-- looking up a pin finds the first claim granted on it -/
theorem Reflects.get? (h : t.Reflects earlier) (pin : String) :
    t.get? pin = earlier.find? fun c => c.pin == pin := by
  rw [PinTable.get?, h.claims, find?_firstPerPin]

/-- a claim was granted on a pin for another role exactly if the first one granted is for another role -/
theorem Reflects.first_role (h : t.Reflects earlier) (pin : String) (role : Role) :
    (∃ first, earlier.find? (fun c => c.pin == pin) = some first ∧ first.role ≠ role) ↔
      ∃ c ∈ earlier, c.pin = pin ∧ c.role ≠ role := by
  constructor
  · rintro ⟨first, hfirst, hrole⟩
    exact ⟨first, List.mem_of_find?_eq_some hfirst, by simpa using List.find?_some hfirst, hrole⟩
  · rintro ⟨c, hc, rfl, hrole⟩
    have hsome : (earlier.find? fun d => d.pin == c.pin).isSome := by
      rw [List.find?_isSome]
      exact ⟨c, hc, by simp⟩
    obtain ⟨first, hfirst⟩ := Option.isSome_iff_exists.1 hsome
    have hpin : first.pin = c.pin := by simpa using List.find?_some hfirst
    have hsame := h.roles first (List.mem_of_find?_eq_some hfirst) c hc hpin
    exact ⟨first, hfirst, hsame ▸ hrole⟩

/-- a claim that is granted agrees with the claims granted on its pin, and is recorded if it is the first -/
theorem Reflects.grant (h : t.Reflects earlier) {c : Claim} (hroles : ∀ d ∈ earlier, d.pin = c.pin → d.role = c.role) :
    Reflects ⟨t.claims ++ if t.get? c.pin = none then [c] else []⟩ (earlier ++ [c]) := by
  constructor
  · rw [firstPerPin_concat, h.get?, h.claims]
  · intro x hx y hy hpin
    simp only [List.mem_append, List.mem_singleton] at hx hy
    rcases hx with hx | rfl <;> rcases hy with hy | rfl
    · exact h.roles x hx y hy hpin
    · exact hroles x hx hpin
    · exact (hroles y hy hpin.symm).symm
    · rfl

/-- **One call keeps the table a reflection** of the claims granted. -/
theorem after_reflects (h : t.Reflects earlier) (call : PinCall) :
    (t.after call).Reflects (earlier ++ t.grant call) := by
  obtain ⟨board, c⟩ := call
  have hagree (hfirst : ∀ first, t.get? c.pin = some first → first.role = c.role) :
      ∀ d ∈ earlier, d.pin = c.pin → d.role = c.role := by
    intro d hd hpin
    by_contra hrole
    obtain ⟨first, hsome, hother⟩ := (h.first_role c.pin c.role).2 ⟨d, hd, hpin, hrole⟩
    exact hother (hfirst first (by rw [h.get?, hsome]))
  rcases claim_cases t board c with ⟨-, hclaim⟩ | ⟨-, ⟨hfree, hclaim⟩ | ⟨first, hfirst, ⟨hrole, hclaim⟩ | ⟨-, hclaim⟩⟩⟩
  · simpa [after, PinTable.grant, hclaim] using h
  · have hgrant := h.grant (hagree (by simp [hfree]))
    simpa [after, PinTable.grant, hclaim, hfree] using hgrant
  · have hgrant := h.grant (hagree (by simp [hfirst, hrole]))
    simpa [after, PinTable.grant, hclaim, hfirst] using hgrant
  · simpa [after, PinTable.grant, hclaim] using h

/-- **Calls in a row** keep the table a reflection of the claims granted. -/
theorem afterAll_reflects (h : t.Reflects earlier) (calls : List PinCall) :
    (t.afterAll calls).Reflects (earlier ++ t.granted calls) := by
  induction calls generalizing t earlier with
  | nil => simpa [afterAll, granted] using h
  | cons call rest ih =>
    have hrest := ih (after_reflects h call)
    rw [List.append_assoc] at hrest
    exact hrest

/-- a call is refused for want of the capability, or else for a conflict with the first claim granted on its pin -/
theorem Reflects.claim_error_iff (h : t.Reflects earlier) (board : Board) (c : Claim) (fault : Fault) :
    t.claim board c = .error fault ↔
      (c.pin ∉ board.eligible c.role ∧ fault = .capability c.pin c.role board.name) ∨
      (c.pin ∈ board.eligible c.role ∧
        ∃ first, earlier.find? (fun d => d.pin == c.pin) = some first ∧ first.role ≠ c.role ∧
          fault = .pinConflict c.pin first.role first.purpose c.role c.purpose) := by
  rw [← h.get?]
  rcases claim_cases t board c with
    ⟨heligible, hclaim⟩ | ⟨heligible, ⟨hfree, hclaim⟩ | ⟨first, hfirst, ⟨hrole, hclaim⟩ | ⟨hrole, hclaim⟩⟩⟩
  · simp [hclaim, heligible, eq_comm]
  · simp [hclaim, heligible, hfree]
  · simp [hclaim, heligible, hfirst, hrole]
  · simp [hclaim, heligible, hfirst, hrole, @eq_comm _ fault]

theorem Reflects.claim_ok_iff (h : t.Reflects earlier) (board : Board) (c : Claim) :
    (∃ t', t.claim board c = .ok t') ↔
      c.pin ∈ board.eligible c.role ∧ ∀ d ∈ earlier, d.pin = c.pin → d.role = c.role := by
  rw [BlockSketch.claim_ok_iff, Board.supports_iff]
  refine and_congr_right fun _ => ?_
  have hagree := not_congr (h.first_role c.pin c.role)
  push Not at hagree
  rw [← hagree, ← h.get?]
  simp [roleOf?]

theorem Reflects.after_eq (h : t.Reflects earlier) (call : PinCall)
    (hcall : (∃ fault, t.claim call.board call.claim = .error fault) ∨ ∃ d ∈ earlier, d.pin = call.claim.pin) :
    t.after call = t := by
  rcases claim_cases t call.board call.claim with
    ⟨-, hclaim⟩ | ⟨-, ⟨hfree, hclaim⟩ | ⟨first, hfirst, ⟨-, hclaim⟩ | ⟨-, hclaim⟩⟩⟩
  · simp [after, hclaim]
  · -- the pin is free, so the call is neither refused nor shared
    have hnone := List.find?_eq_none.1 ((h.get? call.claim.pin).symm.trans hfree)
    rcases hcall with ⟨fault, hfault⟩ | ⟨d, hd, hpin⟩
    · rw [hclaim] at hfault
      cases hfault
    · exact absurd (by simpa using hpin) (hnone d hd)
  · simp [after, hclaim]
  · simp [after, hclaim]

theorem afterAll_concat (t : PinTable) (calls : List PinCall) (call : PinCall) :
    t.afterAll (calls ++ [call]) = (t.afterAll calls).after call := by
  simp [afterAll]

end PinTable

/-- a block that claims a pin in a pass makes one call on the table of the pass -/
theorem Gen.reservePin_pins (block : Block) (use : PinUse) (p : Pass) :
    (afterwards (Gen.reservePin block use.pin use.role use.purpose p)).pins =
      p.pins.after ⟨p.board, Pass.claimOf block use⟩ := by
  have hperform : Gen.reservePin block use.pin use.role use.purpose p = _ := perform_claim block use p
  rw [hperform, PinTable.after]
  cases p.pins.claim p.board (Pass.claimOf block use) with
  | ok pins => rfl
  | error fault => rfl

/-! ## All calls -/

/-- **The table follows the history of its calls.** After any calls on a fresh table, the next call is refused for want of
the capability if its board cannot do it, else for a conflict if a call granted earlier claimed its pin for another role,
naming the first of these, and else it is granted. A call that is refused or shares its pin leaves the table as it is, and
so it does when a block makes it in a pass. The table lists the first claim granted on each pin, in order. -/
theorem pins_follow_history (calls : List PinCall) (call : PinCall) :
    let t := PinTable.afterAll {} calls
    let earlier := PinTable.granted {} calls
    let c := call.claim
    (∀ fault, t.claim call.board c = .error fault ↔
      (c.pin ∉ call.board.eligible c.role ∧ fault = .capability c.pin c.role call.board.name) ∨
      (c.pin ∈ call.board.eligible c.role ∧
        ∃ first, earlier.find? (fun d => d.pin == c.pin) = some first ∧ first.role ≠ c.role ∧
          fault = .pinConflict c.pin first.role first.purpose c.role c.purpose)) ∧
    ((∃ first, earlier.find? (fun d => d.pin == c.pin) = some first ∧ first.role ≠ c.role) ↔
      ∃ d ∈ earlier, d.pin = c.pin ∧ d.role ≠ c.role) ∧
    ((∃ t', t.claim call.board c = .ok t') ↔
      c.pin ∈ call.board.eligible c.role ∧ ∀ d ∈ earlier, d.pin = c.pin → d.role = c.role) ∧
    ((∃ fault, t.claim call.board c = .error fault) ∨ (∃ d ∈ earlier, d.pin = c.pin) →
      PinTable.afterAll {} (calls ++ [call]) = t) ∧
    (∀ (p : Pass) (block : Block), p.pins = t → p.board = call.board → c.claimant = some ⟨block.id, block.span⟩ →
      (afterwards (Gen.reservePin block c.pin c.role c.purpose p)).pins = PinTable.afterAll {} (calls ++ [call])) ∧
    t.claims = firstPerPin earlier ∧ (t.claims.map Claim.pin).Nodup ∧
    (∀ pin, t.get? pin = earlier.find? fun d => d.pin == pin) ∧
    t.size = (earlier.map Claim.pin).dedup.length := by
  intro t earlier c
  have h : t.Reflects earlier := PinTable.afterAll_reflects PinTable.Reflects.fresh calls
  refine ⟨h.claim_error_iff call.board c, h.first_role c.pin c.role, h.claim_ok_iff call.board c, fun hcall => ?_, ?_,
    h.claims, ?_, h.get?, ?_⟩
  · rw [PinTable.afterAll_concat]
    exact h.after_eq call hcall
  · intro p block hpins hboard hclaimant
    have hclaim : Pass.claimOf block ⟨c.pin, c.role, c.purpose⟩ = c := by rw [Pass.claimOf, ← hclaimant]
    have hreserve := Gen.reservePin_pins block ⟨c.pin, c.role, c.purpose⟩ p
    rw [hreserve, hclaim, hpins, hboard, PinTable.afterAll_concat]
  · rw [h.claims]
    exact nodup_pins_firstPerPin earlier
  · rw [PinTable.size, h.claims, length_firstPerPin]

/-- a pin taken for a servo, another that cannot have one, the first pin shared, and a third taken on another board -/
def samplePinCalls : List PinCall :=
  [⟨Board.uno, ⟨"9", .servo, "Servo Write", none⟩⟩, ⟨Board.uno, ⟨"7", .servo, "Servo Write", none⟩⟩,
    ⟨Board.uno, ⟨"9", .servo, "Servo Read", some ⟨"b", ⟨0, 1⟩⟩⟩⟩,
    ⟨{ name := "own", analogPins := ["A9"] }, ⟨"A9", .analogInput, "Analogue Read", none⟩⟩]

/-- a block that dims the first pin -/
def sampleDimmer : Block := ⟨"dim", "io_analogwrite", [("PIN", "9")], [], [], ⟨2, 3⟩⟩

def samplePinPass : Pass := { board := Board.uno, indent := 2, pins := PinTable.afterAll {} samplePinCalls }

/-- the first pin cannot be dimmed any more, and the table names the claim that took it -/
theorem pins_follow_history_servo :
    (PinTable.afterAll {} samplePinCalls).claim Board.uno ⟨"9", .pwm, "Analogue Write", some ⟨"dim", ⟨2, 3⟩⟩⟩ =
        .error (.pinConflict "9" .servo "Servo Write" .pwm "Analogue Write") ∧
      (afterwards (Gen.reservePin sampleDimmer "9" .pwm "Analogue Write" samplePinPass)).pins = samplePinPass.pins ∧
      (PinTable.afterAll {} samplePinCalls).size = 2 := by
  have heligible : "9" ∈ Board.uno.eligible .pwm := by decide
  have hfirst : (PinTable.granted {} samplePinCalls).find? (fun d => d.pin == "9") =
      some ⟨"9", .servo, "Servo Write", none⟩ := by decide
  have hpins : ((PinTable.granted {} samplePinCalls).map Claim.pin).dedup.length = 2 := by decide
  obtain ⟨hrefused, -, -, hsame, hpass, -, -, -, hsize⟩ :=
    pins_follow_history samplePinCalls ⟨Board.uno, ⟨"9", .pwm, "Analogue Write", some ⟨"dim", ⟨2, 3⟩⟩⟩⟩
  have hconflict := (hrefused _).2 (.inr ⟨heligible, _, hfirst, by decide, rfl⟩)
  exact ⟨hconflict, (hpass samplePinPass sampleDimmer rfl rfl rfl).trans (hsame (.inl ⟨_, hconflict⟩)), hsize.trans hpins⟩

end BlockSketch
