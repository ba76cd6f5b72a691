import Mqtt.Transport

/-!
# Sending, offer by offer

What `sendAll` offers is always an end of the packet, the whole of it first, and each
offer is what the one before left over.  The octets taken make up the packet when
sending ends well, and a part of it from the front when it does not.
-/

namespace Mqtt.Transport

namespace Attempt

/-- The octets that the transport took of an offer. -/
def taken (a : Attempt) : Bytes :=
  match a.outcome with
  | .accepted count => a.offered.take count
  | .failed _ => []

/-- Whether an offer is the first of its packet. -/
def opens (a : Attempt) : Bool :=
  a.offered == a.whole

/-- Whether the transport took all of an offer, and with it the last of the packet. -/
def completes (a : Attempt) : Bool :=
  match a.outcome with
  | .accepted count => a.offered.length ≤ count
  | .failed _ => false

/-- Whether the transport failed for good. -/
def breaks (a : Attempt) : Bool :=
  match a.outcome with
  | .accepted count => count == 0
  | .failed e => !e.isTimeout

end Attempt

/-- How sending the rest of `whole` can go: the rest, how sending ends, and the offers. -/
inductive Course (whole : Bytes) : Bytes → Except Error Unit → List Attempt → Prop
  | done : Course whole [] (.ok ()) []
  | late {bs : Bytes} : bs ≠ [] → Course whole bs (.error .timeout) []
  | failed {bs : Bytes} (e : Error) : bs ≠ [] →
    Course whole bs (.error e) [⟨whole, bs, .failed e⟩]
  | refused {bs : Bytes} : bs ≠ [] → Course whole bs (.error .closed) [⟨whole, bs, .accepted 0⟩]
  | took {bs : Bytes} {r : Except Error Unit} {later : List Attempt} (n : Nat) : bs ≠ [] →
    Course whole (bs.drop (n + 1)) r later →
    Course whole bs r (⟨whole, bs, .accepted (n + 1)⟩ :: later)

theorem sendRest_course {σ : Type} (offer : σ → Bytes → Nat → Answer × σ) (whole bs : Bytes)
    (left : Nat) (line : σ) :
    Course whole bs (sendRest offer whole bs left line).result
      (sendRest offer whole bs left line).attempts := by
  fun_induction sendRest offer whole bs left line with
  | case1 => exact .done
  | case2 line bs more => exact .late more
  | case3 bs left line more _ e => exact .failed e more
  | case4 bs left line more => exact .refused more
  | case5 bs left line more _ n elapsed line' _ rest ih => exact .took n more ih

namespace Course

variable {whole bs : Bytes} {r : Except Error Unit} {attempts : List Attempt}

/-- Every offer is of this packet, and is no more than was to be sent. -/
theorem of_mem (h : Course whole bs r attempts) {a : Attempt} (member : a ∈ attempts) :
    a.whole = whole ∧ a.offered ≠ [] ∧ a.offered.length ≤ bs.length := by
  induction h with
  | done => cases member
  | late => cases member
  | failed e more =>
    cases List.mem_singleton.1 member
    exact ⟨rfl, more, Nat.le_refl _⟩
  | refused more =>
    cases List.mem_singleton.1 member
    exact ⟨rfl, more, Nat.le_refl _⟩
  | took n more _ ih =>
    rcases List.mem_cons.1 member with rfl | member
    · exact ⟨rfl, more, Nat.le_refl _⟩
    · obtain ⟨same, some, short⟩ := ih member
      rw [List.length_drop] at short
      exact ⟨same, some, by omega⟩

/-- The octets taken are all that was to be sent, or a part of it from the front. -/
theorem taken (h : Course whole bs r attempts) :
    (r = .ok () ∧ attempts.flatMap Attempt.taken = bs) ∨
      ((∃ e, r = .error e) ∧ attempts.flatMap Attempt.taken <+: bs ∧
        attempts.flatMap Attempt.taken ≠ bs) := by
  induction h with
  | done => exact Or.inl ⟨rfl, rfl⟩
  | late more => exact Or.inr ⟨⟨_, rfl⟩, List.nil_prefix, fun same => more same.symm⟩
  | failed e more => exact Or.inr ⟨⟨_, rfl⟩, List.nil_prefix, fun same => more same.symm⟩
  | refused more => exact Or.inr ⟨⟨_, rfl⟩, List.nil_prefix, fun same => more same.symm⟩
  | @took bs r later n more _ ih =>
    have split : bs.take (n + 1) ++ bs.drop (n + 1) = bs := List.take_append_drop _ _
    rw [List.flatMap_cons]
    change (r = .ok () ∧ bs.take (n + 1) ++ later.flatMap Attempt.taken = bs) ∨
      ((∃ e, r = .error e) ∧ bs.take (n + 1) ++ later.flatMap Attempt.taken <+: bs ∧
        bs.take (n + 1) ++ later.flatMap Attempt.taken ≠ bs)
    rcases ih with ⟨well, all⟩ | ⟨ill, part, short⟩
    · exact Or.inl ⟨well, by rw [all, split]⟩
    · refine Or.inr ⟨ill, ?_, fun same => short ?_⟩
      · have longer := (List.prefix_append_right_inj (bs.take (n + 1))).2 part
        rwa [split] at longer
      · exact List.append_cancel_left (same.trans split.symm)

/-- Sending that ends well has one offer that takes the last octet, which is the last
offer; else there is none. -/
theorem completes (h : Course whole bs r attempts) :
    (r = .ok () ∧ (attempts = [] ∧ bs = [] ∨ ∃ before last, attempts = before ++ [last] ∧
      last.completes = true ∧ ∀ a ∈ before, a.completes = false)) ∨
    ((∃ e, r = .error e) ∧ ∀ a ∈ attempts, a.completes = false) := by
  induction h with
  | done => exact Or.inl ⟨rfl, Or.inl ⟨rfl, rfl⟩⟩
  | late => exact Or.inr ⟨⟨_, rfl⟩, fun a member => by cases member⟩
  | failed e =>
    refine Or.inr ⟨⟨_, rfl⟩, fun a member => ?_⟩
    cases List.mem_singleton.1 member
    rfl
  | refused more =>
    refine Or.inr ⟨⟨_, rfl⟩, fun a member => ?_⟩
    cases List.mem_singleton.1 member
    simpa [Attempt.completes] using more
  | @took bs r later n more course ih =>
    by_cases last : bs.length ≤ n + 1
    · rw [List.drop_eq_nil_of_le last] at course
      cases course with
      | done => exact Or.inl ⟨rfl, Or.inr ⟨[], _, rfl, by simpa [Attempt.completes] using last,
          fun a member => by cases member⟩⟩
      | late h | failed _ h | refused h | took _ h => exact absurd rfl h
    · have short : Attempt.completes ⟨whole, bs, .accepted (n + 1)⟩ = false := by
        simpa [Attempt.completes] using last
      rcases ih with ⟨well, ⟨-, nothing⟩ | ⟨before, final, rfl, full, others⟩⟩ | ⟨ill, none⟩
      · exact absurd (List.drop_eq_nil_iff.1 nothing) last
      · refine Or.inl ⟨well, Or.inr ⟨_ :: before, final, rfl, full, fun a member => ?_⟩⟩
        rcases List.mem_cons.1 member with rfl | member
        · exact short
        · exact others a member
      · refine Or.inr ⟨ill, fun a member => ?_⟩
        rcases List.mem_cons.1 member with rfl | member
        · exact short
        · exact none a member

/-- Sending fails for good exactly when an offer does. -/
theorem breaks (h : Course whole bs r attempts) :
    (∃ a ∈ attempts, a.breaks = true) ↔ ∃ e, r = .error e ∧ e.isTimeout = false := by
  induction h with
  | done => simp
  | late => simp [Error.isTimeout]
  | failed e => simp [Attempt.breaks]
  | refused => simp [Attempt.breaks, Error.isTimeout]
  | took n _ _ ih => simpa [Attempt.breaks] using ih

end Course

variable {σ : Type}

theorem sendAll_course (offer : σ → Bytes → Nat → Answer × σ) (bs : Bytes) (left : Nat) (line : σ) :
    Course bs bs (sendAll offer bs left line).result (sendAll offer bs left line).attempts :=
  sendRest_course offer bs bs left line

/-- With any time at all, the first offer is of the whole packet and no later one is. -/
theorem sendAll_opens (offer : σ → Bytes → Nat → Answer × σ) {bs : Bytes} {left : Nat} (line : σ)
    (more : bs ≠ []) (time : left ≠ 0) :
    ∃ first later, (sendAll offer bs left line).attempts = first :: later ∧
      first.opens = true ∧ ∀ a ∈ later, a.opens = false := by
  have course := sendAll_course offer bs left line
  have begun : (sendAll offer bs left line).attempts ≠ [] := by
    unfold sendAll
    rw [sendRest, dif_neg more, if_neg time]
    split <;> simp
  cases h : (sendAll offer bs left line).attempts with
  | nil => exact absurd h begun
  | cons first later =>
    rw [h] at course
    generalize (sendAll offer bs left line).result = r at course
    refine ⟨first, later, rfl, ?_, ?_⟩
    · cases course <;> simp [Attempt.opens]
    · cases course with
      | failed | refused => intro a member; cases member
      | took n _ course =>
        intro a member
        obtain ⟨same, _, short⟩ := course.of_mem member
        rw [List.length_drop] at short
        have length := List.length_pos_iff.2 more
        unfold Attempt.opens
        rw [beq_eq_false_iff_ne, same]
        intro equal
        rw [equal] at short
        omega

end Mqtt.Transport
