import Mqtt.Proofs.Sending
import Mqtt.Simulation

/-!
# Offers in time

A transport that takes note of each offer made to it takes and refuses what it would anyway
(`Transport.noted`, `Transport.sendRest_noted`), so what it noted tells of every sending what was
offered, how much time that was given, and how it was answered.  `Passage` is the course of a
sending with its times; every fact about the offers is read off it.
-/

namespace Mqtt.Transport

/-- An offer as a transport meets it, with the time it may take, and the answer to it. -/
structure Offer where
  octets : Bytes
  bound : Nat
  answer : Answer

namespace Offer

/-- The offer as one of those made of a packet. -/
def attempt (whole : Bytes) (o : Offer) : Attempt :=
  ⟨whole, o.octets, o.answer.outcome⟩

/-- The octets that the transport took. -/
def taken (o : Offer) : Bytes :=
  (o.attempt o.octets).taken

end Offer

/-- The octets taken of several offers, one after the other. -/
def takenOf (offers : List Offer) : Bytes :=
  offers.flatMap Offer.taken

/-- The time that several offers took. -/
def spent : List Offer → Nat
  | [] => 0
  | o :: later => o.answer.elapsed + spent later

variable {σ : Type} {offer : σ → Bytes → Nat → Answer × σ} {whole bs : Bytes} {left : Nat}
  {r : Except Error Unit} {offers : List Offer}

/-- The same transport, taking note of the offers made to it, the latest first. -/
def noted (offer : σ → Bytes → Nat → Answer × σ) (line : σ × List Offer) (bs : Bytes)
    (bound : Nat) : Answer × (σ × List Offer) :=
  let (answer, after) := offer line.1 bs bound
  (answer, after, ⟨bs, bound, answer⟩ :: line.2)

/-- Whether a transport takes no more than it is offered. -/
def Fair (offer : σ → Bytes → Nat → Answer × σ) : Prop :=
  ∀ line bs bound count, (offer line bs bound).1.outcome = .accepted count → count ≤ bs.length

/-- How sending the rest of a packet can go in the time left for it: the rest, the time, how
sending ends, and the offers. -/
inductive Passage : Bytes → Nat → Except Error Unit → List Offer → Prop
  | done {left : Nat} : Passage [] left (.ok ()) []
  | late {bs : Bytes} : bs ≠ [] → Passage bs 0 (.error .timeout) []
  | failed {bs : Bytes} {left : Nat} (e : Error) (elapsed : Nat) : bs ≠ [] → 0 < left →
    Passage bs left (.error e) [⟨bs, left, .failed e, elapsed⟩]
  | refused {bs : Bytes} {left : Nat} (elapsed : Nat) : bs ≠ [] → 0 < left →
    Passage bs left (.error .closed) [⟨bs, left, .accepted 0, elapsed⟩]
  | took {bs : Bytes} {left : Nat} {r : Except Error Unit} {later : List Offer}
    (n elapsed : Nat) : bs ≠ [] → 0 < left →
    Passage (bs.drop (n + 1)) (left - elapsed) r later →
    Passage bs left r (⟨bs, left, .accepted (n + 1), elapsed⟩ :: later)

/-- A transport that takes note of the offers serves them as it would without, and what it noted
is the passage of the packet. -/
theorem sendRest_noted (offer : σ → Bytes → Nat → Answer × σ) (whole bs : Bytes) (left : Nat)
    (line : σ) (past : List Offer) :
    ∃ offers : List Offer,
      sendRest (noted offer) whole bs left (line, past) =
        { sendRest offer whole bs left line with
          line := ((sendRest offer whole bs left line).line, offers.reverse ++ past) } ∧
      (sendRest offer whole bs left line).attempts = offers.map (Offer.attempt whole) ∧
      (sendRest offer whole bs left line).elapsed = spent offers ∧
      Passage bs left (sendRest offer whole bs left line).result offers ∧
      ∀ o ∈ offers, ∃ before, (offer before o.octets o.bound).1 = o.answer := by
  fun_induction sendRest offer whole bs left line generalizing past with
  | case1 left line =>
    refine ⟨[], ?_, rfl, rfl, .done, fun _ none => absurd none List.not_mem_nil⟩
    rw [sendRest]
    rfl
  | case2 line bs more =>
    refine ⟨[], ?_, rfl, rfl, .late more, fun _ none => absurd none List.not_mem_nil⟩
    rw [sendRest, dif_neg more]
    rfl
  | case3 bs left line more time e elapsed line' made =>
    have answered : noted offer (line, past) bs left =
        (⟨.failed e, elapsed⟩, line', ⟨bs, left, .failed e, elapsed⟩ :: past) := by
      rw [noted, made]
    refine ⟨[⟨bs, left, .failed e, elapsed⟩], ?_, rfl, rfl,
      .failed e elapsed more (Nat.pos_of_ne_zero time), ?_⟩
    · rw [sendRest, dif_neg more, if_neg time, answered]
      rfl
    · intro o member
      cases List.mem_singleton.1 member
      exact ⟨line, congrArg Prod.fst made⟩
  | case4 bs left line more time elapsed line' made =>
    have answered : noted offer (line, past) bs left =
        (⟨.accepted 0, elapsed⟩, line', ⟨bs, left, .accepted 0, elapsed⟩ :: past) := by
      rw [noted, made]
    refine ⟨[⟨bs, left, .accepted 0, elapsed⟩], ?_, rfl, rfl,
      .refused elapsed more (Nat.pos_of_ne_zero time), ?_⟩
    · rw [sendRest, dif_neg more, if_neg time, answered]
      rfl
    · intro o member
      cases List.mem_singleton.1 member
      exact ⟨line, congrArg Prod.fst made⟩
  | case5 bs left line more time n elapsed line' made rest ih =>
    have answered : noted offer (line, past) bs left =
        (⟨.accepted (n + 1), elapsed⟩, line', ⟨bs, left, .accepted (n + 1), elapsed⟩ :: past) := by
      rw [noted, made]
    obtain ⟨later, run, attempts, took, passage, asked⟩ :=
      ih (⟨bs, left, .accepted (n + 1), elapsed⟩ :: past)
    refine ⟨⟨bs, left, .accepted (n + 1), elapsed⟩ :: later, ?_, ?_, ?_,
      .took n elapsed more (Nat.pos_of_ne_zero time) passage, ?_⟩
    · rw [sendRest, dif_neg more, if_neg time, answered]
      simp only [run]
      rw [List.reverse_cons, List.append_assoc]
      rfl
    · exact congrArg _ attempts
    · exact congrArg (elapsed + ·) took
    · intro o member
      rcases List.mem_cons.1 member with rfl | member
      · exact ⟨line, congrArg Prod.fst made⟩
      · exact asked o member

theorem taken_attempts (whole : Bytes) (offers : List Offer) :
    (offers.map (Offer.attempt whole)).flatMap Attempt.taken = takenOf offers := by
  rw [List.flatMap_map]
  rfl

namespace Passage

/-- Each offer is of what the ones before left over, in the time that they left over, and sending
goes on only after octets were taken. -/
theorem of_split (h : Passage bs left r offers) {before after : List Offer} {o : Offer}
    (split : offers = before ++ o :: after) :
    takenOf before ++ o.octets = bs ∧ 0 < o.bound ∧ spent before + o.bound = left ∧
      (o.answer.outcome = .accepted 0 → after = [] ∧ r = .error .closed) ∧
      ∀ e, o.answer.outcome = .failed e → after = [] ∧ r = .error e := by
  induction h generalizing before with
  | done | late => simp at split
  | failed e elapsed more time =>
    rcases List.cons_eq_append_iff.1 split with ⟨rfl, first⟩ | ⟨_, _, none⟩
    · cases first
      exact ⟨rfl, time, Nat.zero_add _, nofun, fun _ same => by cases same; exact ⟨rfl, rfl⟩⟩
    · simp at none
  | refused elapsed more time =>
    rcases List.cons_eq_append_iff.1 split with ⟨rfl, first⟩ | ⟨_, _, none⟩
    · cases first
      exact ⟨rfl, time, Nat.zero_add _, fun _ => ⟨rfl, rfl⟩, nofun⟩
    · simp at none
  | @took bs left r later n elapsed more time passage ih =>
    rcases List.cons_eq_append_iff.1 split with ⟨rfl, first⟩ | ⟨before, rfl, later⟩
    · cases first
      exact ⟨rfl, time, Nat.zero_add _, nofun, nofun⟩
    · obtain ⟨rest, some, onTime, ends⟩ := ih later
      refine ⟨?_, some, ?_, ends⟩
      · change (bs.take (n + 1) ++ takenOf before) ++ o.octets = bs
        rw [List.append_assoc, rest, List.take_append_drop]
      · change elapsed + spent before + o.bound = left
        omega

/-- Sending fails only as an offer did, because nothing was taken of one, or when the time for
it is used up. -/
theorem reason (h : Passage bs left r offers) {e : Error} (ill : r = .error e) :
    (∃ o ∈ offers, o.answer.outcome = .failed e) ∨
      e = .closed ∧ (∃ o ∈ offers, o.answer.outcome = .accepted 0) ∨
      e = .timeout ∧ left ≤ spent offers := by
  induction h with
  | done => cases ill
  | late =>
    cases ill
    exact Or.inr (Or.inr ⟨rfl, Nat.zero_le _⟩)
  | failed e elapsed =>
    cases ill
    exact Or.inl ⟨_, List.mem_singleton_self _, rfl⟩
  | refused elapsed =>
    cases ill
    exact Or.inr (Or.inl ⟨rfl, _, List.mem_singleton_self _, rfl⟩)
  | @took bs left r later n elapsed more time passage ih =>
    rcases ih ill with ⟨o, member, failed⟩ | ⟨same, o, member, none⟩ | ⟨same, late⟩
    · exact Or.inl ⟨o, List.mem_cons_of_mem _ member, failed⟩
    · exact Or.inr (Or.inl ⟨same, o, List.mem_cons_of_mem _ member, none⟩)
    · refine Or.inr (Or.inr ⟨same, ?_⟩)
      change left ≤ elapsed + spent later
      omega

/-- Each offer but the last takes an octet, and the last is not of nothing. -/
theorem length_le (h : Passage bs left r offers) : offers.length ≤ bs.length := by
  induction h with
  | done | late => exact Nat.zero_le _
  | failed _ _ more | refused _ more => exact List.length_pos_iff.2 more
  | @took bs left r later n elapsed more time passage ih =>
    have length := List.length_pos_iff.2 more
    rw [List.length_drop] at ih
    rw [List.length_cons]
    omega

end Passage

/-- What becomes of a packet that is sent with a time to do it in, of which `lag` passes before
the first offer. -/
structure Delivery (bs : Bytes) (timeout lag : Nat) (r : Except Error Unit)
    (offers : List Offer) : Prop where
  /-- The octets taken are the packet, or a part of it from the front. -/
  inOrder : takenOf offers <+: bs
  whole : r = .ok () ↔ takenOf offers = bs
  /-- Each offer is of all that was not yet taken. -/
  rest : ∀ before o after, offers = before ++ o :: after → takenOf before ++ o.octets = bs
  /-- Each offer may take the time that remains, which is some. -/
  inTime : ∀ before o after, offers = before ++ o :: after →
    0 < o.bound ∧ lag + spent before + o.bound = timeout
  /-- No answer goes past the end of its offer. -/
  inside : ∀ o ∈ offers, ∀ count, o.answer.outcome = .accepted count → count ≤ o.octets.length
  /-- Where nothing is taken, the transport is held to be closed. -/
  closed : ∀ o ∈ offers, o.answer.outcome = .accepted 0 → r = .error .closed
  /-- Where the transport fails, so does sending, in the same way. -/
  failed : ∀ o ∈ offers, ∀ e, o.answer.outcome = .failed e → r = .error e
  /-- Sending fails for no other reason but that the time is used up. -/
  reason : ∀ e, r = .error e → (∃ o ∈ offers, o.answer.outcome = .failed e) ∨
    e = .closed ∧ (∃ o ∈ offers, o.answer.outcome = .accepted 0) ∨
    e = .timeout ∧ timeout ≤ lag + spent offers ∧ takenOf offers ≠ bs
  few : offers.length ≤ bs.length

/-- **Sending a packet.**  A transport takes no more than it is offered, and time passes as it
likes before, between and during the offers.  Each offer is of exactly what was not yet taken, and
may take the time that remains.  The pieces taken make up the packet exactly when sending ends
well, and a part of it from the front when it does not.  Sending ends ill as an offer does, as
closed where nothing was taken of one, or with a timeout when the time is used up with octets
left.  There are no more offers than octets. -/
theorem sendAll_delivers (offer : σ → Bytes → Nat → Answer × σ) (fair : Fair offer) (bs : Bytes)
    (timeout lag : Nat) (line : σ) :
    let sent := sendAll offer bs (timeout - lag) line
    ∃ offers : List Offer,
      sendAll (noted offer) bs (timeout - lag) (line, []) =
        { sent with line := (sent.line, offers.reverse) } ∧
      sent.attempts = offers.map (Offer.attempt bs) ∧
      sent.elapsed = spent offers ∧
      (∀ o ∈ offers, ∃ before, (offer before o.octets o.bound).1 = o.answer) ∧
      Delivery bs timeout lag sent.result offers := by
  intro sent
  obtain ⟨offers, run, attempts, took, passage, asked⟩ :=
    sendRest_noted offer bs bs (timeout - lag) line []
  rw [List.append_nil] at run
  have taken := (sendAll_course offer bs (timeout - lag) line).taken
  have pieces : (sendAll offer bs (timeout - lag) line).attempts.flatMap Attempt.taken =
      takenOf offers := by
    rw [← taken_attempts bs offers]
    exact congrArg (List.flatMap Attempt.taken) attempts
  rw [pieces] at taken
  have whole : sent.result = .ok () ↔ takenOf offers = bs := by
    rcases taken with ⟨well, all⟩ | ⟨⟨e, ill⟩, -, short⟩
    · exact iff_of_true well all
    · refine iff_of_false ?_ short
      intro well
      cases ill.symm.trans well
  refine ⟨offers, run, attempts, took, asked, ?_, whole, ?_, ?_, ?_, ?_, ?_, ?_,
    passage.length_le⟩
  · rcases taken with ⟨-, all⟩ | ⟨-, part, -⟩
    · exact all ▸ List.prefix_rfl
    · exact part
  · intro before o after split
    exact (passage.of_split split).1
  · intro before o after split
    obtain ⟨-, some, onTime, -⟩ := passage.of_split split
    exact ⟨some, by omega⟩
  · intro o member count accepted
    obtain ⟨before, answered⟩ := asked o member
    exact fair before o.octets o.bound count (answered ▸ accepted)
  · intro o member none
    obtain ⟨before, after, split⟩ := List.append_of_mem member
    exact ((passage.of_split split).2.2.2.1 none).2
  · intro o member e failed
    obtain ⟨before, after, split⟩ := List.append_of_mem member
    exact ((passage.of_split split).2.2.2.2 e failed).2
  · intro e ill
    rcases passage.reason ill with failed | closed | ⟨same, late⟩
    · exact Or.inl failed
    · exact Or.inr (Or.inl closed)
    · refine Or.inr (Or.inr ⟨same, by omega, fun all => ?_⟩)
      cases ill.symm.trans (whole.2 all)

theorem le_of_answer {taking : Taking} {bs : Bytes} {time count : Nat}
    (accepted : (taking.answer bs time).outcome = .accepted count) : count ≤ bs.length := by
  cases taking with
  | all =>
    cases accepted
    exact Nat.le_refl _
  | atMost | slowly =>
    cases accepted
    exact List.length_take_le' _ _
  | fail => cases accepted

/-- A simulated transport takes no more than it is offered. -/
theorem fair_takings : Fair Takings.offer := by
  intro line bs bound count accepted
  unfold Takings.offer at accepted
  split at accepted
  · exact le_of_answer accepted
  · exact le_of_answer accepted

/-- Of seven octets a transport takes three at once, then lets all the time pass and takes two
more: after two offers sending ends with a timeout, and the last two octets are not sent. -/
theorem sendAll_delivers_slowly :
    ∃ offers, Delivery [1, 2, 3, 4, 5, 6, 7] 1000 400 (.error .timeout) offers ∧
      offers.length = 2 ∧ takenOf offers = [1, 2, 3, 4, 5] ∧ spent offers = 600 := by
  obtain ⟨offers, -, attempts, took, -, delivery⟩ := sendAll_delivers Takings.offer fair_takings
    [1, 2, 3, 4, 5, 6, 7] 1000 400 ⟨[.atMost 3, .slowly 2], .all⟩
  have sent : sendAll Takings.offer [1, 2, 3, 4, 5, 6, 7] (1000 - 400)
      ⟨[.atMost 3, .slowly 2], .all⟩ =
      ⟨.error .timeout,
        [⟨[1, 2, 3, 4, 5, 6, 7], [1, 2, 3, 4, 5, 6, 7], .accepted 3⟩,
          ⟨[1, 2, 3, 4, 5, 6, 7], [4, 5, 6, 7], .accepted 2⟩], 600, ⟨[], .all⟩⟩ := by
    simp [sendAll, sendRest, Takings.offer, Taking.answer]
  rw [sent] at attempts took delivery
  refine ⟨offers, delivery, ?_, ?_, took.symm⟩
  · rw [← List.length_map (f := Offer.attempt [1, 2, 3, 4, 5, 6, 7]), ← attempts]
    rfl
  · rw [← taken_attempts [1, 2, 3, 4, 5, 6, 7], ← attempts]
    rfl

end Mqtt.Transport
