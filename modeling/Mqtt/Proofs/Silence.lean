import Mqtt.Proofs.Accounts
import Mqtt.Proofs.Staging

/-!
# Silence after a transaction was given up

A transaction that the application gives up is gone, and what is gone is neither sent again
nor told of until its identifier is given to another one (`Reachable.silenced`).  The client
and the broker choose identifiers apart from each other, so a transaction is named by its
side and its identifier.  Only what a look at the transactions had picked before is still
carried out when a callback gives up a transaction while the look is under way
(`Act.scan_ofLook`).
-/

namespace Mqtt

/-! ## What is said of a transaction -/

/-- Whether an event says that a transaction is unanswered or what became of it; to be given
up is no outcome. -/
def Event.voices (own : Bool) (id : UInt16) : Event → Bool
  | .resent kind i _ | .retryWarning kind i _ => kind.isLocal == own && i == id
  | .published _ _ i | .subscribed _ _ i | .subscribeFailed _ i | .unsubscribed _ i
  | .unsubscribeFailed _ i => own && i == id
  | _ => false

/-- Whether a packet is one that a transaction sends again: the client's own PUBLISH with its
mark, or its answer in the middle of a handshake. -/
def Inbound.repeats (own : Bool) (id : UInt16) (p : Inbound) : Bool :=
  if own then
    (p.publish?.any fun m => m.dup && m.packetId == some id) || p.ack? .pubRel == some id
  else p.ack? .pubRec == some id

/-- Whether octets are such a packet. -/
def Packet.repeats (own : Bool) (id : UInt16) (packet : Bytes) : Bool :=
  (Packet.parse? packet).any (·.repeats own id)

namespace Entry

/-- Whether an entry is of a transaction that is sent again, or tells of it. -/
def voices (own : Bool) (id : UInt16) : Entry → Bool
  | .sent a => Packet.repeats own id a.whole
  | .raised e _ _ => e.voices own id
  | _ => false

/-- Whether an identifier is given to a new transaction: by the offer that completes the
packet of a request of the client, or by a message of the broker at the highest guarantee that is
handed on. -/
def allots (own : Bool) (id : UInt16) (e : Entry) : Bool :=
  if own then (e.opens? id).isSome || e.asks?.any (·.2.1 == id) else e.hands id

/-- Whether the application gave up a transaction. -/
def givesUp (own : Bool) (id : UInt16) : Entry → Bool
  | .raised (.discarded kind i _) _ _ => kind.isLocal == own && i == id
  | _ => false

/-- Whether a log, the latest first, says that a transaction was given up and its identifier
not given to another one since. -/
def hushed (own : Bool) (id : UInt16) : List Entry → Bool
  | [] => false
  | e :: earlier => e.givesUp own id || !e.allots own id && hushed own id earlier

/-- Whether entries, the latest first, are silent about a transaction until its identifier is
given to another one. -/
def quiet (own : Bool) (id : UInt16) : List Entry → Bool
  | [] => true
  | e :: earlier => (!e.voices own id || earlier.any (·.allots own id)) && quiet own id earlier

end Entry

/-- Whether no transaction of a side has an identifier. -/
def Pending.Lacks (own : Bool) (id : UInt16) (p : Pending) : Prop :=
  ∀ t ∈ p.all, t.awaits.isLocal = own → t.packetId ≠ id

/-- Whether all that a log has more than another is silent about a transaction, until its
identifier is given to another one. -/
def SilentSince (own : Bool) (id : UInt16) (log log' : List Entry) : Prop :=
  ∃ new, log' = new ++ log ∧ Entry.quiet own id new = true

/-- What comes of an action that a look asked for. -/
inductive Action.Yields : Action → Entry → Prop
  | sent {kind : AckKind} {id : UInt16} {retries : UInt32} (a : Transport.Attempt) :
    Yields (.resend kind id retries a.whole) (.sent a)
  | resent {kind : AckKind} {id : UInt16} {retries : UInt32} {packet : Bytes} (client : Client)
    (told : Bool) :
    Yields (.resend kind id retries packet) (.raised (.resent kind id retries) client told)
  | warned {kind : AckKind} {id : UInt16} {retries : UInt32} (client : Client) (told : Bool) :
    Yields (.warn kind id retries) (.raised (.retryWarning kind id retries) client told)
  | subscribeFailed {t : Transaction} (topic : String) (client : Client) (told : Bool) :
    t.awaits = .subAck →
    Yields (.expire t) (.raised (.subscribeFailed topic t.packetId) client told)
  | unsubscribeFailed {t : Transaction} (topic : String) (client : Client) (told : Bool) :
    t.awaits ≠ .subAck →
    Yields (.expire t) (.raised (.unsubscribeFailed topic t.packetId) client told)

/-- Whether an entry can come from a look that asks for some actions: it is of a callback, or of
one of the actions. -/
def Entry.OfLook (picked : List Action) (e : Entry) : Prop :=
  e.OfCall ∨ ∃ action ∈ picked, action.Yields e

/-! ## Packets -/

section Packets

variable {own : Bool} {id i : UInt16} {packet : Bytes}

theorem Packet.repeats_of_parse {q : Inbound} (whole : Packet.parse? packet = some q) :
    Packet.repeats own id packet = q.repeats own id := by
  rw [repeats, whole, Option.any_some]

theorem Packet.repeats_eq_false {q : Inbound} (whole : Packet.parse? packet = some q)
    (other : q.kind ∉ Packet.Kind.resent) : Packet.repeats own id packet = false := by
  simp only [Packet.Kind.resent, List.mem_cons, List.not_mem_nil, or_false, not_or] at other
  obtain ⟨publish, pubRec, pubRel⟩ := other
  rw [repeats_of_parse whole]
  simp [Inbound.repeats, Inbound.publish?, Inbound.ack?, publish, pubRec, pubRel]

/-- A message is sent again under its own identifier only, and with its mark. -/
theorem Packet.of_repeats_put {m : Packet.Publish} (written : Packet.encode m.put = .ok packet)
    (repeats : Packet.repeats own id packet = true) :
    own = true ∧ m.dup = true ∧ m.packetId = some id := by
  obtain ⟨sent, flags, body, carried, whole, decoded⟩ := Packet.Publish.parse?_put written
  rw [repeats_of_parse whole] at repeats
  cases own with
  | false => cases repeats
  | true =>
    have read : (⟨.publish, flags, body⟩ : Inbound).publish? =
        some { m with packetId := sent } := by
      rw [Inbound.publish?, if_pos rfl, decoded]
      rfl
    simp only [Inbound.repeats, read, Inbound.ack?, if_true, Option.any_some, reduceCtorEq,
      if_false, Bool.or_eq_true, Bool.and_eq_true, beq_iff_eq, or_false] at repeats
    refine ⟨rfl, repeats.1, ?_⟩
    rcases Packet.Publish.sentId_cases carried with ⟨-, rfl⟩ | ⟨i, -, given, rfl, -⟩
    · cases repeats.2
    · rw [given, repeats.2]

theorem Packet.repeats_pubRec (own : Bool) (id i : UInt16) :
    Packet.repeats own id (Packet.ack .pubRec i) = (!own && i == id) := by
  rw [repeats_of_parse (Packet.parse?_ack _ _)]
  cases own <;> simp [Inbound.repeats, Inbound.publish?, Inbound.ack?, Except.toOption]

theorem Packet.repeats_pubRel (own : Bool) (id i : UInt16) :
    Packet.repeats own id (Packet.ack .pubRel i) = (own && i == id) := by
  rw [repeats_of_parse (Packet.parse?_ack _ _)]
  cases own <;> simp [Inbound.repeats, Inbound.publish?, Inbound.ack?, Except.toOption]

/-- What a call sends is new. -/
theorem Requested.unrepeated (requested : Requested packet) :
    Packet.repeats own id packet = false := by
  have fresh {m : Packet.Publish} (written : Packet.encode m.put = .ok packet)
      (new : m.dup = false) : Packet.repeats own id packet = false := by
    apply Bool.eq_false_iff.2
    intro repeats
    have marked := (Packet.of_repeats_put written repeats).2.1
    rw [new] at marked
    cases marked
  cases requested with
  | request issued written =>
    cases issued with
    | subscribe =>
      obtain ⟨body, whole⟩ := Packet.Subscribe.parse?_put written
      exact Packet.repeats_eq_false whole (by simp [Packet.Kind.resent])
    | unsubscribe =>
      obtain ⟨body, whole⟩ := Packet.Unsubscribe.parse?_put written
      exact Packet.repeats_eq_false whole (by simp [Packet.Kind.resent])
    | atLeastOnce | exactlyOnce => exact fresh written rfl
  | message _ new written => exact fresh written new

theorem Parting.unrepeated (parting : Parting packet) : Packet.repeats own id packet = false := by
  cases parting with
  | connect written =>
    obtain ⟨body, whole⟩ := Packet.Connect.parse?_put written
    exact Packet.repeats_eq_false whole (by simp [Packet.Kind.resent])
  | disconnect => exact Packet.repeats_eq_false Packet.parse?_disconnect (by decide)
  | pingReq => exact Packet.repeats_eq_false Packet.parse?_pingReq (by decide)

/-- What is sent again is a repeat of the transaction that it is kept for. -/
theorem Resendable.of_repeats {kind : AckKind} (resendable : Resendable i kind packet)
    (repeats : Packet.repeats own id packet = true) : kind.isLocal = own ∧ i = id := by
  cases resendable with
  | pubAck written _ _ given | pubRec written _ _ given =>
    obtain ⟨rfl, -, carried⟩ := Packet.of_repeats_put written repeats
    exact ⟨rfl, Option.some.inj (given.symm.trans carried)⟩
  | pubRel =>
    rw [Packet.repeats_pubRec] at repeats
    simp_all [AckKind.isLocal]
  | pubComp =>
    rw [Packet.repeats_pubRel] at repeats
    simp_all [AckKind.isLocal]

end Packets

/-! ## Transactions -/

namespace Pending.Lacks

variable {own : Bool} {id : UInt16} {p q : Pending}

theorem of_subset (h : p.Lacks own id) (fewer : q.all ⊆ p.all) : q.Lacks own id :=
  fun t member => h t (fewer member)

theorem insert (h : p.Lacks own id) {t : Transaction}
    (apart : t.awaits.isLocal = own → t.packetId ≠ id) : (p.insert t).2.Lacks own id := by
  intro u member
  rcases mem_of_mem_insert member with old | rfl
  · exact h u old
  · exact apart

theorem stage (h : p.Lacks own id) {t : Transaction}
    (apart : t.awaits.isLocal = own → t.packetId ≠ id) : (p.stage t).Lacks own id := by
  intro u member
  rcases List.mem_cons.1 ((stage_perm p t).subset member) with rfl | old
  · exact apart
  · exact h u old

theorem migrate (h : p.Lacks own id) : p.migrate.2.Lacks own id :=
  h.of_subset fun _ => mem_of_mem_migrate

theorem take (h : p.Lacks own id) (kind : AckKind) (i : UInt16) :
    (p.take kind i).2.Lacks own id :=
  h.of_subset (take_all_sublist p kind i).subset

theorem scan (h : p.Lacks own id) (now limit : UInt32) (force : Bool) :
    (p.scan now limit force).2.Lacks own id := by
  intro u member side
  rcases mem_all.1 member with active | staged
  · obtain ⟨t, active, looked⟩ := mem_scan_active.1 active
    obtain ⟨kind, same, -⟩ := Transaction.of_look_eq_some looked
    rw [same]
    exact h t (mem_all.2 (Or.inl active)) (kind ▸ side)
  · rw [scan_staged] at staged
    exact h u (mem_all.2 (Or.inr staged)) side

/-- What an acknowledgement takes is another transaction. -/
theorem apart_of_take (h : p.Lacks own id) {kind : AckKind} {i : UInt16} {t : Transaction}
    (taken : (p.take kind i).1 = some t) (side : kind.isLocal = own) : i ≠ id := by
  obtain ⟨member, rfl, rfl⟩ := of_take_eq_some taken
  exact h t (mem_all.2 (Or.inl member)) side

theorem take_eq_none (h : p.Lacks own id) {kind : AckKind} (side : kind.isLocal = own) :
    (p.take kind id).1 = none := by
  cases taken : (p.take kind id).1 with
  | none => rfl
  | some t => exact absurd rfl (h.apart_of_take taken side)

theorem contains (h : p.Lacks own id) {kind : AckKind} (side : kind.isLocal = own) :
    p.contains kind id = false := by
  rw [contains_eq_false_iff]
  intro t member
  apply Bool.eq_false_iff.2
  intro fits
  obtain ⟨same, rfl⟩ := Transaction.isFor_iff.1 fits
  exact h t (mem_all.2 (Or.inl member)) side same

/-- What is removed from distinct transactions is gone. -/
theorem of_remove (distinct : p.Distinct) {kind : AckKind} {t : Transaction}
    (removed : (p.remove kind id).1 = some t) (side : kind.isLocal = own) :
    (p.remove kind id).2.Lacks own id := by
  obtain ⟨-, rfl, rfl⟩ := of_remove_eq_some removed
  have apart := (List.pairwise_cons.1
    ((remove_perm removed).pairwise distinct.apart Transaction.Apart.symm)).1
  exact fun u left same => (apart u left (by rw [side, same])).symm

/-- Of the broker's side a message at the highest guarantee is not remembered. -/
theorem of_contains (distinct : p.Distinct) (absent : p.contains .pubRel id = false) :
    p.Lacks false id := by
  intro t member remote same
  have kind : t.awaits = .pubRel := by
    cases awaits : t.awaits <;> rw [awaits] at remote <;> first | rfl | cases remote
  rcases mem_all.1 member with active | staged
  · have unfit := contains_eq_false_iff.1 absent t active
    rw [Transaction.isFor_iff.2 ⟨same, kind⟩] at unfit
    cases unfit
  · rw [distinct.staged t staged] at remote
    cases remote

end Pending.Lacks

/-! ## Logs -/

section Logs

variable {own : Bool} {id : UInt16} {log new : List Entry}

theorem Entry.hushed_append (new : List Entry) (hushed : Entry.hushed own id (new ++ log) = true)
    (kept : ∀ e ∈ new, e.givesUp own id = false) :
    Entry.hushed own id log = true ∧ ∀ e ∈ new, e.allots own id = false := by
  induction new with
  | nil => exact ⟨hushed, fun _ none => by cases none⟩
  | cons e new ih =>
    rw [List.cons_append, Entry.hushed, kept e List.mem_cons_self, Bool.false_or,
      Bool.and_eq_true, Bool.not_eq_true'] at hushed
    obtain ⟨unused, others⟩ := ih hushed.2 fun x member => kept x (List.mem_cons_of_mem _ member)
    exact ⟨unused, List.forall_mem_cons.2 ⟨hushed.1, others⟩⟩

theorem Entry.quiet_of_voiceless (voiceless : ∀ e ∈ new, e.voices own id = false) :
    Entry.quiet own id new = true := by
  induction new with
  | nil => rfl
  | cons e new ih =>
    rw [quiet, voiceless e List.mem_cons_self, ih fun x member =>
      voiceless x (List.mem_cons_of_mem _ member)]
    rfl

theorem Entry.quiet_append {later : List Entry} (first : Entry.quiet own id new = true)
    (rest : new.any (·.allots own id) = true ∨ Entry.quiet own id later = true) :
    Entry.quiet own id (later ++ new) = true := by
  induction later with
  | nil => exact first
  | cons e later ih =>
    rw [List.cons_append, quiet, List.any_append, Bool.and_eq_true]
    rcases rest with allotted | quiet
    · exact ⟨by simp [allotted], ih (Or.inl allotted)⟩
    · rw [Entry.quiet, Bool.and_eq_true] at quiet
      refine ⟨?_, ih (Or.inr quiet.2)⟩
      rcases Bool.or_eq_true_iff.1 quiet.1 with voiceless | allotted
      · rw [voiceless, Bool.true_or]
      · simp [allotted]

end Logs

/-! ## Moves -/

section Moves

variable {σ : Type} {s s' s'' : System σ} {own : Bool} {id : UInt16}
  {hand : Option Inbound} {p : Inbound}

/-- Whether an identifier is given to a new transaction from one system to another. -/
def Reopens (own : Bool) (id : UInt16) (s s' : System σ) : Prop :=
  ∃ new, s'.log = new ++ s.log ∧ new.any (·.allots own id) = true

theorem Reopens.earlier (h : Reopens own id s' s'') (log : s.log <:+ s'.log) :
    Reopens own id s s'' := by
  obtain ⟨new, log', allots⟩ := h
  obtain ⟨old, log⟩ := log
  exact ⟨new ++ old, by rw [log', ← log, List.append_assoc], by rw [List.any_append, allots]; rfl⟩

theorem Reopens.later (h : Reopens own id s s') (log : s'.log <:+ s''.log) :
    Reopens own id s s'' := by
  obtain ⟨old, log', allots⟩ := h
  obtain ⟨new, log⟩ := log
  exact ⟨new ++ old, by rw [← log, log', List.append_assoc],
    by rw [List.any_append, allots, Bool.or_true]⟩

/-- Whether a transaction that is gone stays so from one system to another, unless its identifier
is given to another one. -/
structure Stays (own : Bool) (id : UInt16) (s s' : System σ) : Prop where
  later : s.log <:+ s'.log
  lacks : s'.client.pending.Lacks own id ∨ Reopens own id s s'

namespace Stays

theorem refl (lacks : s.client.pending.Lacks own id) : Stays own id s s :=
  ⟨List.suffix_refl _, Or.inl lacks⟩

theorem trans (h : Stays own id s s') (later : s'.log <:+ s''.log)
    (next : s'.client.pending.Lacks own id → Stays own id s' s'') : Stays own id s s'' := by
  refine ⟨h.later.trans later, ?_⟩
  rcases h.lacks with lacks | reopens
  · exact (next lacks).lacks.imp_right fun reopens => reopens.earlier h.later
  · exact Or.inr (reopens.later later)

end Stays

/-- Whether besides nothing is said of it before. -/
structure Hushes (own : Bool) (id : UInt16) (s s' : System σ) : Prop extends
    Stays own id s s' where
  silent : SilentSince own id s.log s'.log

namespace Hushes

theorem of_voiceless (writes : Writes (·.voices own id = false) s s') (stays : Stays own id s s') :
    Hushes own id s s' := by
  obtain ⟨new, log, voiceless⟩ := writes
  exact ⟨stays, new, log, Entry.quiet_of_voiceless voiceless⟩

theorem refl (lacks : s.client.pending.Lacks own id) : Hushes own id s s :=
  .of_voiceless (.of_log rfl) (.refl lacks)

/-- Once the identifier is given to another transaction nothing is asked any more. -/
theorem reopened (h : Hushes own id s s') (reopens : Reopens own id s s')
    (later : s'.log <:+ s''.log) : Hushes own id s s'' := by
  refine ⟨⟨h.later.trans later, Or.inr (reopens.later later)⟩, ?_⟩
  obtain ⟨new, log, quiet⟩ := h.silent
  obtain ⟨new', log', allots⟩ := reopens
  obtain rfl := List.append_cancel_right (log.symm.trans log')
  obtain ⟨newer, log''⟩ := later
  exact ⟨newer ++ new, by rw [← log'', log, List.append_assoc],
    Entry.quiet_append quiet (Or.inl allots)⟩

theorem trans (h : Hushes own id s s') (later : s'.log <:+ s''.log)
    (next : s'.client.pending.Lacks own id → Hushes own id s' s'') : Hushes own id s s'' := by
  rcases h.lacks with lacks | reopens
  · refine ⟨h.toStays.trans later fun lacks => (next lacks).toStays, ?_⟩
    obtain ⟨new, log, quiet⟩ := h.silent
    obtain ⟨newer, log', quiet'⟩ := (next lacks).silent
    exact ⟨newer ++ new, by rw [log', log, List.append_assoc],
      Entry.quiet_append quiet (Or.inr quiet')⟩
  · exact h.reopened reopens later

end Hushes

variable [Environment σ]

/-- The packet of a request allots the identifier when it is sent. -/
theorem System.afterSend_reopens {r : Act.Request} {packet : Bytes} (issued : r.Issued)
    (written : Packet.encode (r.packet id) = .ok packet) (sent : s.sendResult packet = .ok ()) :
    Reopens true id s (s.afterSend packet) := by
  have allots {q : Inbound} (whole : Packet.parse? packet = some q)
      (new : (q.opens? id).isSome = true ∨ q.asks?.any (·.2.1 == id) = true) :
      Reopens true id s (s.afterSend packet) := by
    obtain ⟨offers, -, ⟨⟨e, failed⟩, -⟩ | ⟨-, last, same, full, log⟩⟩ :=
      s.afterSend_cases (Packet.ne_nil_of_parse? whole)
    · cases sent.symm.trans failed
    · have allots : (Entry.sent last).allots true id = true := by
        simpa [Entry.allots, Entry.opens?, Entry.asks?, full, same, whole] using new
      exact ⟨.sent last :: offers, log, by rw [List.any_cons, allots, Bool.true_or]⟩
  obtain ⟨q, whole, ⟨-, -, asks⟩ | ⟨message, -, -⟩⟩ := issued.asks written
  · exact allots whole (Or.inr (by rw [asks]; simp))
  · obtain ⟨q, whole, ⟨request, -⟩ | ⟨m, -, opened, -⟩⟩ := issued.opens written
    · exact absurd (request.symm.trans message) Bool.noConfusion
    · exact allots whole (Or.inl (by rw [opened]; rfl))

/-- A call makes no transaction under an identifier but by the packet that allots it. -/
theorem CallMove.lacks (move : CallMove s s') (h : s.client.pending.Lacks own id) :
    s'.client.pending.Lacks own id ∨ own = true ∧ Reopens own id s s' := by
  cases move with
  | @requested r i packet began issued _ _ _ written sent =>
    by_cases same : own = true ∧ i = id
    · obtain ⟨rfl, rfl⟩ := same
      right
      refine ⟨rfl, System.afterSend_reopens issued written ?_⟩
      rw [System.sendResult_change]
      · exact sent
      · rfl
      · rfl
    · left
      rw [System.afterSend_client, Client.pass_pending]
      exact h.stage fun side given => same ⟨side.symm.trans issued.isLocal, given⟩
  | discarded removed => exact Or.inl (h.of_subset (Pending.remove_all_sublist _ _ _).subset)
  | released => exact Or.inl fun t member => by cases member
  | refused | sent => left; simpa [Client.passOver] using h
  | undone => exact Or.inl h
  | _ => exact Or.inl h

theorem CallMove.stays (move : CallMove s s') (h : s.client.pending.Lacks own id) :
    Stays own id s s' :=
  ⟨move.entries.suffix, (move.lacks h).imp_right (·.2)⟩

theorem Calls.stays (calls : Calls s s') (h : s.client.pending.Lacks own id) :
    Stays own id s s' := by
  induction calls with
  | refl => exact .refl h
  | tail _ move ih => exact ih.trans move.entries.suffix move.stays

omit [Environment σ] in
theorem Entry.OfCall.voiceless {e : Entry} (ofCall : e.OfCall) : e.voices own id = false := by
  cases e with
  | sent a => exact Requested.unrepeated ofCall
  | raised event client told => cases event <;> first | rfl | cases ofCall
  | _ => rfl

theorem CallMove.voiceless (move : CallMove s s') : Writes (·.voices own id = false) s s' :=
  move.entries.imp fun _ => Entry.OfCall.voiceless

/-- Only a transaction that there is can be given up, and then it is gone. -/
theorem CallMove.givesUp (move : CallMove s s') (distinct : s.client.pending.Distinct) :
    Writes (·.givesUp own id = false) s s' ∨
      ¬ s.client.pending.Lacks own id ∧ s'.client.pending.Lacks own id := by
  have unraised (quiet : Unraised s s') : Writes (·.givesUp own id = false) s s' :=
    quiet.writes.imp fun e unraised => by
      cases e <;> first | rfl | exact absurd trivial unraised
  cases move with
  | @discarded kind i t removed =>
    by_cases own' : kind.isLocal = own ∧ i = id
    · obtain ⟨side, rfl⟩ := own'
      obtain ⟨member, same, rfl⟩ := Pending.of_remove_eq_some removed
      exact Or.inr ⟨fun lacks => lacks t member side same, .of_remove distinct removed side⟩
    · refine Or.inl (.of_entry rfl (Bool.eq_false_iff.2 fun given => own' ?_))
      simpa [Entry.givesUp] using given
  | undone => exact Or.inl (.of_entry rfl rfl)
  | remarked e remark =>
    exact Or.inl (.of_entry rfl (by cases e <;> first | rfl | cases remark))
  | released => exact Or.inl (unraised (.close s))
  | requested | refused | sent => exact Or.inl (unraised (.afterSend _ _))
  | _ => exact Or.inl (.of_log rfl)

/-- The thread makes no transaction under an identifier but for a message of the broker. -/
theorem TurnMove.stays (move : TurnMove hand s s')
    (unopened : own = false → ∀ p ∈ hand, p.opensFlow id = false)
    (h : s.client.pending.Lacks own id) : Stays own id s s' := by
  refine ⟨suffix_of_raises move.raises, ?_⟩
  have sent (bs : Bytes) : (s.afterSend bs).client.pending.Lacks own id := by
    simpa using h
  cases move with
  | call move => exact (move.lacks h).imp_right (·.2)
  | @remembered _ q m i began read level given absent =>
    refine Or.inl (h.insert fun side same => ?_)
    have opens : q.opensFlow i = true := Inbound.opensFlow_iff.2 ⟨m, read, level, given⟩
    obtain rfl : i = id := same
    rw [unopened side.symm q rfl] at opens
    cases opens
  | forgotten | answered | completed => exact Or.inl (h.take _ _)
  | advanced _ _ _ taken =>
    exact Or.inl ((h.take _ _).insert fun side => h.apart_of_take taken side)
  | migrated => exact Or.inl h.migrate
  | scanned => exact Or.inl (h.scan _ _ _)
  | replied | resent | pinged => exact Or.inl (sent _)
  | _ => exact Or.inl h

theorem ThreadMove.stays (move : ThreadMove s s') (h : s.client.pending.Lacks own id) :
    Stays own id s s' := by
  refine ⟨suffix_of_raises move.raises, ?_⟩
  cases move with
  | turn busy move => exact (move.turn.stays (fun _ _ none => by cases none) h).lacks
  | readEnded | greeted => exact Or.inl h.migrate
  | left => exact Or.inl fun t member => by cases member
  | dialled | saluted | parted | closed => left; simpa using h
  | _ => exact Or.inl h

/-- Only a call gives up a transaction. -/
theorem TurnMove.givesUp (move : TurnMove hand s s') (distinct : s.client.pending.Distinct) :
    Writes (·.givesUp own id = false) s s' ∨
      ¬ s.client.pending.Lacks own id ∧ s'.client.pending.Lacks own id := by
  cases move with
  | call move => exact move.givesUp distinct
  | @told _ _ e plain =>
    exact Or.inl (.of_entry rfl (by cases e <;> first | rfl | cases plain))
  | delivered _ _ which =>
    exact Or.inl (.of_entry rfl (by rcases which with rfl | rfl <;> rfl))
  | completed => exact Or.inl (.of_entry rfl rfl)
  | replied | resent | pinged => exact Or.inl (.afterSend _ fun _ _ => rfl)
  | _ => exact Or.inl (.of_log rfl)

theorem ThreadMove.givesUp (move : ThreadMove s s') (distinct : s.client.pending.Distinct) :
    Writes (·.givesUp own id = false) s s' ∨
      ¬ s.client.pending.Lacks own id ∧ s'.client.pending.Lacks own id := by
  rcases move.tells with quiet | ⟨-, move⟩
  · refine Or.inl (quiet.writes.imp fun e unraised => ?_)
    cases e <;> first | rfl | exact absurd trivial unraised
  · exact move.turn.givesUp distinct

theorem Event.voiceless {e : Event} (plain : e.IsPlain) (settled : e.isOutcome = false)
    (first : e.isRetry = false) : e.voices own id = false := by
  cases e <;> first
    | rfl
    | exact absurd plain (fun none => none)
    | exact absurd settled Bool.noConfusion
    | exact absurd first Bool.noConfusion

/-- Sending anything but a repeat is silent. -/
theorem System.afterSend_voiceless {packet : Bytes} (new : Packet.repeats own id packet = false) :
    Writes (·.voices own id = false) s (s.afterSend packet) :=
  .afterSend s fun a whole => by rw [Entry.voices, whole, new]

/-- Where the thread has no packet in hand it only tells of transactions by a look. -/
theorem QuietMove.voiceless (move : QuietMove s s') : Writes (·.voices own id = false) s s' := by
  cases move with
  | call move => exact move.voiceless
  | told plain settled first => exact .of_entry rfl (Event.voiceless plain settled first)
  | pinged => exact System.afterSend_voiceless Parting.pingReq.unrepeated
  | _ => exact .of_log rfl

theorem ThreadMove.voiceless (move : ThreadMove s s') :
    Writes (·.voices own id = false) s s' := by
  cases move with
  | turn busy move => exact move.voiceless
  | obeyed | opened | greeted => exact .of_entry rfl rfl
  | dialled => exact .trans (.close s rfl) (.of_entry rfl rfl)
  | saluted _ _ _ _ _ written =>
    exact System.afterSend_voiceless (Parting.connect written).unrepeated
  | parted _ parting =>
    exact .trans (System.afterSend_voiceless parting.unrepeated) (.close _ rfl)
  | closed | left => exact .close s rfl
  | _ => exact .of_log rfl

omit [Environment σ] in
/-- A reply is a repeat only for the packet that its transaction is about. -/
theorem Owed.unrepeated {packet : Bytes} (owed : Owed p s packet)
    (unanswered : own = true → p.ack? .pubRec ≠ some id)
    (unopened : own = false → p.opensFlow id = false) : Packet.repeats own id packet = false := by
  cases owed with
  | pubAck => exact Packet.repeats_eq_false (Packet.parse?_ack _ _) (by simp [Packet.Kind.resent])
  | pubComp => exact Packet.repeats_eq_false (Packet.parse?_ack _ _) (by simp [Packet.Kind.resent])
  | @pubRec m i read level given =>
    rw [Packet.repeats_pubRec]
    apply Bool.eq_false_iff.2
    intro same
    simp only [Bool.and_eq_true, Bool.not_eq_true', beq_iff_eq] at same
    obtain ⟨side, rfl⟩ := same
    have opens : p.opensFlow i = true := Inbound.opensFlow_iff.2 ⟨m, read, level, given⟩
    rw [unopened side] at opens
    cases opens
  | @pubRel i read =>
    rw [Packet.repeats_pubRel]
    apply Bool.eq_false_iff.2
    intro same
    simp only [Bool.and_eq_true, beq_iff_eq] at same
    exact unanswered same.1 (same.2 ▸ read)

/-- With a packet in hand that neither answers a request nor is of the transaction, a turn is
silent about what is gone. -/
theorem TurnMove.voiceless (move : TurnMove (some p) s s') (unasked : ¬ p.IsVerdict)
    (unanswered : own = true → p.ack? .pubRec ≠ some id)
    (unopened : own = false → p.opensFlow id = false) (h : s.client.pending.Lacks own id) :
    Writes (·.voices own id = false) s s' := by
  cases move with
  | call move => exact move.voiceless
  | told _ plain settled first =>
    refine .of_entry rfl (Event.voiceless plain ?_ ?_)
    · exact Bool.eq_false_iff.2 fun outcome => unasked (settled outcome p rfl)
    · exact Bool.eq_false_iff.2 fun retry => Option.some_ne_none p (first retry)
  | delivered _ _ which => exact .of_entry rfl (by rcases which with rfl | rfl <;> rfl)
  | completed _ which _ taken =>
    refine .of_entry rfl (Bool.eq_false_iff.2 fun voices => ?_)
    simp only [Entry.voices, Event.voices, Bool.and_eq_true, beq_iff_eq] at voices
    obtain ⟨rfl, same⟩ := voices
    exact h.apart_of_take taken (by rcases which with rfl | rfl <;> rfl) same
  | replied _ owed => exact System.afterSend_voiceless (owed.unrepeated unanswered unopened)
  | _ => exact .of_log rfl

theorem Calls.voiceless (calls : Calls s s') : Writes (·.voices own id = false) s s' :=
  calls.entries.imp fun _ => Entry.OfCall.voiceless

/-! ## Looks -/

/-- What the thread picks to be done when it looks at the transactions. -/
def System.picked (s : System σ) (force : Bool) : List Action :=
  (s.client.pending.scan (Environment.now s.outside).1 s.client.config.retryWarning force).1

namespace Act

variable {picked : List Action} {action : Action}

theorem tell_ofLook {e : Event} (member : action ∈ picked)
    (yields : ∀ client told, action.Yields (.raised e client told)) :
    Ends (tell e) s fun _ s' => Writes (Entry.OfLook picked) s s' :=
  (tell_calls e).imp fun _ _ calls =>
    .trans (.of_entry rfl (Or.inr ⟨action, member, yields _ _⟩))
      (calls.entries.imp fun _ => Or.inl)

theorem expire_ofLook {t : Transaction} (member : .expire t ∈ picked) :
    Ends (expire t) s fun _ s' => Writes (Entry.OfLook picked) s s' := by
  unfold expire
  rw [ends_bind, ends_takeListed]
  refine forM_keep (fun subject _ s₁ written => ?_) (.of_log rfl)
  split
  next granted =>
    exact (tell_ofLook member fun client told => .subscribeFailed _ client told granted).imp
      fun _ _ told => written.trans told
  next dropped =>
    exact (tell_ofLook member fun client told => .unsubscribeFailed _ client told dropped).imp
      fun _ _ told => written.trans told

theorem carryActions_ofLook (actions : List Action) (failure : Option Error)
    (all : actions ⊆ picked) :
    Ends (carryActions failure actions) s fun _ s' => Writes (Entry.OfLook picked) s s' := by
  induction actions generalizing s failure with
  | nil => exact .of_log rfl
  | cons a rest ih =>
    obtain ⟨member, others⟩ := List.cons_subset.1 all
    have next {s₁ : System σ} (written : Writes (Entry.OfLook picked) s s₁)
        (failure : Option Error) :
        Ends (carryActions failure rest) s₁ fun _ s' => Writes (Entry.OfLook picked) s s' :=
      (ih failure others).imp fun _ _ later => written.trans later
    cases a with
    | warn kind id retries =>
      rw [carryActions, ends_bind]
      exact (tell_ofLook member .warned).imp fun _ _ told => next told failure
    | expire t =>
      rw [carryActions, ends_bind]
      exact (expire_ofLook member).imp fun _ _ expired => next expired failure
    | resend kind id retries packet =>
      cases failure with
      | some e => exact next (.of_log rfl) (some e)
      | none =>
        have sent : Writes (Entry.OfLook picked) s (s.afterSend packet) :=
          .afterSend s fun a whole => Or.inr ⟨_, member, whole ▸ .sent a⟩
        rw [carryActions, ends_bind, try_transmit]
        cases s.sendResult packet with
        | error e => exact next sent _
        | ok u =>
          dsimp only
          rw [ends_bind]
          exact (tell_ofLook member .resent).imp fun _ _ told => next (sent.trans told) none

/-- A look writes only what it picked before it began, and what callbacks do. -/
theorem scan_ofLook (force : Bool) :
    Ends (scan force) s fun _ s' => Writes (Entry.OfLook (s.picked force)) s s' := by
  unfold scan
  rw [ends_bind, ends_client, ends_bind, ends_now, ends_bind, ends_draw]
  exact (carryActions_ofLook _ none fun _ => id).imp fun _ _ carried =>
    .trans (.of_log rfl) carried

end Act

omit [Environment σ] in
/-- Only requests about filters expire. -/
theorem Transaction.of_look_expire {t u : Transaction} {now limit : UInt32} {force : Bool}
    (looked : (t.look now limit force).2 = some (.expire u)) :
    u = t ∧ t.awaits.isRequest = true := by
  unfold look at looked
  split at looked
  · cases looked
  · split at looked
    next request =>
      cases looked
      exact ⟨rfl, request⟩
    · dsimp only at looked
      split at looked <;> cases looked

omit [Environment σ] in
/-- What comes of an action is about the transaction that was looked at. -/
theorem Action.Yields.about {action : Action} {e : Entry} {t : Transaction} {now limit : UInt32}
    {force : Bool} (yields : action.Yields e) (sound : t.Sound)
    (looked : (t.look now limit force).2 = some action) (voices : e.voices own id = true) :
    t.awaits.isLocal = own ∧ t.packetId = id := by
  have about : action.about = (t.awaits, t.packetId) := Transaction.about_of_look looked
  cases yields with
  | sent a =>
    obtain ⟨kind, same⟩ := Prod.mk.inj about
    rw [← kind, ← same]
    exact (sound.resendable looked).of_repeats voices
  | resent | warned =>
    obtain ⟨kind, same⟩ := Prod.mk.inj about
    rw [← kind, ← same]
    simpa [Entry.voices, Event.voices] using voices
  | subscribeFailed | unsubscribeFailed =>
    obtain ⟨same, request⟩ := Transaction.of_look_expire looked
    have side : t.awaits.isLocal = true := AckKind.isLocal_of_isRequest request
    simp only [Entry.voices, Event.voices, same, Bool.and_eq_true, beq_iff_eq] at voices
    exact ⟨side.trans voices.1.symm, voices.2⟩

/-- A look is silent about what is gone when it begins. -/
theorem Act.scan_voiceless (force : Bool) (sane : s.client.pending.Sane)
    (h : s.client.pending.Lacks own id) :
    Ends (scan force) s fun _ s' => Writes (·.voices own id = false) s s' := by
  refine (scan_ofLook force).imp fun _ s' written => written.imp fun e ofLook => ?_
  rcases ofLook with ofCall | ⟨action, picked, yields⟩
  · exact ofCall.voiceless
  · obtain ⟨t, active, looked⟩ := Pending.mem_scan_actions.1 picked
    have member := Pending.mem_all.2 (Or.inl active)
    refine Bool.eq_false_iff.2 fun voices => ?_
    obtain ⟨side, same⟩ := yields.about (sane.sound t member) looked voices
    exact h t member side same

/-! ## Answers to requests -/

omit [Environment σ] in
theorem Petition.voiceless {q : Petition} (other : own = true → q.id ≠ id) (ending : Ending) :
    ∀ e ∈ q.verdicts ending, e.voices own id = false := by
  have apart : (own && q.id == id) = false :=
    Bool.eq_false_iff.2 fun same => by
      rw [Bool.and_eq_true, beq_iff_eq] at same
      exact other same.1 same.2
  have verdict (topic : String) (code : UInt8) : (q.verdict topic code).voices own id = false := by
    unfold Petition.verdict
    split <;> exact apart
  have failure (topic : String) : (q.failure topic).voices own id = false := by
    unfold Petition.failure
    split <;> exact apart
  intro e member
  unfold Petition.verdicts at member
  split at member
  · cases member
  · obtain ⟨filter, -, rfl⟩ := List.mem_map.1 member
    exact failure _
  · split at member
    · split at member
      · obtain ⟨answer, -, rfl⟩ := List.mem_map.1 member
        exact verdict _ _
      · obtain ⟨filter, -, rfl⟩ := List.mem_map.1 member
        exact apart
    · obtain ⟨filter, -, rfl⟩ := List.mem_map.1 member
      exact apart

theorem Tells.voiceless {events : List Event} (tells : Tells events s s')
    (others : ∀ e ∈ events, e.voices own id = false) : Writes (·.voices own id = false) s s' := by
  induction tells with
  | done => exact .of_log rfl
  | filed _ _ ih => exact .trans (.of_log rfl) (ih others)
  | told calls _ ih =>
    obtain ⟨first, rest⟩ := List.forall_mem_cons.1 others
    exact .trans (.of_entry (e := .raised _ _ _) rfl first) (calls.voiceless.trans (ih rest))

/-- An answer to a request is silent about what is gone. -/
theorem System.afterDispatch_voiceless (answers : p.IsVerdict)
    (h : s.client.pending.Lacks own id) :
    Writes (·.voices own id = false) s (s.afterDispatch p) := by
  cases verdict : p.verdict? with
  | none =>
    rw [System.afterDispatch, Act.dispatch_undecoded answers verdict]
    exact .of_log rfl
  | some answer =>
    obtain ⟨⟨kind, i⟩, codes⟩ := answer
    -- what is taken for the answer is another transaction, so all of its events are
    have others {t : Transaction} (side : kind.isLocal = true)
        (taken : (s.client.pending.take kind i).1 = some t) :
        ∀ e ∈ (s.client.petition kind i).verdicts (.answered codes), e.voices own id = false :=
      Petition.voiceless (fun own' => h.apart_of_take taken (own' ▸ side)) _
    rcases Act.dispatch_verdict (σ := σ) verdict with ⟨rfl, acts⟩ | ⟨rfl, acts⟩
    all_goals
      rw [System.afterDispatch, acts]
    · change Act.Ends (Act.onSubAck i codes) s fun _ s' => Writes (·.voices own id = false) s s'
      cases taken : (s.client.pending.take .subAck i).1 with
      | none =>
        unfold Act.onSubAck
        rw [Act.ends_bind, Act.ends_take, taken]
        exact .of_log rfl
      | some t =>
        exact (Act.onSubAck_tells taken).imp fun _ _ tells =>
          .trans (.of_log rfl) (tells.voiceless (others rfl taken))
    · change Act.Ends (Act.onUnsubAck i) s fun _ s' => Writes (·.voices own id = false) s s'
      cases taken : (s.client.pending.take .unsubAck i).1 with
      | none =>
        unfold Act.onUnsubAck
        rw [Act.ends_bind, Act.ends_take, taken]
        exact .of_log rfl
      | some t =>
        exact (Act.onUnsubAck_tells taken).imp fun _ _ tells =>
          .trans (.of_log rfl) (tells.voiceless (others rfl taken))

/-! ## Steps -/

/-- A PUBREC that nothing waits for, nor waited for before, changes nothing. -/
theorem System.afterDispatch_pubRec (read : p.ack? .pubRec = some id)
    (h : s.client.pending.Lacks true id) : s.afterDispatch p = s := by
  have taken : (s.client.pending.take .pubRec id).1 = none := h.take_eq_none rfl
  refine afterDispatch_of_ends (Q := (· = s)) ?_
  rw [Act.dispatch_pubRec read]
  unfold Act.onPubRec
  dsimp only
  rw [Act.try_bind, Act.try_lift, Act.ends_take, taken, System.change_without taken]
  dsimp only
  rw [Act.try_bind, Act.try_lift, Act.ends_client]
  dsimp only
  rw [h.contains rfl]
  exact ⟨rfl, fun lost => lost.elim⟩

theorem Warned.voiceless (warned : Warned s s') : Writes (·.voices own id = false) s s' := by
  rcases warned with rfl | ⟨count, calls⟩
  · exact .of_log rfl
  · exact .trans (.of_entry rfl rfl) calls.voiceless

theorem Warned.stays (warned : Warned s s') (h : s.client.pending.Lacks own id) :
    Stays own id s s' := by
  rcases warned with rfl | ⟨count, calls⟩
  · exact .refl h
  · have told : Stays own id s (s.announce (.pendingWarning count)) :=
      ⟨List.suffix_cons _ _, Or.inl h⟩
    exact told.trans calls.entries.suffix calls.stays

theorem System.suffix_afterSend_close (s : System σ) (packet : Bytes) :
    s.log <:+ (s.afterSend packet).close.log :=
  suffix_of_raises (Or.inl (.trans (.afterSend _ _) (.close _)))

/-- A message of the broker that gives an identifier to a transaction is handed on before it is
answered. -/
theorem Hushes.handed (opens : p.opensFlow id = true) (h : s.client.pending.Lacks false id) :
    Hushes false id s (s.afterDispatch p) := by
  obtain ⟨m, read, level, given⟩ := Inbound.opensFlow_iff.1 opens
  refine (afterDispatch_of_ends
    (Q := fun t => Hushes false id s t ∧ Reopens false id s t) ?_).1
  rw [Act.dispatch_publish read]
  refine (Act.onPublish_exactlyOnce level given).imp fun r s' acted => ?_
  rcases acted with ⟨known, -⟩ | ⟨-, e, s₁, outside, began, s₂, which, calls, warned, -, rfl⟩
  · rw [h.contains rfl] at known
    cases known
  have told : Reopens false id s (s.announce e) := ⟨[_], rfl, by
    rcases which with rfl | rfl <;>
      simp [Entry.allots, Entry.hands, Entry.message?, Packet.Publish.message, level, given]⟩
  have handed : Hushes false id s (s.announce e) :=
    .of_voiceless (.of_entry rfl (by rcases which with rfl | rfl <;> rfl))
      ⟨List.suffix_cons _ _, Or.inr told⟩
  have later {t : System σ} (rest : s₂.log <:+ t.log) :
      Hushes false id s t ∧ Reopens false id s t :=
    have warned : Writes (·.voices false id = false) _ s₂ := warned.voiceless
    have later := (calls.entries.suffix.trans warned.suffix).trans rest
    ⟨handed.reopened told later, told.later later⟩
  exact ⟨later ⟨_, (s₂.afterSend_log _).symm⟩, fun _ => later (s₂.suffix_afterSend_close _)⟩

theorem Hushes.afterDispatch (busy : s.Busy) (ordered : Ordered s)
    (sane : s.client.pending.Sane) (h : s.client.pending.Lacks own id) :
    Hushes own id s (s.afterDispatch p) := by
  by_cases opened : own = false ∧ p.opensFlow id = true
  · obtain ⟨rfl, opens⟩ := opened
    exact .handed opens h
  have unopened : own = false → p.opensFlow id = false := fun side =>
    Bool.eq_false_iff.2 fun opens => opened ⟨side, opens⟩
  have foreign : own = false → ∀ q ∈ some p, q.opensFlow id = false := fun side q own' =>
    Option.some.inj own' ▸ unopened side
  have parted {s₀ : System σ} (packet : Bytes) (lacks : s₀.client.pending.Lacks own id) :
      Stays own id s₀ (s₀.afterSend packet).close :=
    ⟨s₀.suffix_afterSend_close packet, Or.inl (by simpa using lacks)⟩
  by_cases answers : p.IsVerdict
  · refine .of_voiceless (System.afterDispatch_voiceless answers h) ?_
    exact (afterDispatch_hold (I := Stays own id s) (J := Stays own id s)
      (fun _ _ _ move stays => stays.trans (suffix_of_raises move.raises) (move.stays foreign))
      (fun {t _} _ _ _ _ _ stays => stays.trans (t.suffix_afterSend_close _) (parted _))
      (fun _ stays => stays) busy ordered sane (.refl h)).2
  by_cases acked : own = true ∧ p.ack? .pubRec = some id
  · obtain ⟨rfl, read⟩ := acked
    rw [System.afterDispatch_pubRec read h]
    exact .refl h
  have unanswered : own = true → p.ack? .pubRec ≠ some id := fun side read =>
    acked ⟨side, read⟩
  refine (afterDispatch_hold (I := Hushes own id s) (J := Hushes own id s)
    (fun _ _ _ move hushes => ?_) (fun {t _} _ _ _ owed _ hushes => ?_) (fun _ hushes => hushes)
    busy ordered sane (.refl h)).2
  · refine hushes.trans (suffix_of_raises move.raises) fun lacks => ?_
    exact .of_voiceless (move.voiceless answers unanswered unopened lacks)
      (move.stays foreign lacks)
  · refine hushes.trans (t.suffix_afterSend_close _) fun lacks => .of_voiceless ?_ (parted _ lacks)
    exact .trans (System.afterSend_voiceless (owed.unrepeated unanswered unopened))
      (.close _ rfl)

theorem Step.hushes (step : Step s s') (ordered : Ordered s) (sane : s.client.pending.Sane)
    (h : s.client.pending.Lacks own id) : Hushes own id s s' := by
  cases step with
  | call move => exact .of_voiceless move.voiceless (move.stays h)
  | thread pace =>
    cases pace with
    | move move => exact .of_voiceless move.voiceless (move.stays h)
    | @looked failure force busy run turns =>
      have silent := Act.scan_voiceless force sane h
      unfold Act.Ends at silent
      rw [run] at silent
      refine .of_voiceless silent (turns.hold (I := Stays own id s) (fun _ _ _ move stays => ?_)
        busy ordered sane (.refl h)).2.2.2
      exact stays.trans (suffix_of_raises move.raises)
        (move.stays fun _ _ none => by cases none)
  | @attended s₁ reader p here warned =>
    obtain ⟨busy, ordered', sane'⟩ := warned.good ordered sane here
    have keeps := Keeps.later (σ := σ) s₁.log
    have later := (afterDispatch_hold (p := p) keeps.turn keeps.lost (fun _ held => held) busy
      ordered' sane' (List.suffix_refl _)).2
    have read : Hushes own id s (s.accept p) :=
      .of_voiceless (.of_entry rfl rfl) ⟨List.suffix_cons _ _, Or.inl h.migrate⟩
    have voiceless : Writes (·.voices own id = false) (s.accept p) s₁ := warned.voiceless
    have told : Hushes own id s s₁ := read.trans voiceless.suffix fun lacks =>
      .of_voiceless voiceless (warned.stays lacks)
    exact told.trans later (.afterDispatch busy ordered' sane')

theorem Steps.hushes (steps : Steps s s') (ordered : Ordered s) (sane : s.client.pending.Sane)
    (h : s.client.pending.Lacks own id) : Hushes own id s s' := by
  induction steps with
  | refl => exact .refl h
  | tail steps step ih =>
    obtain ⟨ordered, sane⟩ := Steps.good steps ordered sane
    exact ih.trans (Steps.later (.single step) ordered sane) (step.hushes ordered sane)

/-- Any inputs are a run of steps. -/
theorem Reachable.takes_steps (reachable : Reachable s) (inputs : List (Input σ)) :
    Steps s (s.takes inputs) := by
  induction inputs generalizing s with
  | nil => exact .refl
  | cons first rest ih =>
    obtain ⟨ordered, sane⟩ := reachable.good
    exact (take_steps ordered sane first).trans (ih (.input first reachable))

/-! ## What was given up is gone -/

/-- Whether a transaction that the log says was given up is gone. -/
def Gone (own : Bool) (id : UInt16) (s : System σ) : Prop :=
  Entry.hushed own id s.log = true → s.client.pending.Lacks own id

omit [Environment σ] in
theorem Gone.of_move (h : Gone own id s)
    (gives : Writes (·.givesUp own id = false) s s' ∨
      ¬ s.client.pending.Lacks own id ∧ s'.client.pending.Lacks own id)
    (stays : s.client.pending.Lacks own id → Stays own id s s') : Gone own id s' := by
  intro hushed
  rcases gives with ⟨new, log, kept⟩ | ⟨-, lacks⟩
  · rw [log] at hushed
    obtain ⟨before, unused⟩ := Entry.hushed_append new hushed kept
    refine (stays (h before)).lacks.resolve_right fun ⟨new', log', allots⟩ => ?_
    obtain rfl := List.append_cancel_right (log.symm.trans log')
    obtain ⟨e, member, allots⟩ := List.any_eq_true.1 allots
    rw [unused e member] at allots
    cases allots
  · exact lacks

theorem Calls.stay_gone (calls : Calls s s') (sane : s.client.pending.Sane) (h : Gone own id s) :
    s'.client.pending.Sane ∧ Gone own id s' := by
  induction calls with
  | refl => exact ⟨sane, h⟩
  | tail _ move ih => exact ⟨move.sane ih.1, ih.2.of_move (move.givesUp ih.1.distinct) move.stays⟩

omit [Environment σ] in
theorem Gone.announce {e : Event} (h : Gone own id s) (quiet : e.IsPlain) :
    Gone own id (s.announce e) :=
  h.of_move (Or.inl (.of_entry rfl
    (by cases e <;> first | rfl | exact absurd quiet fun none => none)))
    fun lacks => ⟨List.suffix_cons _ _, Or.inl lacks⟩

theorem Warned.gone (warned : Warned s s') (sane : s.client.pending.Sane) (h : Gone own id s) :
    Gone own id s' := by
  rcases warned with rfl | ⟨count, calls⟩
  · exact h
  · exact (calls.stay_gone sane (h.announce trivial)).2

theorem Gone.afterSend (h : Gone own id s) (packet : Bytes) : Gone own id (s.afterSend packet) :=
  have sent : Writes (·.givesUp own id = false) s (s.afterSend packet) :=
    .afterSend s fun _ _ => rfl
  h.of_move (Or.inl sent) fun lacks => ⟨sent.suffix, Or.inl (by simpa using lacks)⟩

omit [Environment σ] in
theorem Gone.close (h : Gone own id s) : Gone own id s.close :=
  have closed : Writes (·.givesUp own id = false) s s.close := .close s rfl
  h.of_move (Or.inl closed) fun lacks => ⟨closed.suffix, Or.inl (by simpa using lacks)⟩

theorem TurnMove.gone (move : TurnMove hand s s') (sane : s.client.pending.Sane)
    (unopened : own = false → ∀ p ∈ hand, p.opensFlow id = false) (h : Gone own id s) :
    Gone own id s' :=
  h.of_move (move.givesUp sane.distinct) (move.stays unopened)

/-- What the broker's message allots the application cannot have given up before. -/
theorem Calls.unhushed (calls : Calls s s') (sane : s.client.pending.Sane)
    (lacks : s.client.pending.Lacks false id) (loud : Entry.hushed false id s.log = false) :
    Entry.hushed false id s'.log = false := by
  have kept : s'.client.pending.Sane ∧ s'.client.pending.Lacks false id ∧
      Entry.hushed false id s'.log = false := by
    induction calls with
    | refl => exact ⟨sane, lacks, loud⟩
    | tail _ move ih =>
      obtain ⟨sane, lacks, loud⟩ := ih
      have still := (move.lacks lacks).resolve_right fun own => Bool.noConfusion own.1
      refine ⟨move.sane sane, still, Bool.eq_false_iff.2 fun hushed => ?_⟩
      obtain ⟨new, log, kept⟩ := (move.givesUp sane.distinct).resolve_right fun gone => gone.1 lacks
      rw [log] at hushed
      rw [(Entry.hushed_append new hushed kept).1] at loud
      cases loud
  exact kept.2.2

theorem Gone.afterDispatch (h : Gone own id s) (busy : s.Busy) (ordered : Ordered s)
    (sane : s.client.pending.Sane) : Gone own id (s.afterDispatch p) := by
  by_cases opened : own = false ∧ p.opensFlow id = true
  · obtain ⟨rfl, opens⟩ := opened
    obtain ⟨m, read, level, given⟩ := Inbound.opensFlow_iff.1 opens
    refine afterDispatch_of_ends (Q := Gone false id) ?_
    rw [Act.dispatch_publish read]
    refine (Act.onPublish_exactlyOnce level given).imp fun r s' acted => ?_
    have sent {t : System σ} (gone : Gone false id t) :
        Gone false id (t.afterSend (Packet.ack .pubRec id)) ∧
          (LosesSession r → Gone false id (t.afterSend (Packet.ack .pubRec id)).close) :=
      ⟨gone.afterSend _, fun _ => (gone.afterSend _).close⟩
    rcases acted with ⟨-, -, rfl⟩ |
      ⟨absent, e, s₁, outside, began, s₂, which, calls, warned, -, rfl⟩
    · exact sent h
    have kept := Act.remembered_turns read level given absent which calls outside began
    -- the message was handed on after all that the log says was given up
    have told : Entry.hushed false id (s.announce e).log = false := by
      have allots : Entry.allots false id (.raised e s.client (s.client.mask.contains e.kind)) =
          true := by
        rcases which with rfl | rfl <;>
          simp [Entry.allots, Entry.hands, Entry.message?, Packet.Publish.message, level, given]
      rw [System.announce_log, Entry.hushed, allots]
      rcases which with rfl | rfl <;> rfl
    have loud := calls.unhushed sane (.of_contains sane.distinct absent) told
    refine sent (warned.gone (kept.sane busy sane) fun hushed => ?_)
    rw [System.change_log, System.shift_log, loud] at hushed
    cases hushed
  · have foreign : own = false → ∀ q ∈ some p, q.opensFlow id = false := fun side q own' =>
      Option.some.inj own' ▸ Bool.eq_false_iff.2 fun opens => opened ⟨side, opens⟩
    exact (afterDispatch_hold (I := Gone own id) (J := Gone own id)
      (fun _ sane _ move gone => move.gone sane foreign gone)
      (fun _ _ _ _ _ gone => (gone.afterSend _).close) (fun _ gone => gone)
      busy ordered sane h).2

theorem Step.gone (step : Step s s') (ordered : Ordered s) (sane : s.client.pending.Sane)
    (h : Gone own id s) : Gone own id s' := by
  cases step with
  | call move => exact h.of_move (move.givesUp sane.distinct) move.stays
  | thread pace =>
    cases pace with
    | move move => exact h.of_move (move.givesUp sane.distinct) move.stays
    | looked _ busy _ turns =>
      exact (turns.hold (I := Gone own id)
        (fun _ sane _ move => move.gone sane fun _ _ none => by cases none)
        busy ordered sane h).2.2.2
  | @attended s₁ reader p here warned =>
    have read : Gone own id (s.accept p) := h.of_move (Or.inl (.of_entry rfl rfl))
      fun lacks => ⟨List.suffix_cons _ _, Or.inl lacks.migrate⟩
    obtain ⟨busy, ordered', sane'⟩ := warned.good ordered sane here
    exact (warned.gone sane.migrate read).afterDispatch busy ordered' sane'

theorem Reachable.gone (reachable : Reachable s) (own : Bool) (id : UInt16) : Gone own id s :=
  reachable.induct (fun _ _ hushed => by cases hushed)
    fun _ _ ordered sane step => step.gone ordered sane

/-! ## Silence -/

/-- A transaction is given up when the call to do so says that it is done. -/
theorem Act.discard_givenUp (caller : Caller) (kind : AckKind) (id : UInt16) (s : System σ) :
    Ends (perform (raise caller) caller (.discard kind id)) s fun reply s' =>
      reply = .done → GivenUp kind id s s' := by
  rw [perform, ends_answer]
  unfold discard
  simp only [try_bind, try_lift, ends_draw]
  cases removed : (s.client.pending.remove kind id).1 with
  | none =>
    rw [try_throw]
    exact fun done => by cases done
  | some t =>
    have given {s₁ s₂ : System σ}
        (calls : Calls (s₁.announce (.discarded kind id t.subject.topic)) s₂)
        (same : s₁.log = s.log) : GivenUp kind id s s₂ :=
      .later ⟨[_], congrArg _ same, _, _, _, List.mem_cons_self⟩ calls.entries.suffix
    rw [try_lift]
    split
    · rw [ends_bind, ends_update]
      exact (raise_calls caller _ _).imp fun _ _ calls _ => given calls rfl
    · exact (raise_calls caller _ _).imp fun _ _ calls _ => given calls rfl

omit [Environment σ] in
/-- A look picks at most one thing to be done about each transaction. -/
theorem Pending.Distinct.nodup_picked {q : Pending} (h : q.Distinct) (now limit : UInt32)
    (force : Bool) : ((q.scan now limit force).1.map Action.about).Nodup := by
  rw [Pending.scan_eq_looks]
  unfold List.Nodup
  rw [List.pairwise_map, List.pairwise_filterMap]
  refine (List.pairwise_append.1 h.apart).1.imp fun {t u} apart a looked b looked' same => ?_
  rw [Transaction.about_of_look looked, Transaction.about_of_look looked'] at same
  obtain ⟨kind, id⟩ := Prod.mk.inj same
  exact apart (by rw [kind]) id

/-- **Silence.**  When the call to give up a transaction is done, the log says that it was given
up.  If the log says so between two inputs and the identifier was not given to another
transaction since, no transaction of that side has the identifier, and whatever comes in, nothing
is sent again for it and no event tells of it until the identifier is given to a new transaction.
No call of the application, with all that its callbacks do, sends a transaction again or tells of
one.  A look at the transactions picks at most one thing to be done about each of them, and writes
only what it picked before it began and what callbacks do; what it picked is done even if a
callback gives up the transaction meanwhile. -/
theorem Reachable.silenced (reachable : Reachable s) (own : Bool) (id : UInt16) :
    (∀ (caller : Caller) (kind : AckKind) (t : System σ),
      Act.Ends (Act.perform (Act.raise caller) caller (.discard kind id)) t fun reply t' =>
        reply = .done → GivenUp kind id t t') ∧
    (Entry.hushed own id s.log = true → s.client.pending.Lacks own id ∧
      ∀ inputs, SilentSince own id s.log (s.takes inputs).log) ∧
    (∀ c, Writes (·.voices own id = false) s (s.take (.call c))) ∧
    ∀ {input : Input σ} {force : Bool} {t : System σ}, Looks s input force t →
      (∃ rest : Option Error → Act σ Unit, s.take input = ((Act.scan force >>= rest).run t).2) ∧
      ((t.picked force).map Action.about).Nodup ∧
      Act.Ends (Act.scan force) t fun _ t' => Writes (Entry.OfLook (t.picked force)) t t' := by
  refine ⟨fun caller kind t => Act.discard_givenUp caller kind id t, fun hushed => ?_,
    fun c => Calls.voiceless (Act.call_calls c), fun looks => ?_⟩
  · have lacks := reachable.gone own id hushed
    obtain ⟨ordered, sane⟩ := reachable.good
    exact ⟨lacks, fun inputs =>
      ((reachable.takes_steps inputs).hushes ordered sane lacks).silent⟩
  · obtain ⟨-, sane⟩ := looks.good reachable
    exact ⟨looks.scans, sane.distinct.nodup_picked _ _ _, Act.scan_ofLook _⟩

end Moves

/-- A client whose first two messages were not answered in time, and whose application gives up
the second when it is told that the first was sent again. -/
def hesitant : System Script :=
  inSession.takes
    [.call (.publish "a" [1] .atLeastOnce false), .call (.publish "b" [2] .atLeastOnce false),
      .heard (.error .timeout) 0, .turn,
      .outside
        { clock := 3000, rules := [⟨.resent, fun _ => [.call (.discard .pubAck 2) 0], some 1⟩] }]

/-- `hesitant` once it looked at its transactions. -/
def resigned : System Script :=
  hesitant.take (.heard (.error .timeout) 0)

/-- The second message of `hesitant` is sent again after it was given up, for the look had picked
it before, and never after the look. -/
theorem silenced_resigned :
    (∃ t, Looks hesitant (.heard (.error .timeout) 0) false t ∧
      (t.picked false).map Action.about = [(.pubAck, 1), (.pubAck, 2)] ∧
      Act.Ends (Act.scan false) t fun _ t' => Writes (Entry.OfLook (t.picked false)) t t') ∧
    (∃ log, log <:+ resigned.log ∧ Entry.hushed true 2 log = true ∧
      ¬ SilentSince true 2 log resigned.log) ∧
    Entry.hushed true 2 resigned.log = true ∧
    ∀ inputs, SilentSince true 2 resigned.log (resigned.takes inputs).log := by
  have reachable : Reachable hesitant := inSession_reachable.takes _
  have here : hesitant.client.place = .listening ⟨65536, 4000, .first 100⟩ := by decide +kernel
  have idle : Looks hesitant (.heard (.error .timeout) 0) false (Act.readEnded.run hesitant).2 :=
    .idle here rfl
  have hushed : Entry.hushed true 2 resigned.log = true := by decide +kernel
  refine ⟨⟨_, idle, by decide +kernel, ((reachable.silenced true 2).2.2.2 idle).2.2⟩,
    ⟨resigned.log.drop 3, List.drop_suffix _ _, by decide +kernel, ?_⟩, hushed,
    ((Reachable.silenced (.input _ reachable) true 2).2.1 hushed).2⟩
  rintro ⟨new, log, quiet⟩
  have last := List.append_cancel_right (log.symm.trans (List.take_append_drop 3 _).symm)
  have loud : Entry.quiet true 2 (resigned.log.take 3) = false := by decide +kernel
  rw [last, loud] at quiet
  cases quiet

end Mqtt
