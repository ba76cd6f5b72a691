import Mqtt.Proofs.Silence
import Mqtt.Proofs.Vacant

/-!
# What is sent again

A look marks the octets that a transaction keeps of its PUBLISH and sends them again, and it
does so over and over.  The transaction never forgets which message it is of (`Recalled`), so
what goes out with the mark is the message of the last publish call under the identifier, as
it would be written with the mark, and nothing has become of it yet (`Restates`).  Without the
mark only new messages go out.  The answers in the middle of a handshake are always the same,
and a request about filters goes out once (`Reachable.resent_faithfully`).
-/

namespace Mqtt

/-! ## What may be sent -/

/-- Whether octets are the message that was sent last under an identifier, marked as sent
before, and nothing has become of the message yet. -/
def Restates (id : UInt16) (log : List Entry) (packet : Bytes) : Prop :=
  ∃ account older, accounts id log = account :: older ∧ account.outcomes = [] ∧
    Packet.encode account.message.again.put = .ok packet

/-- Whether what is sent again for a transaction is its message, or the answer in the middle of
its handshake. -/
def Action.Faithful (log : List Entry) : Action → Prop
  | .resend .pubAck id _ packet | .resend .pubRec id _ packet => Restates id log packet
  | .resend .pubRel id _ packet => packet = Packet.ack .pubRec id
  | .resend .pubComp id _ packet => packet = Packet.ack .pubRel id
  | .resend .subAck .. | .resend .unsubAck .. => False
  | .warn .. | .expire _ => True

/-- Whether an offer is of a packet that may be sent after some entries. -/
structure Transport.Attempt.Faithful (a : Transport.Attempt) (earlier : List Entry) : Prop where
  /-- Without the mark a message is a new one: all that were sent under its identifier before
  have come to an end. -/
  first : ∀ q id m, Packet.parse? a.whole = some q → q.opens? id = some m →
    ∀ account ∈ accounts id earlier, account.outcomes ≠ []
  /-- With the mark it is the one that was waiting when the thread, since which nothing was read,
  began to look. -/
  again : ∀ q id m, Packet.parse? a.whole = some q → q.publish? = some m → m.dup = true →
    m.packetId = some id → ∃ new since, earlier = new ++ since ∧ (∀ e ∈ new, ¬ e.IsArrival) ∧
      Restates id since a.whole
  answer : ∀ q, Packet.parse? a.whole = some q → q.kind = .pubRec ∨ q.kind = .pubRel →
    ∃ id, a.whole = Packet.ack q.kind id
  /-- A request about filters is a new one, too. -/
  request : ∀ kind id filters, Entry.asks? (.sent a) = some (kind, id, filters) →
    ∀ p ∈ (Ledger.read earlier).waiting, p.id ≠ id

/-- Whether octets are a packet other than a new message, which a handshake's answer, if it is
one, is written as such. -/
def Packet.Plain (packet : Bytes) : Prop :=
  ∃ q, Packet.parse? packet = some q ∧ (∀ id, q.opens? id = none) ∧
    (q.kind = .pubRec ∨ q.kind = .pubRel → ∃ id, packet = Packet.ack q.kind id)

/-- Whether an entry is an offer of a packet. -/
def Entry.Offers (packet : Packet.Put Unit) : Entry → Prop
  | .sent a => Packet.encode packet = .ok a.whole
  | _ => False

/-- Whether octets are a message under an identifier with the mark of being sent before. -/
def Packet.isMarked (id : UInt16) (packet : Bytes) : Bool :=
  (Packet.parse? packet).any fun q => q.publish?.any fun m => m.dup && m.packetId == some id

namespace Entry

/-- Whether an entry sends nothing but plain packets. -/
def Plain : Entry → Prop
  | .sent a => Packet.Plain a.whole
  | _ => True

/-- Whether an entry sends a message as new only if it is. -/
def Original : Entry → List Entry → Prop
  | .sent a, earlier => ∀ q, Packet.parse? a.whole = some q →
    (∀ id m, q.opens? id = some m → ∀ account ∈ accounts id earlier, account.outcomes ≠ []) ∧
    (q.kind = .pubRec ∨ q.kind = .pubRel → ∃ id, a.whole = Packet.ack q.kind id)
  | _, _ => True

/-- Whether an entry sends a message with the mark only if it was waiting. -/
def Again (id : UInt16) : Entry → List Entry → Prop
  | .sent a, earlier => Packet.isMarked id a.whole = true → ∃ new since, earlier = new ++ since ∧
    (∀ e ∈ new, ¬ e.IsArrival) ∧ Restates id since a.whole
  | _, _ => True

end Entry

/-! ## Packets -/

namespace Packet.Plain

variable {packet : Bytes}

theorem of_parse {q : Inbound} (whole : Packet.parse? packet = some q)
    (unopened : ∀ id, q.opens? id = none) (other : q.kind ≠ .pubRec ∧ q.kind ≠ .pubRel) :
    Packet.Plain packet :=
  ⟨q, whole, unopened, fun which => (which.elim other.1 other.2).elim⟩

theorem of_ack {kind : Packet.Kind} (id : UInt16) (other : kind ≠ .publish) :
    Packet.Plain (Packet.ack kind id) :=
  ⟨_, Packet.parse?_ack kind id, Inbound.opens?_eq_none other, fun _ => ⟨id, rfl⟩⟩

/-- A message of which nothing is kept is none, and neither is one that was sent before. -/
theorem of_put {m : Packet.Publish} (written : Packet.encode m.put = .ok packet)
    (kept : m.qos = .atMostOnce ∨ m.dup = true) : Packet.Plain packet := by
  obtain ⟨q, whole, unopened, -⟩ := Inbound.opens?_of_put written
  obtain ⟨_, flags, body, -, whole', -⟩ := Packet.Publish.parse?_put written
  obtain rfl := Option.some.inj (whole.symm.trans whole')
  exact of_parse whole (unopened kept) ⟨Packet.Kind.noConfusion, Packet.Kind.noConfusion⟩

end Packet.Plain

theorem Owed.plain {σ : Type} {p : Inbound} {s : System σ} {packet : Bytes}
    (owed : Owed p s packet) : Packet.Plain packet := by
  cases owed <;> exact .of_ack _ Packet.Kind.noConfusion

theorem Resendable.plain {kind : AckKind} {id : UInt16} {packet : Bytes}
    (resendable : Resendable id kind packet) : Packet.Plain packet := by
  cases resendable with
  | pubAck written dup | pubRec written dup => exact .of_put written (Or.inr dup)
  | pubRel | pubComp => exact .of_ack _ Packet.Kind.noConfusion

theorem Parting.plain {packet : Bytes} (parting : Parting packet) : Packet.Plain packet := by
  cases parting with
  | connect written =>
    obtain ⟨body, whole⟩ := Packet.Connect.parse?_put written
    exact .of_parse whole (Inbound.opens?_eq_none Packet.Kind.noConfusion)
      ⟨Packet.Kind.noConfusion, Packet.Kind.noConfusion⟩
  | disconnect =>
    exact .of_parse Packet.parse?_disconnect (Inbound.opens?_eq_none Packet.Kind.noConfusion)
      ⟨Packet.Kind.noConfusion, Packet.Kind.noConfusion⟩
  | pingReq =>
    exact .of_parse Packet.parse?_pingReq (Inbound.opens?_eq_none Packet.Kind.noConfusion)
      ⟨Packet.Kind.noConfusion, Packet.Kind.noConfusion⟩

/-! ## Accounts that are closed -/

namespace Account.Stands

variable {a : Account} {ts : List Transaction} {t : Transaction}

theorem settled (stands : a.Stands []) : a.outcomes ≠ [] := by
  cases stands with
  | published outcome | discarded outcome =>
    rw [outcome]
    exact List.cons_ne_nil _ _

theorem waiting (stands : a.Stands ts) (member : t ∈ ts) : a.outcomes = [] := by
  cases stands with
  | pending _ waiting => exact waiting
  | published | discarded => cases member

end Account.Stands

/-- Where no transaction is of a message, all messages have come to an end. -/
theorem Accounted.settled {id : UInt16} {c : Client} {log : List Entry}
    (h : Accounted id c log) (none : c.pending.handlers id = []) :
    ∀ account ∈ accounts id log, account.outcomes ≠ [] := by
  unfold Accounted at h
  intro account member
  cases log' : accounts id log with
  | nil =>
    rw [log'] at member
    cases member
  | cons latest older =>
    rw [log', none] at h
    rw [log'] at member
    rcases List.mem_cons.1 member with rfl | older
    · exact h.1.settled
    · exact (h.2 account older).settled

/-- A message that a transaction is of waits. -/
theorem Accounted.waiting {id : UInt16} {c : Client} {log : List Entry}
    (h : Accounted id c log) {t : Transaction} (handled : t ∈ c.pending.handlers id) :
    ∃ account older, accounts id log = account :: older ∧ account.outcomes = [] := by
  unfold Accounted at h
  cases log' : accounts id log with
  | nil =>
    rw [log'] at h
    rw [h] at handled
    cases handled
  | cons latest older =>
    rw [log'] at h
    exact ⟨latest, older, rfl, h.1.waiting handled⟩

/-! ## What transactions keep -/

/-- Whether what a transaction sends again is a message with its mark. -/
def Transaction.Keeps (t : Transaction) (m : Packet.Publish) : Prop :=
  ∃ packet, t.packet.markDup = .request packet ∧ Packet.encode m.again.put = .ok packet

/-- Whether a transaction keeps the last message that was sent under its identifier. -/
def Transaction.Recalled (t : Transaction) (log : List Entry) : Prop :=
  ∃ account ∈ (accounts t.packetId log).head?, t.Keeps account.message

/-- Whether a transaction of a message comes from another one. -/
structure Transaction.Continues (t u : Transaction) : Prop where
  awaits : u.awaits = t.awaits
  packetId : u.packetId = t.packetId
  packet : u.packet.markDup = t.packet.markDup

theorem Transaction.Continues.refl (t : Transaction) : t.Continues t :=
  ⟨rfl, rfl, rfl⟩

theorem Transaction.continues_look {now limit : UInt32} {force : Bool} {t u : Transaction}
    (looked : (t.look now limit force).1 = some u) : t.Continues u := by
  obtain ⟨awaits, own, -, same | ⟨-, marked⟩⟩ := of_look_eq_some looked
  · exact ⟨awaits, own, by rw [same]⟩
  · exact ⟨awaits, own, by rw [marked, Stored.markDup_markDup]⟩

/-- Whether the transactions of messages all come from others. -/
def Pending.Continues (p q : Pending) : Prop :=
  ∀ u ∈ q.all, u.awaits.isPublish = true → ∃ t ∈ p.all, t.Continues u

namespace Pending.Continues

variable {p q : Pending} {t : Transaction}

theorem of_subset (fewer : q.all ⊆ p.all) : p.Continues q :=
  fun u member _ => ⟨u, fewer member, .refl u⟩

theorem insert (h : p.Continues q) (other : t.awaits.isPublish = false) :
    p.Continues (q.insert t).2 := by
  intro u member publish
  rcases mem_of_mem_insert member with old | rfl
  · exact h u old publish
  · rw [other] at publish
    cases publish

theorem scan (p : Pending) (now limit : UInt32) (force : Bool) :
    p.Continues (p.scan now limit force).2 := by
  intro u member _
  rcases mem_all.1 member with active | staged
  · obtain ⟨t, active, looked⟩ := mem_scan_active.1 active
    exact ⟨t, mem_all.2 (Or.inl active), Transaction.continues_look looked⟩
  · rw [scan_staged] at staged
    exact ⟨u, mem_all.2 (Or.inr staged), .refl u⟩

end Pending.Continues

section Moves

variable {σ : Type} {s s' : System σ} {hand : Option Inbound} {id : UInt16}

/-- Whether each transaction of a message keeps it. -/
def Recalled (s : System σ) : Prop :=
  ∀ t ∈ s.client.pending.all, t.awaits.isPublish = true → t.Recalled s.log

/-- What becomes of a message does not change it. -/
theorem Transaction.Recalled.of_story {t : Transaction} {log log' : List Entry}
    (h : t.Recalled log) {f : Account → Account}
    (accounts' : accounts t.packetId log' = (accounts t.packetId log).modifyHead f)
    (message : ∀ a, (f a).message = a.message) : t.Recalled log' := by
  obtain ⟨account, latest, keeps⟩ := h
  refine ⟨f account, ?_, (message account).symm ▸ keeps⟩
  rw [accounts', List.head?_modifyHead, latest]
  rfl

theorem Transaction.Recalled.continues {t u : Transaction} {log : List Entry}
    (h : t.Recalled log) (goesOn : t.Continues u) : u.Recalled log := by
  obtain ⟨account, latest, packet, marked, written⟩ := h
  exact ⟨account, goesOn.packetId ▸ latest, packet, goesOn.packet.trans marked, written⟩

/-- The message of a transaction stays the last one under its identifier. -/
theorem Transaction.Recalled.follow {t : Transaction} (h : t.Recalled s.log)
    (follows : Follows t.packetId s s') (member : t ∈ s.client.pending.all)
    (publish : t.awaits.isPublish = true) : t.Recalled s'.log := by
  cases follows with
  | kept same | advanced same =>
    unfold Transaction.Recalled
    rw [same]
    exact h
  | opened _ _ free =>
    exact absurd (AckKind.isLocal_of_isPublish publish)
      (Pending.not_isLocal_of_free free member rfl)
  | discarded more | published more => exact h.of_story more fun _ => rfl

theorem Recalled.follow (h : Recalled s) (follows : ∀ id, Follows id s s')
    (goesOn : s.client.pending.Continues s'.client.pending) : Recalled s' := by
  intro u member publish
  obtain ⟨t, before, continues⟩ := goesOn u member publish
  rw [continues.awaits] at publish
  exact ((h t before publish).follow (follows _) before publish).continues continues

variable [Environment σ]

/-- The transaction of a message that was sent keeps it. -/
theorem Recalled.requested (h : Recalled s) {r : Act.Request} {packet : Bytes} (began : UInt32)
    (issued : r.Issued) (connected : s.client.phase = .connected)
    (free : s.client.isFree id = true) (written : Packet.encode (r.packet id) = .ok packet)
    (sent : s.sendResult packet = .ok ()) :
    Recalled ((s.change fun c => (c.passOver id).register began r.awaits id packet r.subject
      r.listed).afterSend packet) := by
  let f (c : Client) := (c.passOver id).register began r.awaits id packet r.subject r.listed
  have result : (s.change f).sendResult packet = .ok () :=
    (s.sendResult_change packet rfl rfl).trans sent
  let t : Transaction :=
    { awaits := r.awaits, packetId := id, timer := ⟨began, s.client.config.ackTimeout⟩,
      packet := .request packet, subject := .asked r.subject.1 r.subject.2 id }
  have staged : ((s.change f).afterSend packet).client.pending = s.client.pending.stage t := by
    simp [f, Client.register, Client.passOver, t]
  intro u member publish
  change u ∈ ((s.change f).afterSend packet).client.pending.all at member
  rw [staged] at member
  rcases List.mem_cons.1 ((Pending.stage_perm _ t).subset member) with rfl | old
  · obtain ⟨q, whole, ⟨request, -⟩ | ⟨m, sends, opened, -⟩⟩ := issued.opens written
    · exact absurd (publish.symm.trans (AckKind.of_isRequest request).1) Bool.noConfusion
    · have log := accounts_afterSend_of_opens (s := s.change f) whole opened
      rw [result] at log
      exact ⟨{ message := m }, by rw [log]; rfl, Packet.markDup packet, rfl,
        Packet.Publish.markDup_put (sends.packet ▸ written)⟩
  · exact (h u old publish).follow
      (follows_requested began issued connected free written sent _) old publish

theorem CallMove.recalled (move : CallMove s s') (ordered : Ordered s) (balanced : Balanced hand s)
    (h : Recalled s) : Recalled s' := by
  have kept (fewer : s'.client.pending.all ⊆ s.client.pending.all) : Recalled s' :=
    h.follow (move.follows ordered balanced) (.of_subset fewer)
  cases move with
  | discarded => exact kept (Pending.remove_all_sublist _ _ _).subset
  | released => exact kept (List.nil_subset _)
  | refused | sent => exact kept (by simp [Client.passOver])
  | requested began issued _ connected free written sent =>
    exact h.requested began issued connected free written sent
  | _ => exact kept (List.Subset.refl _)

theorem TurnMove.recalled (move : TurnMove hand s s') (ordered : Ordered s)
    (sane : s.client.pending.Sane) (balanced : Balanced hand s) (h : Recalled s) :
    Recalled s' := by
  have kept (goesOn : s.client.pending.Continues s'.client.pending) : Recalled s' :=
    h.follow (move.follows ordered sane balanced) goesOn
  have fewer (fewer : s'.client.pending.all ⊆ s.client.pending.all) : Recalled s' :=
    kept (.of_subset fewer)
  cases move with
  | call move => exact move.recalled ordered balanced h
  | remembered => exact kept (.insert (.of_subset (List.Subset.refl _)) rfl)
  | forgotten | answered | completed => exact fewer (Pending.take_all_sublist _ _ _).subset
  | advanced => exact kept (.insert (.of_subset (Pending.take_all_sublist _ _ _).subset) rfl)
  | migrated => exact fewer fun _ => Pending.mem_of_mem_migrate
  | scanned => exact kept (.scan _ _ _ _)
  | replied | resent | pinged => exact fewer (by simp)
  | _ => exact fewer (List.Subset.refl _)

theorem ThreadMove.recalled (move : ThreadMove s s') (ordered : Ordered s)
    (sane : s.client.pending.Sane) (balanced : Balanced none s)
    (here : s'.client.place ≠ .exited) (h : Recalled s) : Recalled s' := by
  have fewer (fewer : s'.client.pending.all ⊆ s.client.pending.all) : Recalled s' :=
    h.follow (move.follows ordered sane balanced here) (.of_subset fewer)
  cases move with
  | turn busy move => exact move.turn.recalled ordered sane balanced h
  | readEnded | greeted => exact fewer fun _ => Pending.mem_of_mem_migrate
  | left => exact absurd rfl here
  | dialled | saluted | parted | closed => exact fewer (by simp)
  | _ => exact fewer (List.Subset.refl _)

/-! ## New messages -/

omit [Environment σ] in
theorem Entry.Plain.original {e : Entry} (plain : e.Plain) (earlier : List Entry) :
    e.Original earlier := by
  cases e <;> try trivial
  intro q whole
  obtain ⟨q', whole', unopened, answer⟩ := plain
  obtain rfl := Option.some.inj (whole.symm.trans whole')
  refine ⟨fun id m opens => ?_, answer⟩
  rw [unopened id] at opens
  cases opens

theorem System.afterSend_plain {packet : Bytes} (plain : Packet.Plain packet) :
    Writes Entry.Plain s (s.afterSend packet) :=
  .afterSend s fun a whole => by
    rw [← whole] at plain
    exact plain

/-- Each offer that is made to send a packet comes after others that do not complete it. -/
theorem System.afterSend_each {right : Entry → List Entry → Prop} {packet : Bytes}
    (nonempty : packet ≠ []) (h : Entry.Each right s.log)
    (own : ∀ (a : Transport.Attempt) (new : List Entry), a.whole = packet → (∀ e ∈ new, e.Idle) →
      right (.sent a) (new ++ s.log)) : Entry.Each right (s.afterSend packet).log := by
  have offered {new : List Entry}
      (partly : ∀ e ∈ new, ∃ a : Transport.Attempt, e = .sent a ∧ a.completes = false)
      (wholes : ∀ e ∈ new, ∃ a : Transport.Attempt, e = .sent a ∧ a.whole = packet) :
      (∀ e ∈ new, e.Idle) ∧ Entry.Each right (new ++ s.log) := by
    induction new with
    | nil => exact ⟨fun _ none => (by cases none), h⟩
    | cons e new ih =>
      obtain ⟨⟨a, rfl, short⟩, others⟩ := List.forall_mem_cons.1 partly
      obtain ⟨⟨b, same, whole⟩, others'⟩ := List.forall_mem_cons.1 wholes
      cases same
      obtain ⟨idle, before⟩ := ih others others'
      exact ⟨List.forall_mem_cons.2 ⟨Entry.idle_of_partial short, idle⟩,
        before.cons (own a new whole idle)⟩
  obtain ⟨offers, log, wholes⟩ := s.afterSend_entries packet
  obtain ⟨new, partly, ⟨-, log'⟩ | ⟨-, last, whole, -, log'⟩⟩ := s.afterSend_cases nonempty
  · obtain rfl : offers = new := List.append_cancel_right (log.symm.trans log')
    exact log ▸ (offered partly wholes).2
  · obtain rfl : offers = .sent last :: new := List.append_cancel_right (log.symm.trans log')
    obtain ⟨idle, before⟩ := offered partly (List.forall_mem_cons.1 wholes).2
    exact log' ▸ before.cons (own last new whole idle)

/-- A request sends a message as new where all messages under its identifier have come to an
end. -/
theorem Act.Request.Issued.original {r : Act.Request} (issued : r.Issued) {packet : Bytes}
    (written : Packet.encode (r.packet id) = .ok packet) {log : List Entry}
    (settled : ∀ account ∈ accounts id log, account.outcomes ≠ []) (a : Transport.Attempt)
    (new : List Entry) (whole : a.whole = packet) (idle : ∀ e ∈ new, e.Idle) :
    (Entry.sent a).Original (new ++ log) := by
  intro q parsed
  rw [whole] at parsed
  obtain ⟨q', parsed', kind⟩ := (Requested.request issued written).parse?
  obtain rfl := Option.some.inj (parsed.symm.trans parsed')
  refine ⟨fun i m opened => ?_, fun which => ?_⟩
  · rw [accounts_append idle]
    obtain rfl : i = id := Decidable.byContradiction fun apart => by
      rw [issued.opens_other written parsed apart] at opened
      cases opened
    exact settled
  · rcases which with which | which <;> rw [which] at kind <;> exact absurd kind (by decide)

theorem CallMove.original (move : CallMove s s') (balanced : Balanced hand s)
    (vacant : s.client.place = .exited → s.client.Vacant) (h : Entry.Each Entry.Original s.log) :
    Entry.Each Entry.Original s'.log := by
  have plain (writes : Writes Entry.Plain s s') : Entry.Each Entry.Original s'.log :=
    h.later (writes.imp fun _ => Entry.Plain.original)
  have new {r : Act.Request} {id : UInt16} {packet : Bytes} (issued : r.Issued)
      (alive : s.client.destroyed = false) (free : s.client.isFree id = true)
      (written : Packet.encode (r.packet id) = .ok packet) (t : System σ) (log : t.log = s.log) :
      Entry.Each Entry.Original (t.afterSend packet).log := by
    have here : s.client.place ≠ .exited := fun gone =>
      Bool.false_ne_true (alive.symm.trans (vacant gone).destroyed)
    have settled := (balanced.accounted here id).settled
      (Pending.handlers_of_free (Client.isFree_iff.1 free).1)
    obtain ⟨q, whole, -⟩ := (Requested.request issued written).parse?
    exact t.afterSend_each (Packet.ne_nil_of_parse? whole) (log ▸ h)
      (log ▸ issued.original written settled)
  cases move with
  | remarked e remark =>
    exact plain (.of_entry rfl (by cases e <;> trivial))
  | undone | discarded => exact plain (.of_entry rfl trivial)
  | released => exact plain (.close s trivial)
  | requested _ issued alive _ free written => exact new issued alive free written _ rfl
  | refused issued alive _ free written => exact new issued alive free written _ rfl
  | sent lowest _ _ _ written =>
    exact plain (System.afterSend_plain (.of_put written (Or.inl lowest)))
  | _ => exact h

/-- Only calls send new messages. -/
theorem TurnMove.original (move : TurnMove hand s s') (balanced : Balanced hand s)
    (vacant : s.client.place = .exited → s.client.Vacant) (h : Entry.Each Entry.Original s.log) :
    Entry.Each Entry.Original s'.log := by
  have plain (writes : Writes Entry.Plain s s') : Entry.Each Entry.Original s'.log :=
    h.later (writes.imp fun _ => Entry.Plain.original)
  cases move with
  | call move => exact move.original balanced vacant h
  | told | delivered | completed => exact plain (.of_entry rfl trivial)
  | replied _ owed => exact plain (System.afterSend_plain owed.plain)
  | resent _ again => exact plain (System.afterSend_plain again.plain)
  | pinged => exact plain (System.afterSend_plain Parting.pingReq.plain)
  | _ => exact h

theorem ThreadMove.original (move : ThreadMove s s') (balanced : Balanced none s)
    (vacant : s.client.place = .exited → s.client.Vacant) (h : Entry.Each Entry.Original s.log) :
    Entry.Each Entry.Original s'.log := by
  have plain (writes : Writes Entry.Plain s s') : Entry.Each Entry.Original s'.log :=
    h.later (writes.imp fun _ => Entry.Plain.original)
  cases move with
  | turn _ move => exact move.turn.original balanced vacant h
  | obeyed | opened | greeted => exact plain (.of_entry rfl trivial)
  | dialled => exact plain (.trans (.close s trivial) (.of_entry rfl trivial))
  | saluted _ _ _ _ _ written =>
    exact plain (System.afterSend_plain (Parting.connect written).plain)
  | parted _ parting =>
    exact plain (.trans (System.afterSend_plain parting.plain) (.close _ trivial))
  | closed | left => exact plain (.close s trivial)
  | _ => exact h

/-! ## All that is kept -/

/-- What always holds of messages that may be sent again. -/
structure Retained (hand : Option Inbound) (s : System σ) : Prop where
  balanced : Balanced hand s
  vacant : s.client.place = .exited → s.client.Vacant
  recalled : Recalled s
  original : Entry.Each Entry.Original s.log

omit [Environment σ] in
theorem Client.Vacant.recalled (vacant : s.client.Vacant) : Recalled s := by
  intro t member
  rw [Pending.all, vacant.active, vacant.staged] at member
  cases member

theorem Retained.keeps : Keeps (Retained (σ := σ)) where
  call ordered sane move h :=
    ⟨move.balanced ordered h.balanced, Keeps.vacant.call ordered sane move h.vacant,
      move.recalled ordered h.balanced h.recalled, move.original h.balanced h.vacant h.original⟩
  thread {s s'} ordered sane move h := by
    have vacant := Keeps.vacant.thread ordered sane move h.vacant
    refine ⟨move.balanced ordered sane h.balanced, vacant, ?_,
      move.original h.balanced h.vacant h.original⟩
    by_cases gone : s'.client.place = .exited
    · exact (vacant gone).recalled
    · exact move.recalled ordered sane h.balanced gone h.recalled
  accept {s} _ p ordered sane here h := by
    refine ⟨h.balanced.accept ordered sane here p, nofun, fun t member publish => ?_,
      h.original.later (.of_entry rfl (Entry.Plain.original trivial))⟩
    exact (h.recalled t (Pending.mem_of_mem_migrate member) publish).of_story rfl fun _ => rfl
  turn ordered sane busy move h :=
    ⟨move.balanced busy ordered sane h.balanced, Keeps.vacant.turn ordered sane busy move h.vacant,
      move.recalled ordered sane h.balanced h.recalled,
      move.original h.balanced h.vacant h.original⟩
  lost {s p packet} ordered sane busy owed lost h := by
    refine ⟨Balanced.keeps.lost ordered sane busy owed lost h.balanced,
      Keeps.vacant.lost ordered sane busy owed lost h.vacant,
      h.recalled.follow (follows_parting owed.unopened) (.of_subset (by simp)),
      h.original.later (.trans ?_ (.close _ (Entry.Plain.original trivial)))⟩
    exact (System.afterSend_plain owed.plain).imp fun _ => Entry.Plain.original
  done _ h := ⟨h.balanced.laidDown, h.vacant, h.recalled, h.original⟩

/-! ## Messages that are sent again -/

omit [Environment σ] in
/-- What a look asks to send again for a message is the last one under its identifier, and it
waits. -/
theorem Retained.restates (h : Retained none s) (here : s.client.place ≠ .exited) {t : Transaction}
    {packet : Bytes} (member : t ∈ s.client.pending.all) (publish : t.awaits.isPublish = true)
    (marked : t.packet.markDup.bytes = packet) : Restates t.packetId s.log packet := by
  have handled : t ∈ s.client.pending.handlers t.packetId :=
    Pending.mem_handlers.2 ⟨member, rfl, AckKind.mem_ofSender_of_isPublish publish⟩
  obtain ⟨account, older, log, waiting⟩ :=
    (h.balanced.accounted here t.packetId).waiting handled
  obtain ⟨first, latest, bytes, kept, written⟩ := h.recalled t member publish
  rw [log] at latest
  cases latest
  rw [kept] at marked
  cases marked
  exact ⟨account, older, log, waiting, written⟩

/-- What a look asks to be done is faithful to the log. -/
theorem Retained.faithful (h : Retained none s) (here : s.client.place ≠ .exited)
    (sane : s.client.pending.Sane) {force : Bool} {action : Action}
    (picked : action ∈ s.picked force) : action.Faithful s.log := by
  obtain ⟨t, active, looked⟩ := Pending.mem_scan_actions.1 picked
  have member := Pending.mem_all.2 (Or.inl active)
  cases action with
  | warn | expire => trivial
  | resend kind id retries packet =>
    obtain ⟨rfl, rfl⟩ := Prod.mk.inj (Transaction.about_of_look looked)
    obtain ⟨u, -, -, rfl, -, marked⟩ := Transaction.of_look_resend looked
    have restates (publish : t.awaits.isPublish = true) :
        Restates t.packetId s.log u.packet.bytes :=
      h.restates here member publish (by rw [marked publish])
    have resendable := (sane.sound t member).resendable looked
    generalize t.awaits = kind, u.packet.bytes = packet at restates resendable ⊢
    cases resendable with
    | pubAck | pubRec => exact restates rfl
    | pubRel | pubComp => rfl

omit [Environment σ] in
theorem Packet.isMarked_ack {kind : Packet.Kind} (other : kind ≠ .publish) (i : UInt16) :
    Packet.isMarked id (Packet.ack kind i) = false := by
  unfold Packet.isMarked
  rw [Packet.parse?_ack, Option.any_some, Inbound.publish?, if_neg other, Option.any_none]

omit [Environment σ] in
theorem Packet.repeats_of_isMarked {packet : Bytes} (marked : Packet.isMarked id packet = true) :
    Packet.repeats true id packet = true := by
  unfold Packet.isMarked at marked
  unfold Packet.repeats
  cases parsed : Packet.parse? packet with
  | none =>
    rw [parsed] at marked
    cases marked
  | some q =>
    rw [parsed] at marked
    exact Bool.or_eq_true_iff.2 (Or.inl marked)

omit [Environment σ] in
/-- What is silent about a transaction sends no message with the mark. -/
theorem Entry.Again.of_voiceless {e : Entry} (voiceless : e.voices true id = false)
    (earlier : List Entry) : e.Again id earlier := by
  cases e <;> try trivial
  intro marked
  have repeats := Packet.repeats_of_isMarked marked
  rw [Entry.voices, repeats] at voiceless
  cases voiceless

omit [Environment σ] in
/-- Answers are no messages. -/
theorem Owed.unmarked {p : Inbound} {packet : Bytes} (owed : Owed p s packet) :
    Packet.isMarked id packet = false := by
  cases owed <;> exact Packet.isMarked_ack Packet.Kind.noConfusion _

omit [Environment σ] in
theorem Owed.again {p : Inbound} {packet : Bytes} (owed : Owed p s packet)
    (a : Transport.Attempt) (whole : a.whole = packet) (earlier : List Entry) :
    (Entry.sent a).Again id earlier := by
  intro marked
  rw [whole, owed.unmarked] at marked
  cases marked

/-- With a packet in its hand the thread sends no message again. -/
theorem TurnMove.again {p : Inbound} (move : TurnMove (some p) s s') :
    Writes (fun e => ∀ earlier, e.Again id earlier) s s' := by
  cases move with
  | call move => exact move.voiceless.imp fun _ => Entry.Again.of_voiceless
  | told | delivered | completed => exact .of_entry rfl fun _ => trivial
  | replied _ owed => exact .afterSend s owed.again
  | _ => exact .of_log rfl

omit [Environment σ] in
theorem Entry.OfLook.not_isArrival {picked : List Action} {e : Entry} (ofLook : e.OfLook picked) :
    ¬ e.IsArrival := by
  rcases ofLook with ofCall | ⟨action, -, yields⟩
  · exact ofCall.not_isArrival
  · cases yields <;> exact fun none => none

/-- What comes of a look is a message with the mark only if it was waiting when the look began. -/
theorem Retained.again (h : Retained none s) (here : s.client.place ≠ .exited)
    (sane : s.client.pending.Sane) {force : Bool} {e : Entry}
    (ofLook : e.OfLook (s.picked force)) {new : List Entry} (quiet : ∀ x ∈ new, ¬ x.IsArrival) :
    e.Again id (new ++ s.log) := by
  rcases ofLook with ofCall | ⟨action, picked, yields⟩
  · exact .of_voiceless ofCall.voiceless _
  have faithful := h.faithful here sane picked
  cases yields with
  | @sent kind i retries a =>
    intro marked
    refine ⟨new, s.log, rfl, quiet, ?_⟩
    obtain ⟨t, active, looked⟩ := Pending.mem_scan_actions.1 picked
    have resendable := (sane.sound t (Pending.mem_all.2 (Or.inl active))).resendable looked
    obtain ⟨-, rfl⟩ := resendable.of_repeats (Packet.repeats_of_isMarked marked)
    cases kind with
    | pubAck | pubRec => exact faithful
    | pubRel | pubComp =>
      change a.whole = Packet.ack _ i at faithful
      rw [faithful, Packet.isMarked_ack Packet.Kind.noConfusion] at marked
      cases marked
    | subAck | unsubAck => exact faithful.elim
  | _ => trivial

theorem Retained.scan_again (h : Retained none s) (here : s.client.place ≠ .exited)
    (sane : s.client.pending.Sane) (force : Bool) (each : Entry.Each (Entry.Again id) s.log) :
    Act.Ends (Act.scan force) s fun _ s' => Entry.Each (Entry.Again id) s'.log := by
  refine (Act.scan_ofLook force).imp fun _ s' written => ?_
  have kept := written.keep (I := fun log => Entry.Each (Entry.Again id) log ∧
      ∃ new, log = new ++ s.log ∧ ∀ e ∈ new, ¬ e.IsArrival)
    (fun {e log} ofLook ⟨each, new, since, quiet⟩ =>
      ⟨each.cons (since ▸ h.again here sane ofLook quiet), e :: new, by rw [since]; rfl,
        List.forall_mem_cons.2 ⟨ofLook.not_isArrival, quiet⟩⟩)
    ⟨each, [], rfl, fun _ none => by cases none⟩
  exact kept.1

theorem Warned.again (warned : Warned s s') (each : Entry.Each (Entry.Again id) s.log) :
    Entry.Each (Entry.Again id) s'.log :=
  each.later (warned.voiceless.imp fun _ => Entry.Again.of_voiceless)

theorem Step.again (step : Step s s') (ordered : Ordered s) (sane : s.client.pending.Sane)
    (h : Retained none s) (each : Entry.Each (Entry.Again id) s.log) :
    Entry.Each (Entry.Again id) s'.log := by
  cases step with
  | call move => exact each.later (move.voiceless.imp fun _ => Entry.Again.of_voiceless)
  | thread pace =>
    cases pace with
    | move move => exact each.later (move.voiceless.imp fun _ => Entry.Again.of_voiceless)
    | @looked failure force busy run =>
      have looked := h.scan_again busy.here sane force each
      unfold Act.Ends at looked
      rwa [run] at looked
  | @attended s₁ reader p here warned =>
    have read : Entry.Each (Entry.Again id) (s.accept p).log :=
      each.later (.of_entry rfl fun _ => trivial)
    obtain ⟨busy, ordered', sane'⟩ := warned.good ordered sane here
    exact (afterDispatch_hold
      (I := fun t => Entry.Each (Entry.Again id) t.log)
      (J := fun t => Entry.Each (Entry.Again id) t.log)
      (fun _ _ _ move each => each.later move.again)
      (fun {t _} _ _ _ owed _ each =>
        each.later (.trans (.afterSend t owed.again) (.close _ fun _ => trivial)))
      (fun _ each => each) busy ordered' sane' (warned.again read)).2

omit [Environment σ] in
theorem Retained.fresh (config : Config) (outside : σ) :
    Retained none (⟨Client.fresh config, outside, []⟩ : System σ) where
  balanced := ⟨fun _ _ => rfl, fun _ _ => rfl, fun _ none => by cases none⟩
  vacant gone := by cases gone
  recalled _ member := by cases member
  original := .nil

theorem Reachable.again (reachable : Reachable s) (id : UInt16) :
    Retained none s ∧ Entry.Each (Entry.Again id) s.log :=
  reachable.induct (I := fun s => Retained none s ∧ Entry.Each (Entry.Again id) s.log)
    (fun config outside => ⟨.fresh config outside, .nil⟩)
    fun _ _ ordered sane step h =>
      ⟨(step.keep Retained.keeps ordered sane h.1).2, step.again ordered sane h.1 h.2⟩

/-! ## Requests about filters -/

/-- Nothing is asked any more once the client is gone. -/
theorem CallMove.unmoved (move : CallMove s s') (vacant : s.client.Vacant) :
    Unmoved s.log s'.log := by
  have alive (alive : s.client.destroyed = false) : False :=
    Bool.false_ne_true (alive.symm.trans vacant.destroyed)
  cases move with
  | remarked e remark => exact .cons _ remark.inert
  | released => exact unmoved_close s
  | @discarded awaits id t removed => cases (vacant.remove_eq_none awaits id).symm.trans removed
  | undone first | requested _ _ first | refused _ first | sent _ _ first =>
    exact (alive first).elim
  | _ => exact .refl _

theorem Step.unmoved (step : Step s s') (ordered : Ordered s) (sane : s.client.pending.Sane)
    (vacant : s.client.place = .exited → s.client.Vacant) (gone : s'.client.place = .exited) :
    Unmoved s.log s'.log := by
  have still (busy : s'.Busy) : Unmoved s.log s'.log := absurd gone busy.here
  cases step with
  | call move => exact move.unmoved (vacant (move.exited gone))
  | thread pace =>
    cases pace with
    | move move =>
      obtain ⟨-, rfl⟩ := move.exited gone
      exact unmoved_close s
    | looked _ busy _ turns => exact still (turns.busy busy)
  | attended p here warned =>
    obtain ⟨busy, -, sane'⟩ := warned.good ordered sane here
    exact still (afterDispatch_busy busy sane' p).1

/-- No two requests ever waited under one identifier, not even once the client is gone. -/
theorem Reachable.orderly (reachable : Reachable s) : Ledger.Orderly s.log := by
  have kept := reachable.induct
    (I := fun s => Kept .idle s ∧ (s.client.place = .exited → s.client.Vacant) ∧
      Ledger.Orderly s.log)
    (fun config outside => ⟨.fresh config outside, nofun, trivial⟩)
    fun s s' ordered sane step ⟨kept, vacant, orderly⟩ => by
      have kept' := step.kept ordered sane kept
      refine ⟨kept', (step.keep Keeps.vacant ordered sane vacant).2, ?_⟩
      by_cases gone : s'.client.place = .exited
      · exact (step.unmoved ordered sane vacant gone).orderly orderly
      · exact (kept'.booked gone).orderly
  exact kept.2.2

/-! ## Publish calls -/

/-- A request offers its packet under one identifier, the one that it is answered with. -/
theorem Act.Submitted.offers {r : Act.Request} {result : Except Error UInt16}
    (submitted : Act.Submitted s r result s') :
    ∃ id, Writes (Entry.Offers (r.packet id)) s s' ∧ ∀ i, result = .ok i → i = id := by
  have sent {t : System σ} {id : UInt16} {packet : Bytes} (log : t.log = s.log)
      (written : Packet.encode (r.packet id) = .ok packet) :
      Writes (Entry.Offers (r.packet id)) s (t.afterSend packet) :=
    .trans (.of_log log) (.afterSend t fun a whole => by rwa [← whole] at written)
  cases submitted with
  | exhausted => exact ⟨0, .of_log rfl, nofun⟩
  | @unwritten id => exact ⟨id, .of_log rfl, nofun⟩
  | @requested _ id _ _ _ written =>
    exact ⟨id, sent rfl written, fun i same => (Except.ok.inj same).symm⟩
  | @refused _ id _ _ _ written => exact ⟨id, sent rfl written, nofun⟩

/-- A publish call offers its message without the mark. -/
theorem publish_offers (topic : String) (payload : Bytes) {qos : Qos} (retain : Bool)
    (level : qos ≠ .atMostOnce) :
    Act.Ends (Act.publish topic payload qos retain).run s fun answer s' => ∃ id,
      Writes (Entry.Offers (Packet.Publish.put ⟨false, qos, retain, topic, some id, payload⟩))
        s s' ∧
        ∀ i, answer = .ok (some i) → i = id := by
  unfold Act.publish
  refine Act.after_checkName ?_ fun _ _ => ⟨0, .of_log rfl, nofun⟩
  refine Act.after_ensureConnected (fun _ _ => ?_) fun _ _ => ⟨0, .of_log rfl, nofun⟩
  cases qos with
  | atMostOnce => exact absurd rfl level
  | atLeastOnce | exactlyOnce =>
    rw [Act.try_bind]
    apply (Act.submit_submitted rfl).imp
    intro result s' submitted
    obtain ⟨id, offers, own⟩ := submitted.offers
    cases result with
    | error e => exact ⟨id, offers, nofun⟩
    | ok i => exact ⟨id, offers, fun j same => by cases same; exact own i rfl⟩

omit [Environment σ] in
/-- What restates a message is the message with the mark as long as no other is sent under its
identifier. -/
theorem Restates.encode {m : Packet.Publish} {log log' : List Entry} {older : List Account}
    {account : Account} {packet : Bytes} (restates : Restates id log' packet)
    (opened : accounts id log = { message := m } :: older) (later : log <:+ log')
    (last : accounts id log' = account :: older) : Packet.encode m.again.put = .ok packet := by
  obtain ⟨newer, b, accounts', same⟩ := accounts_later later opened
  obtain ⟨first, rest, latest, -, written⟩ := restates
  rw [last] at latest accounts'
  cases latest
  cases newer with
  | nil =>
    cases accounts'
    rwa [same] at written
  | cons c newer =>
    have longer := congrArg List.length accounts'
    simp at longer
    omega

/-! ## Faithful retransmission -/

theorem Reachable.offers_faithful (reachable : Reachable s) {a : Transport.Attempt}
    {earlier : List Entry} (sent : .sent a :: earlier <:+ s.log) : a.Faithful earlier where
  first q id m whole := ((reachable.again id).1.original _ _ sent q whole).1 id m
  again q id m whole read dup given := by
    refine (reachable.again id).2 _ _ sent ?_
    unfold Packet.isMarked
    simp [whole, read, dup, given]
  answer q whole := ((reachable.again 0).1.original _ _ sent q whole).2
  request _ _ _ asks := (reachable.orderly.of_suffix sent).ne_of_asks asks

/-- **Faithful retransmission.**  A publish call at a higher guarantee offers its message without
the mark, under one identifier, and opens the account of the message if it is answered with that
identifier.  What restates the message later is the message with the mark and nothing else changed.
Every offer of a run is faithful: without the mark messages are new, with it they restate the one
that was waiting, answers in the middle of a handshake are written as such, and requests about
filters are new.  And where the thread looks at its transactions, it picks and sends what is
faithful to the log, and no request about filters. -/
theorem Reachable.resent_faithfully (reachable : Reachable s) :
    (∀ (t : System σ) (topic : String) (payload : Bytes) (qos : Qos) (retain : Bool),
      qos ≠ .atMostOnce →
      Act.Ends (Act.publish topic payload qos retain).run t fun answer t' => ∃ id,
        Writes (Entry.Offers (Packet.Publish.put ⟨false, qos, retain, topic, some id, payload⟩))
          t t' ∧
        ∀ i, answer = .ok (some i) → i = id ∧
          accounts id t'.log =
            { message := ⟨false, qos, retain, topic, some id, payload⟩ } :: accounts id t.log ∧
          ∀ log account packet, t'.log <:+ log → accounts id log = account :: accounts id t.log →
            Restates id log packet →
            Packet.encode (Packet.Publish.put ⟨true, qos, retain, topic, some id, payload⟩) =
              .ok packet) ∧
    (∀ a earlier, .sent a :: earlier <:+ s.log → a.Faithful earlier) ∧
    ∀ {input : Input σ} {force : Bool} {t : System σ}, Looks s input force t →
      (∃ rest : Option Error → Act σ Unit, s.take input = ((Act.scan force >>= rest).run t).2) ∧
      (∀ action ∈ t.picked force, action.Faithful t.log) ∧
      Act.Ends (Act.scan force) t fun _ t' => Writes (Entry.OfLook (t.picked force)) t t' := by
  refine ⟨fun t topic payload qos retain level => ?_, fun _ _ => reachable.offers_faithful,
    fun looks => ?_⟩
  · have called := (publish_offers (s := t) topic payload retain level).and
      (publish_opens (s := t) topic payload retain level)
    refine called.imp fun answer t' ⟨⟨id, offers, own⟩, opens⟩ => ⟨id, offers, fun i answered => ?_⟩
    obtain rfl := own i answered
    have opened := opens i answered
    exact ⟨rfl, opened, fun _ _ _ later last restates => restates.encode opened later last⟩
  · obtain ⟨ordered, sane⟩ := reachable.good
    obtain ⟨steps, busy⟩ := looks.reached ordered sane
    obtain ⟨⟨-, sane'⟩, retained⟩ := steps.keep Retained.keeps ordered sane (reachable.again 0).1
    exact ⟨looks.scans, fun _ picked => retained.faithful busy.here sane' picked,
      Act.scan_ofLook _⟩

end Moves

/-- A client whose message was sent again once when it was not answered in time. -/
def reminded : System Script :=
  inSession.takes
    [.call (.publish "a/b" [7] .exactlyOnce false), .heard (.error .timeout) 0, .turn,
      .outside { clock := 3000 }, .heard (.error .timeout) 0, .turn, .outside { clock := 6000 }]

theorem resent_faithfully_reminded :
    let plain : Bytes := [0x34, 8, 0, 3, 97, 47, 98, 0, 1, 7]
    let marked : Bytes := [0x3C, 8, 0, 3, 97, 47, 98, 0, 1, 7]
    Transport.Attempt.Faithful ⟨plain, plain, .accepted 10⟩ (reminded.log.drop 4) ∧
      Transport.Attempt.Faithful ⟨marked, marked, .accepted 10⟩ (reminded.log.drop 2) ∧
      ∃ t, Looks reminded (.heard (.error .timeout) 0) false t ∧
        t.picked false = [.resend .pubRec 1 2 marked] ∧ Restates 1 t.log marked ∧
        Packet.encode (Packet.Publish.put ⟨true, .exactlyOnce, false, "a/b", some 1, [7]⟩) =
          .ok marked := by
  intro plain marked
  have reachable : Reachable reminded := inSession_reachable.takes _
  have here : reminded.client.place = .listening ⟨65536, 4000, .first 100⟩ := by decide +kernel
  have idle : Looks reminded (.heard (.error .timeout) 0) false (Act.readEnded.run reminded).2 :=
    .idle here rfl
  have picked : (Act.readEnded.run reminded).2.picked false = [.resend .pubRec 1 2 marked] := by
    decide +kernel
  obtain ⟨published, offered, looked⟩ := reachable.resent_faithfully
  have restates : Restates 1 (Act.readEnded.run reminded).2.log marked :=
    (looked idle).2.1 (.resend .pubRec 1 2 marked) (picked ▸ List.mem_cons_self)
  have called := published inSession "a/b" [7] .exactlyOnce false Qos.noConfusion
  have answered : ((Act.publish "a/b" [7] .exactlyOnce false).run.run inSession).1 = .ok (some 1) :=
    Act.ok_of_toOption (by decide +kernel)
  obtain ⟨id, -, own⟩ := called
  obtain ⟨rfl, -, written⟩ := own 1 answered
  refine ⟨offered _ _ (by decide +kernel), offered _ _ (by decide +kernel), _, idle, picked,
    restates, written _ ⟨⟨false, .exactlyOnce, false, "a/b", some 1, [7]⟩, []⟩ _ ?_ ?_ restates⟩
  · decide +kernel
  · decide +kernel

end Mqtt
