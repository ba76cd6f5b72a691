import Mqtt.Proofs.Calls
import Mqtt.Proofs.Packets

/-!
# What transactions keep

A transaction keeps the packet that its acknowledgement answers (`Transaction.Sound`).
A look at a sound transaction leaves it sound, and what it asks to send again is what
the exchange allows to be sent again (`Resendable`): a PUBLISH with its mark, or the
acknowledgement that has not been answered.
-/

namespace Mqtt

namespace Transaction

/-- Whether a transaction keeps a PUBLISH with its own identifier. -/
def Carries (t : Transaction) (qos : Qos) : Prop :=
  ∃ (m : Packet.Publish) (packet : Bytes), t.packet = .request packet ∧
    Packet.encode m.put = .ok packet ∧ m.qos = qos ∧ m.packetId = some t.packetId

/-- Whether a transaction keeps the packet that its acknowledgement answers. -/
def Sound (t : Transaction) : Prop :=
  match t.awaits with
  | .subAck => ∃ packet body, t.packet = .request packet ∧
      Packet.parse? packet = some ⟨.subscribe, 2, body⟩
  | .unsubAck => ∃ packet body, t.packet = .request packet ∧
      Packet.parse? packet = some ⟨.unsubscribe, 2, body⟩
  | .pubAck => t.Carries .atLeastOnce
  | .pubRec => t.Carries .exactlyOnce
  | .pubRel => t.packet = .acknowledgement (Packet.ack .pubRec t.packetId)
  | .pubComp => t.packet = .acknowledgement (Packet.ack .pubRel t.packetId)

end Transaction

/-- What may be sent again while an acknowledgement is waited for. -/
inductive Resendable (id : UInt16) : AckKind → Bytes → Prop
  | pubAck {m : Packet.Publish} {packet : Bytes} : Packet.encode m.put = .ok packet →
    m.dup = true → m.qos = .atLeastOnce → m.packetId = some id → Resendable id .pubAck packet
  | pubRec {m : Packet.Publish} {packet : Bytes} : Packet.encode m.put = .ok packet →
    m.dup = true → m.qos = .exactlyOnce → m.packetId = some id → Resendable id .pubRec packet
  | pubRel : Resendable id .pubRel (Packet.ack .pubRec id)
  | pubComp : Resendable id .pubComp (Packet.ack .pubRel id)

theorem Resendable.isRequest {id : UInt16} {awaits : AckKind} {packet : Bytes}
    (h : Resendable id awaits packet) : awaits.isRequest = false := by
  cases h <;> rfl

/-- The kinds of packets that are sent again. -/
def Packet.Kind.resent : List Packet.Kind :=
  [.publish, .pubRec, .pubRel]

theorem Resendable.parse? {id : UInt16} {awaits : AckKind} {packet : Bytes}
    (h : Resendable id awaits packet) :
    ∃ q, Packet.parse? packet = some q ∧ q.kind ∈ Packet.Kind.resent := by
  cases h with
  | pubAck written | pubRec written =>
    obtain ⟨_, flags, body, _, whole, _⟩ := Packet.Publish.parse?_put written
    exact ⟨_, whole, by simp [Packet.Kind.resent]⟩
  | pubRel | pubComp => exact ⟨_, Packet.parse?_ack _ _, by simp [Packet.Kind.resent]⟩

/-- Whether what an active transaction keeps for an acknowledgement, marked as sent
before, is a packet. -/
def Pending.Asks (p : Pending) (kind : AckKind) (id : UInt16) (packet : Bytes) : Prop :=
  ∃ t ∈ p.active, t.isFor kind id = true ∧ t.packet.markDup.bytes = packet

theorem Stored.markDup_markDup (s : Stored) : s.markDup.markDup = s.markDup := by
  cases s with
  | request packet => exact congrArg request (Packet.markDup_markDup packet)
  | acknowledgement packet => rfl

namespace Transaction

/-- A PUBLISH is kept as a PUBLISH when it is marked. -/
theorem Carries.markDup {t : Transaction} {qos : Qos} (h : t.Carries qos) :
    ∃ (m : Packet.Publish) (packet : Bytes), t.packet.markDup = .request packet ∧
      Packet.encode m.put = .ok packet ∧ m.dup = true ∧ m.qos = qos ∧
      m.packetId = some t.packetId := by
  rcases h with ⟨m, packet, kept, written, level, id⟩
  refine ⟨m.again, Packet.markDup packet, ?_, Packet.Publish.markDup_put written, rfl, level, id⟩
  rw [kept]
  rfl

/-- Soundness looks at what is waited for, the identifier and the packet, and bears the
mark on a PUBLISH. -/
theorem Sound.of_kept {t u : Transaction} (h : t.Sound) (awaits : u.awaits = t.awaits)
    (id : u.packetId = t.packetId)
    (packet : u.packet = t.packet ∨ t.awaits.isPublish = true ∧ u.packet = t.packet.markDup) :
    u.Sound := by
  rcases packet with same | ⟨publish, marked⟩
  · unfold Sound Carries at h ⊢
    rw [awaits, id, same]
    exact h
  · unfold Sound at h ⊢
    rw [awaits]
    cases kind : t.awaits <;> rw [kind] at publish h <;> try cases publish
    all_goals
      obtain ⟨m, packet, kept, written, -, level, own⟩ := Carries.markDup h
      exact ⟨m, packet, by rw [marked, kept], written, level, by rw [own, id]⟩

theorem Sound.look {now limit : UInt32} {force : Bool} {t u : Transaction} (h : t.Sound)
    (looked : (t.look now limit force).1 = some u) : u.Sound := by
  obtain ⟨awaits, id, -, packet⟩ := of_look_eq_some looked
  exact h.of_kept awaits id packet

/-- What a look at a sound transaction asks to send again may be sent again. -/
theorem Sound.resendable {now limit : UInt32} {force : Bool} {t : Transaction} {kind : AckKind}
    {id : UInt16} {retries : UInt32} {packet : Bytes} (h : t.Sound)
    (looked : (t.look now limit force).2 = some (.resend kind id retries packet)) :
    Resendable id kind packet := by
  obtain ⟨u, kept, fits, rfl, lasting, marked⟩ := of_look_resend looked
  obtain ⟨rfl, rfl⟩ := isFor_iff.1 fits
  obtain ⟨awaits, own, -⟩ := of_look_eq_some kept
  have sound := h.look kept
  unfold Sound at h sound
  rw [← awaits] at h
  cases kind : u.awaits <;> rw [kind] at h sound lasting marked <;> dsimp only at h sound
  case subAck | unsubAck => cases lasting
  case pubAck =>
    obtain ⟨m, packet, stored, written, dup, level, id⟩ := Carries.markDup h
    rw [marked rfl, stored]
    exact .pubAck written dup level (by rw [id, own])
  case pubRec =>
    obtain ⟨m, packet, stored, written, dup, level, id⟩ := Carries.markDup h
    rw [marked rfl, stored]
    exact .pubRec written dup level (by rw [id, own])
  case pubRel => rw [sound]; exact .pubRel
  case pubComp => rw [sound]; exact .pubComp

/-- A sound transaction that is sent again asks for the same packet from then on. -/
theorem Sound.again {now limit : UInt32} {force : Bool} {t : Transaction} {kind : AckKind}
    {id : UInt16} {retries : UInt32} {packet : Bytes} (h : t.Sound)
    (looked : (t.look now limit force).2 = some (.resend kind id retries packet)) :
    ∃ u, (t.look now limit force).1 = some u ∧ u.isFor kind id = true ∧
      u.packet.markDup.bytes = packet := by
  obtain ⟨u, kept, fits, rfl, lasting, marked⟩ := of_look_resend looked
  refine ⟨u, kept, fits, ?_⟩
  have awaits := (isFor_iff.1 fits).2
  have sound : u.Sound := h.look kept
  unfold Sound at sound
  rw [awaits] at sound
  cases kind <;> dsimp only at sound
  case subAck | unsubAck => cases lasting
  case pubAck | pubRec => rw [marked rfl, Stored.markDup_markDup]
  case pubRel | pubComp => rw [sound]; rfl

theorem bytes_markDup_of_look {now limit : UInt32} {force : Bool} {t u : Transaction}
    (looked : (t.look now limit force).1 = some u) :
    u.packet.markDup.bytes = t.packet.markDup.bytes := by
  obtain ⟨-, -, -, same | ⟨-, marked⟩⟩ := of_look_eq_some looked
  · rw [same]
  · rw [marked, Stored.markDup_markDup]

end Transaction

/-- What a call registers is sound. -/
theorem Act.Request.Issued.sound {r : Act.Request} (issued : r.Issued) {id : UInt16}
    {packet : Bytes} (written : Packet.encode (r.packet id) = .ok packet) {t : Transaction}
    (awaits : t.awaits = r.awaits) (own : t.packetId = id) (kept : t.packet = .request packet) :
    t.Sound := by
  unfold Transaction.Sound
  rw [awaits]
  cases issued with
  | subscribe =>
    obtain ⟨body, whole⟩ := Packet.Subscribe.parse?_put written
    exact ⟨packet, body, kept, whole⟩
  | unsubscribe =>
    obtain ⟨body, whole⟩ := Packet.Unsubscribe.parse?_put written
    exact ⟨packet, body, kept, whole⟩
  | atLeastOnce topic payload retain => exact ⟨_, packet, kept, written, rfl, by rw [own]⟩
  | exactlyOnce topic payload retain => exact ⟨_, packet, kept, written, rfl, by rw [own]⟩

/-- The packets with which the application asks for something. -/
def Packet.Kind.asked : List Packet.Kind :=
  [.publish, .subscribe, .unsubscribe]

theorem Requested.parse? {packet : Bytes} (h : Requested packet) :
    ∃ q, Packet.parse? packet = some q ∧ q.kind ∈ Packet.Kind.asked := by
  cases h with
  | request issued written =>
    cases issued with
    | subscribe =>
      obtain ⟨body, whole⟩ := Packet.Subscribe.parse?_put written
      exact ⟨_, whole, by simp [Packet.Kind.asked]⟩
    | unsubscribe =>
      obtain ⟨body, whole⟩ := Packet.Unsubscribe.parse?_put written
      exact ⟨_, whole, by simp [Packet.Kind.asked]⟩
    | atLeastOnce | exactlyOnce =>
      obtain ⟨_, flags, body, _, whole, _⟩ := Packet.Publish.parse?_put written
      exact ⟨_, whole, by simp [Packet.Kind.asked]⟩
  | message _ _ written =>
    obtain ⟨_, flags, body, _, whole, _⟩ := Packet.Publish.parse?_put written
    exact ⟨_, whole, by simp [Packet.Kind.asked]⟩

end Mqtt
