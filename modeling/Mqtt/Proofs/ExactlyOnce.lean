import Mqtt.Proofs.Flows

/-!
# Messages received at the highest guarantee

A client that gives up nothing hands on exactly the first message of each flow of the
packets received (`delivered_once`).  It never forgets a flow because the broker lost
the session, so a flow left open on an earlier connection swallows the first message
under its identifier (`swallowed_iff`).
-/

namespace Mqtt

variable {σ : Type} [Environment σ] {s s' : System σ} {p : Inbound} {id : UInt16}

/-! ## What acting on a packet of a flow writes to the log -/

namespace Entry

/-- Whether an entry is the first offer of a packet to the transport. -/
def tries (packet : Bytes) : Entry → Bool
  | .sent a => a.opens && a.whole == packet
  | _ => false

/-- Whether an entry neither hands on a message nor is the first offer of a packet. -/
def Silent (packet : Bytes) (e : Entry) : Prop :=
  e.message? = none ∧ e.tries packet = false

section

variable {packet : Bytes} {new : List Entry}

theorem deliveries_of_silent (silent : ∀ e ∈ new, e.Silent packet) :
    new.filterMap message? = [] :=
  List.filterMap_eq_nil_iff.2 fun e member => (silent e member).1

theorem tries_of_silent (silent : ∀ e ∈ new, e.Silent packet) : new.countP (tries packet) = 0 := by
  rw [List.countP_eq_zero]
  intro e member
  rw [(silent e member).2]
  exact Bool.false_ne_true

/-- Calls hand on no message and acknowledge none. -/
theorem OfCall.silent {e : Entry} (h : e.OfCall) {kind : Packet.Kind}
    (own : kind ∉ Packet.Kind.asked) (id : UInt16) : e.Silent (Packet.ack kind id) := by
  cases e with
  | sent a =>
    refine ⟨rfl, Bool.eq_false_iff.2 fun tries => own ?_⟩
    obtain ⟨-, same⟩ := Bool.and_eq_true_iff.1 tries
    obtain ⟨q, whole, asked⟩ := Requested.parse? h
    rw [eq_of_beq same, Packet.parse?_ack] at whole
    cases whole
    exact asked
  | raised event =>
    cases event <;> first
      | exact ⟨rfl, rfl⟩
      | exact absurd h fun impossible => impossible
  | _ => exact ⟨rfl, rfl⟩

end

end Entry

theorem Warned.silent (warned : Warned s s') {kind : Packet.Kind}
    (own : kind ∉ Packet.Kind.asked) (id : UInt16) :
    Writes (Entry.Silent (Packet.ack kind id)) s s' := by
  rcases warned with rfl | ⟨count, calls⟩
  · exact .of_log rfl
  · have first : Writes (Entry.Silent (Packet.ack kind id)) s
        (s.announce (.pendingWarning count)) := .of_entry rfl ⟨rfl, rfl⟩
    exact first.trans (calls.entries.imp fun _ ofCall => ofCall.silent own id)

/-- Sending over an open transport is one attempt. -/
theorem tries_afterSend (ordered : Ordered s) (linked : s.client.linked = true) {bs : Bytes}
    (more : bs ≠ []) :
    ∃ new, (s.afterSend bs).log = new ++ s.log ∧ new.filterMap Entry.message? = [] ∧
      new.countP (Entry.tries bs) = 1 := by
  obtain ⟨first, later, made, opens, others⟩ := Transport.sendAll_opens Environment.offer
    s.outside more ordered.hasTime
  have offered : s.offers bs = first :: later := by
    unfold System.offers
    rw [if_pos linked]
    exact made
  have own : first.whole = bs := System.whole_of_mem_offers (offered ▸ List.mem_cons_self)
  refine ⟨_, s.afterSend_log bs, ?_, ?_⟩
  · rw [List.filterMap_eq_nil_iff]
    intro e member
    obtain ⟨a, -, rfl⟩ := List.mem_map.1 (List.mem_reverse.1 member)
    rfl
  · have none : (later.map Entry.sent).countP (Entry.tries bs) = 0 := by
      rw [List.countP_eq_zero]
      intro e member
      obtain ⟨a, further, rfl⟩ := List.mem_map.1 member
      simp [Entry.tries, others a further]
    have once : Entry.tries bs (.sent first) = true := by simp [Entry.tries, opens, own]
    rw [List.countP_reverse, offered, List.map_cons, List.countP_cons_of_pos once, none]

namespace Act

/-- Acting on a message at the highest guarantee hands it on unless it is remembered, and
attempts one PUBREC. -/
theorem dispatch_message {m : Packet.Publish} (busy : s.Busy) (ordered : Ordered s)
    (sane : s.client.pending.Sane) (linked : s.client.linked = true)
    (read : p.publish? = some m) (level : m.qos = .exactlyOnce) (own : m.packetId = some id) :
    Ends (dispatch p).run s fun _ s' => ∃ new, s'.log = new ++ s.log ∧
      new.filterMap Entry.message? =
        (if s.client.pending.contains .pubRel id then [] else [m.message]) ∧
      new.countP (Entry.tries (Packet.ack .pubRec id)) = 1 := by
  have answer : Packet.ack .pubRec id ≠ [] := Packet.ne_nil_of_parse? (Packet.parse?_ack _ _)
  rw [dispatch_publish read]
  apply (onPublish_exactlyOnce level own).imp
  intro r s' ended
  rcases ended with ⟨known, -, rfl⟩ |
    ⟨absent, e, s₁, outside, began, s₂, which, calls, warned, -, rfl⟩
  · rw [if_pos known]
    exact tries_afterSend ordered linked answer
  · rw [if_neg (by rw [absent]; exact Bool.false_ne_true)]
    have kept := remembered_turns read level own absent which calls outside began
    obtain ⟨-, ordered', -, linked'⟩ := Turns.hold (I := fun t => t.client.linked = true)
      (fun _ _ busy move open_ => (move.linked busy).trans open_) (kept.trans warned.turns)
      busy ordered sane linked
    obtain ⟨offers, log₃, unspoken, once⟩ := tries_afterSend ordered' linked' answer
    have unasked : Packet.Kind.pubRec ∉ Packet.Kind.asked := by decide
    obtain ⟨later, log₂, silent₂⟩ := warned.silent unasked id
    obtain ⟨new, log₁, ofCall⟩ := calls.entries
    have silent₁ : ∀ e ∈ new, e.Silent (Packet.ack .pubRec id) :=
      fun e member => (ofCall e member).silent unasked id
    refine ⟨offers ++ (later ++ (new ++
      [.raised e s.client (s.client.mask.contains e.kind)])), ?_, ?_, ?_⟩
    · rw [log₃, log₂]
      change offers ++ (later ++ s₁.log) = _
      rw [log₁]
      simp
    · rw [List.filterMap_append, unspoken, List.filterMap_append,
        Entry.deliveries_of_silent silent₂, List.filterMap_append,
        Entry.deliveries_of_silent silent₁]
      rcases which with rfl | rfl <;> rfl
    · rw [List.countP_append, once, List.countP_append, Entry.tries_of_silent silent₂,
        List.countP_append, Entry.tries_of_silent silent₁]
      rfl

/-- Acting on a PUBREL hands on nothing, and attempts one PUBCOMP. -/
theorem dispatch_release (ordered : Ordered s) (linked : s.client.linked = true)
    (read : p.ack? .pubRel = some id) :
    Ends (dispatch p).run s fun _ s' => ∃ new, s'.log = new ++ s.log ∧
      new.filterMap Entry.message? = [] ∧
      new.countP (Entry.tries (Packet.ack .pubComp id)) = 1 := by
  have answer : Packet.ack .pubComp id ≠ [] := Packet.ne_nil_of_parse? (Packet.parse?_ack _ _)
  rw [dispatch_pubRel read]
  refine onPubRel_ends.imp fun r s' ⟨_, ended⟩ => ?_
  subst ended
  refine tries_afterSend (s := s.change (·.without .pubRel id)) ?_ linked answer
  exact ordered.of_frame rfl ⟨0, by rw [Client.pass_zero]; rfl⟩ rfl ordered.condemned
    ordered.valid rfl

end Act

/-! ## Messages that are handed on -/

/-- What holds of a flow as the thread turns to a packet that opens it. -/
theorem Reachable.reading {reader : Frame.Reader} (reachable : Reachable s)
    (here : s.client.place = .listening reader) (p : Inbound) :
    (s.reading p).Busy ∧ Ordered (s.reading p) ∧ (s.reading p).client.pending.Sane ∧
      (s.reading p).client.linked = true := by
  obtain ⟨ordered, sane⟩ := reachable.good
  have told : Turns none (s.accept p) (s.reading p) := (reading_warned s p).turns
  exact told.hold (I := fun t => t.client.linked = true)
    (fun _ _ busy move linked => (move.linked busy).trans linked) (accept_busy ordered here p)
    (ordered.accept here p) sane.migrate (ordered.listening reader here).1

/-- Between reading a packet and acting on it, flows are left alone or given up. -/
theorem Reachable.bear {I : System σ → Prop} {reader : Frame.Reader} (reachable : Reachable s)
    (here : s.client.place = .listening reader) (p : Inbound) (id : UInt16)
    (undisturbed : ∀ {t t' : System σ}, Undisturbed id t t' → I t → I t')
    (forgotten : ∀ {t t' : System σ}, Forgotten id t t' → I t → I t')
    (start : I (s.accept p)) : I (s.reading p) := by
  have ⟨ordered, sane⟩ := reachable.good
  have told : Turns none (s.accept p) (s.reading p) := (reading_warned s p).turns
  exact told.bear (accept_busy ordered here p) sane.migrate undisturbed forgotten start

theorem Reachable.turning {reader : Frame.Reader} (reachable : Reachable s)
    (here : s.client.place = .listening reader)
    (concerned : p.opensFlow id = true ∨ p.endsFlow id = true) : Turning p id (s.reading p) := by
  have ⟨ordered, sane⟩ := reachable.good
  exact reachable.bear here p id Turning.undisturbed Turning.forgotten
    ((reachable.remembers id).turning ordered sane here concerned)

/-- What is open of a flow as the thread turns to a message of it, by the packets received:
as long as the application did not give it up, what was open before. -/
theorem Reachable.reading_plain {reader : Frame.Reader} (reachable : Reachable s)
    (here : s.client.place = .listening reader) (unended : p.endsFlow id = false) :
    Entry.GaveUp (s.reading p).log .pubRel id ∨
      Entry.flow id (s.reading p).log = Inbound.flowOpen id (Entry.attended s.log) := by
  have ordered := reachable.good.1
  have heard : Entry.isFresh s.log = false := ordered.connected (ordered.listening reader here).2
  let I (t : System σ) : Prop := Entry.GaveUp t.log .pubRel id ∨
    Entry.flow id t.log = Inbound.flowOpen id (Entry.attended s.log)
  have start : I (s.accept p) := by
    have flow : Entry.flow id (.received p :: s.log) = Entry.flow id s.log := by
      rw [Entry.flow_received heard, unended]
      rfl
    rcases (reachable.remembers id).plain with gaveUp | plain
    · exact Or.inl (gaveUp.append [.received p])
    · exact Or.inr (flow.trans plain)
  refine reachable.bear (I := I) here p id ?_ ?_ start
  · intro t t' same before
    rcases same with ⟨-, new, log, still⟩
    rcases before with gaveUp | plain
    · left
      rw [log]
      exact gaveUp.append new
    · right
      rw [log, Entry.flow_append _ still]
      exact plain
  · intro t t' given before
    rcases given with ⟨-, -, e, log, forgets⟩
    left
    rw [log]
    exact Entry.gaveUp_of_forgets forgets

/-- What is open of a flow as the thread turns to the first packet of it on a connection:
what was left open before. -/
theorem Reachable.reading_since {reader : Frame.Reader} (reachable : Reachable s)
    (here : s.client.place = .listening reader) (unended : p.endsFlow id = false)
    (first : ∀ q ∈ Entry.session s.log, q.opensFlow id = false ∧ q.endsFlow id = false) :
    Entry.flow id (s.reading p).log = Entry.leftOpen id (s.reading p).log := by
  have ordered := reachable.good.1
  have heard : Entry.isFresh s.log = false := ordered.connected (ordered.listening reader here).2
  let I (t : System σ) : Prop := Entry.flow id t.log = Entry.leftOpen id t.log
  have start : I (s.accept p) := by
    change Entry.flow id (.received p :: s.log) = Entry.leftOpen id (.received p :: s.log)
    rw [Entry.flow_received heard, unended, (reachable.remembers id).since first]
    rfl
  refine reachable.bear (I := I) here p id ?_ ?_ start
  · intro t t' same before
    rcases same with ⟨-, new, log, still⟩
    change Entry.flow id t'.log = Entry.leftOpen id t'.log
    rw [log, Entry.flow_append _ still, Entry.leftOpen_append _ still]
    exact before
  · intro t t' given before
    rcases given with ⟨-, -, e, log, forgets⟩
    change Entry.flow id t'.log = Entry.leftOpen id t'.log
    rw [log, Entry.flow_of_forgets forgets, Entry.leftOpen_of_forgets forgets]

/-- **Exactly once.**  Of the messages at the highest guarantee under one identifier that
came since the client was made, or since the last PUBREL for them, acting on the first
hands it on and acting on a later one hands on nothing, unless the application gave the
flow up; acting on each attempts one PUBREC, and acting on each PUBREL one PUBCOMP. -/
theorem delivered_once (reachable : Reachable s) {reader : Frame.Reader}
    (here : s.client.place = .listening reader) (p : Inbound) (id : UInt16)
    (kept : ¬ Entry.GaveUp (s.reading p).log .pubRel id) :
    (∀ m : Packet.Publish, p.publish? = some m → m.qos = .exactlyOnce → m.packetId = some id →
      Act.Ends (Act.dispatch p).run (s.reading p) fun _ s' =>
        ∃ new, s'.log = new ++ (s.reading p).log ∧
          new.filterMap Entry.message? =
            (if Inbound.flowOpen id (Entry.attended s.log) then [] else [m.message]) ∧
          new.countP (Entry.tries (Packet.ack .pubRec id)) = 1) ∧
    (p.ack? .pubRel = some id →
      Act.Ends (Act.dispatch p).run (s.reading p) fun _ s' =>
        ∃ new, s'.log = new ++ (s.reading p).log ∧
          new.filterMap Entry.message? = [] ∧
          new.countP (Entry.tries (Packet.ack .pubComp id)) = 1) := by
  obtain ⟨busy, ordered, sane, linked⟩ := reachable.reading here p
  refine ⟨fun m read level own => ?_, fun read => Act.dispatch_release ordered linked read⟩
  have opens : p.opensFlow id = true := Inbound.opensFlow_iff.2 ⟨m, read, level, own⟩
  have known := (reachable.turning here (Or.inl opens)).known opens
  have unended := Inbound.endsFlow_of_opensFlow opens id
  have flow : Entry.flow id (s.reading p).log = Inbound.flowOpen id (Entry.attended s.log) :=
    (reachable.reading_plain here unended).resolve_left kept
  rw [← flow, ← known]
  exact Act.dispatch_message busy ordered sane linked read level own

/-- A client that remembers a message under identifier 5. -/
def remembering : System Script :=
  inSession.takes
    [.heard (.ok [0x34, 8]) 0, .heard (.ok [0, 3, 97, 47, 98, 0, 5, 7]) 0, .turn]

theorem remembering_reachable : Reachable remembering :=
  inSession_reachable.takes _

/-- The same message, sent again. -/
def repeated : Inbound :=
  ⟨.publish, 12, [0, 3, 97, 47, 98, 0, 5, 7]⟩

theorem delivered_once_repeated :
    Act.Ends (Act.dispatch repeated).run (remembering.reading repeated) fun _ s' =>
      ∃ new, s'.log = new ++ (remembering.reading repeated).log ∧
        new.filterMap Entry.message? = [] ∧
        new.countP (Entry.tries (Packet.ack .pubRec 5)) = 1 := by
  have read : repeated.publish? = some ⟨true, .exactlyOnce, false, "a/b", some 5, [7]⟩ := rfl
  have here : remembering.client.place = .listening ⟨65536, 4000, .first 100⟩ := by decide +kernel
  have unforgotten : ∀ e ∈ (remembering.reading repeated).log, e.forgets 5 = false := by
    decide +kernel
  have kept : ¬ Entry.GaveUp (remembering.reading repeated).log .pubRel 5 := by
    intro given
    rcases given with ⟨topic, client, told, member⟩
    cases unforgotten _ member
  have opened : Inbound.flowOpen 5 (Entry.attended remembering.log) = true := by decide +kernel
  have acted := (delivered_once remembering_reachable here repeated 5 kept).1 _ read rfl rfl
  rw [if_pos opened] at acted
  exact acted

/-- **Lost sessions.**  Whatever the broker's greeting says of its session, the first message
at the highest guarantee under an identifier on a connection is swallowed exactly where an
earlier connection left a flow open under the identifier and the application did not
give it up since. -/
theorem swallowed_iff (reachable : Reachable s) {reader : Frame.Reader}
    (here : s.client.place = .listening reader) {p : Inbound} {m : Packet.Publish} {id : UInt16}
    (read : p.publish? = some m) (level : m.qos = .exactlyOnce) (own : m.packetId = some id)
    (first : ∀ q ∈ Entry.session s.log, q.opensFlow id = false ∧ q.endsFlow id = false) :
    Act.Ends (Act.dispatch p).run (s.reading p) fun _ s' =>
      ∃ new, s'.log = new ++ (s.reading p).log ∧
        new.filterMap Entry.message? =
          (if Entry.leftOpen id (s.reading p).log then [] else [m.message]) ∧
        new.countP (Entry.tries (Packet.ack .pubRec id)) = 1 := by
  obtain ⟨busy, ordered, sane, linked⟩ := reachable.reading here p
  have opens : p.opensFlow id = true := Inbound.opensFlow_iff.2 ⟨m, read, level, own⟩
  have known := (reachable.turning here (Or.inl opens)).known opens
  have unended := Inbound.endsFlow_of_opensFlow opens id
  have flow : Entry.flow id (s.reading p).log = Entry.leftOpen id (s.reading p).log :=
    reachable.reading_since here unended first
  rw [← flow, ← known]
  exact Act.dispatch_message busy ordered sane linked read level own

/-- A client that lost its connection in the middle of a handshake, and reads again in a
session of which the broker had nothing. -/
def reconnected : System Script :=
  remembering.takes
    [.heard (.ok []) 0, .turn, .intervalPassed, .turn, .dialled (.ok ()),
      .heard (.ok [0x20, 2]) 0, .heard (.ok [0, 0]) 0, .turn]

/-- Another message under the same identifier. -/
def reused : Inbound :=
  ⟨.publish, 4, [0, 3, 97, 47, 98, 0, 5, 8]⟩

theorem swallowed_iff_reused :
    Act.Ends (Act.dispatch reused).run (reconnected.reading reused) fun _ s' =>
      ∃ new, s'.log = new ++ (reconnected.reading reused).log ∧
        new.filterMap Entry.message? = [] ∧
        new.countP (Entry.tries (Packet.ack .pubRec 5)) = 1 := by
  have read : reused.publish? = some ⟨false, .exactlyOnce, false, "a/b", some 5, [8]⟩ := rfl
  have here : reconnected.client.place = .listening ⟨65536, 4000, .first 100⟩ := by decide +kernel
  have left : Entry.leftOpen 5 (reconnected.reading reused).log = true := by decide +kernel
  have first : ∀ q ∈ Entry.session reconnected.log,
      q.opensFlow 5 = false ∧ q.endsFlow 5 = false := by decide +kernel
  have reachable : Reachable reconnected := remembering_reachable.takes _
  have acted := swallowed_iff reachable here read rfl rfl first
  rw [if_pos left] at acted
  exact acted

end Mqtt
