import Mqtt.Proofs.Lapses
import Mqtt.Proofs.Reach

/-!
# Transports and attempts, read off the log

`Line` follows one transport after the other: whether one is open, and what passed over it.
`Bond` follows the attempts to connect and the sessions that come of them.  Either reading
of a log fails at the first entry that should not stand there.  A client stands `At` a line
and a bond when its log reads so and its own state agrees, and a lapse leaves it there.
-/

namespace Mqtt

/-- The kind of a packet. -/
def Packet.kind? (packet : Bytes) : Option Packet.Kind :=
  (parse? packet).map (·.kind)

theorem Packet.IsInner.kind? {packet : Bytes} (h : IsInner packet) :
    ∃ kind, Packet.kind? packet = some kind ∧ kind ∉ Kind.steering := by
  obtain ⟨q, whole, inner⟩ := h
  exact ⟨q.kind, by rw [Packet.kind?, whole]; rfl, inner⟩

/-! ## The transport -/

/-- How far a transport has come. -/
inductive Line where
  /-- None is open. -/
  | shut
  /-- One is open, and nothing passed over it. -/
  | fresh
  /-- CONNECT was offered, and is all that was. -/
  | greeting (connect : Bytes)
  /-- The first packet read accepted the session. -/
  | standing
  /-- The first packet read did not. -/
  | refused
  /-- DISCONNECT was offered. -/
  | parting
  deriving DecidableEq

namespace Line

/-- An offer is made: first of CONNECT, of that alone until the session is accepted, then
of any other packet, and of none after DISCONNECT. -/
def offered? : Line → Transport.Attempt → Option Line
  | .fresh, a =>
    if a.opens ∧ Packet.kind? a.whole = some .connect then some (.greeting a.whole) else none
  | .greeting connect, a => if ¬ a.opens ∧ a.whole = connect then some (.greeting connect) else none
  | .standing, a =>
    match Packet.kind? a.whole with
    | some .connect => none
    | some .disconnect => some .parting
    | _ => some .standing
  | .parting, a =>
    if ¬ a.opens ∧ Packet.kind? a.whole = some .disconnect then some .parting else none
  | .shut, _ | .refused, _ => none

/-- A packet is read: the answer to CONNECT, and more only where it accepts the session. -/
def heard? : Line → Inbound → Option Line
  | .greeting _, p =>
    match Act.greetingStatus p with
    | .ok _ => some .standing
    | .error _ => some .refused
  | .standing, _ => some .standing
  | _, _ => none

/-- A transport is opened only where none is open, and closed only where one is. -/
def after? (line : Line) : Entry → Option Line
  | .dialled .. => if line = .shut then some .shut else none
  | .opened => if line = .shut then some .fresh else none
  | .sent a => line.offered? a
  | .received p => line.heard? p
  | .closed => if line = .shut then none else some .shut
  | _ => some line

/-- Where the transports of a log have come to, if none of them went astray. -/
def read? (log : List Entry) : Option Line :=
  log.foldrM (fun e line => line.after? e) .shut

-- Two transports are never open at a time.
example :
    read? [.opened, .dialled "broker" 1883 5000, .opened, .dialled "broker" 1883 5000] = none := by
  decide

end Line

/-! ## Attempts and sessions -/

/-- How far an attempt to connect has come. -/
inductive Bond where
  /-- None is under way, and no session stands. -/
  | apart
  | trying
  /-- The application was told of a session. -/
  | bound
  deriving DecidableEq

namespace Bond

/-- How an attempt or a session may end: a session does not fail to begin. -/
def Ends : Bond → DisconnectReason → Prop
  | .apart, _ => False
  | .trying, _ => True
  | .bound, .connectFailed _ => False
  | .bound, _ => True

instance (bond : Bond) (reason : DisconnectReason) : Decidable (bond.Ends reason) := by
  cases bond <;> cases reason <;> unfold Ends <;> infer_instance

/-- An attempt begins when nothing stands, and what it comes to is told once. -/
def after? (bond : Bond) : Entry → Option Bond
  | .dialled .. => if bond = .apart then some .trying else none
  | .raised (.connected _) _ _ => if bond = .trying then some .bound else none
  | .raised (.disconnected reason) _ _ => if bond.Ends reason then some .apart else none
  | _ => some bond

/-- Where the attempts of a log have come to, if each was told of as it should. -/
def read? (log : List Entry) : Option Bond :=
  log.foldrM (fun e bond => bond.after? e) .apart

end Bond

/-! ## Readings of longer logs -/

namespace Line

variable {line line' : Line} {e : Entry} {log : List Entry}

theorem read?_cons (read : read? log = some line) (next : line.after? e = some line') :
    read? (e :: log) = some line' := by
  rw [read?, List.foldrM_cons, ← read?, read]
  exact next

/-- Entries that each leave a line where it is do so together. -/
theorem read?_append {new : List Entry} (read : read? log = some line)
    (still : ∀ e ∈ new, line.after? e = some line) : read? (new ++ log) = some line := by
  induction new with
  | nil => exact read
  | cons e new ih =>
    exact read?_cons (ih fun e member => still e (List.mem_cons_of_mem _ member))
      (still e List.mem_cons_self)

/-- Offers of which only the first may move a line. -/
theorem read?_offers {first : Transport.Attempt} {later : List Transport.Attempt}
    (read : read? log = some line) (begun : line.offered? first = some line')
    (still : ∀ a ∈ later, line'.offered? a = some line') :
    read? (((first :: later).map Entry.sent).reverse ++ log) = some line' := by
  rw [List.map_cons, List.reverse_cons, List.append_assoc]
  refine read?_append (read?_cons read begun) fun e member => ?_
  obtain ⟨a, offered, rfl⟩ := List.mem_map.1 (List.mem_reverse.1 member)
  exact still a offered

end Line

namespace Bond

variable {bond bond' : Bond} {e : Entry} {log : List Entry}

theorem read?_cons (read : read? log = some bond) (next : bond.after? e = some bond') :
    read? (e :: log) = some bond' := by
  rw [read?, List.foldrM_cons, ← read?, read]
  exact next

theorem read?_append {new : List Entry} (read : read? log = some bond)
    (still : ∀ e ∈ new, bond.after? e = some bond) : read? (new ++ log) = some bond := by
  induction new with
  | nil => exact read
  | cons e new ih =>
    exact read?_cons (ih fun e member => still e (List.mem_cons_of_mem _ member))
      (still e List.mem_cons_self)

end Bond

/-! ## Lines and bonds of clients -/

/-- What may be written in a lapse leaves a session where it stands. -/
theorem Entry.Within.standing {c : Client} {e : Entry} (h : e.Within c) :
    Line.standing.after? e = some .standing := by
  cases e with
  | dialled | opened | closed | received | obeyed => cases h
  | sent a =>
    obtain ⟨-, -, inner⟩ := h
    obtain ⟨kind, named, free⟩ := inner.kind?
    simp only [Line.after?, Line.offered?, named]
    revert free
    cases kind <;> decide
  | _ => rfl

variable {σ : Type} {s s' : System σ} {line : Line} {bond : Bond}

/-- Where a client stands: how its log reads, and what its own state has to say of it.
Over an open transport calls can send only once the session was accepted. -/
structure At (s : System σ) (line : Line) (bond : Bond) : Prop where
  transport : Line.read? s.log = some line
  attempt : Bond.read? s.log = some bond
  linked : s.client.linked = true ↔ line ≠ .shut
  session : s.client.phase = .connected → line = .shut ∨ line = .standing

namespace At

/-- The client may change where transport and phase stay. -/
theorem of_eq (h : At s line bond) (log : s'.log = s.log)
    (linked : s'.client.linked = s.client.linked) (phase : s'.client.phase = s.client.phase) :
    At s' line bond :=
  ⟨log ▸ h.transport, log ▸ h.attempt, by rw [linked]; exact h.linked,
    by rw [phase]; exact h.session⟩

/-- An entry that does not move the line. -/
theorem note {bond' : Bond} {e : Entry} (h : At s line bond) (still : line.after? e = some line)
    (next : bond.after? e = some bond') : At (s.note e) line bond' :=
  ⟨Line.read?_cons h.transport still, Bond.read?_cons h.attempt next, h.linked, h.session⟩

theorem close (h : At s line bond) : At s.close .shut bond := by
  have linked : s.close.client.linked = true ↔ Line.shut ≠ .shut := by
    rw [System.close_client]
    exact ⟨Bool.noConfusion, fun differ => absurd rfl differ⟩
  by_cases opened : s.client.linked = true
  · have log : s.close.log = .closed :: s.log := by rw [System.close_log, if_pos opened]
    have next : line.after? .closed = some .shut := if_neg (h.linked.1 opened)
    exact ⟨log ▸ Line.read?_cons h.transport next, log ▸ Bond.read?_cons h.attempt rfl, linked,
      fun _ => Or.inl rfl⟩
  · have log : s.close.log = s.log := by rw [System.close_log, if_neg opened]
    have shut : line = .shut := Decidable.byContradiction fun differ => opened (h.linked.2 differ)
    exact ⟨log ▸ shut ▸ h.transport, log ▸ h.attempt, linked, fun _ => Or.inl rfl⟩

/-- The phase changes, to that of a session only once it was accepted. -/
theorem enter (h : At s line bond) {f : Client → Client}
    (linked : (f s.client).linked = s.client.linked)
    (session : (f s.client).phase = .connected → line = .shut ∨ line = .standing) :
    At (s.change f) line bond :=
  ⟨h.transport, h.attempt, by rw [System.change_client, linked]; exact h.linked, session⟩

/-- The application is told that an attempt or a session has ended. -/
theorem told (h : At s line bond) {reason : DisconnectReason} (ends : bond.Ends reason) :
    At (s.announce (.disconnected reason)) line .apart :=
  h.note rfl (if_pos ends)

/-- What may be written in a lapse moves nothing. -/
theorem unmoved {e : Entry} (h : At s line bond) (within : e.Within s.client) :
    line.after? e = some line ∧ bond.after? e = some bond := by
  cases e with
  | dialled | opened | closed | received | obeyed => cases within
  | sent a =>
    have standing : line = .standing :=
      (h.session within.1).resolve_left (h.linked.1 within.2.1)
    rw [standing]
    exact ⟨Entry.Within.standing within, rfl⟩
  | raised event => cases event <;> first | exact ⟨rfl, rfl⟩ | exact absurd trivial within
  | _ => exact ⟨rfl, rfl⟩

theorem lapse [Environment σ] (h : At s line bond) (lapse : Lapse s s') (begun : s.Begun) :
    At s' line bond := by
  have still := lapse.still begun
  obtain ⟨new, log, within, -⟩ := still.entries
  refine ⟨?_, ?_, by rw [still.linked]; exact h.linked, by rw [still.phase]; exact h.session⟩
  · rw [log]
    exact Line.read?_append h.transport fun e member => (h.unmoved (within e member)).1
  · rw [log]
    exact Bond.read?_append h.attempt fun e member => (h.unmoved (within e member)).2

end At

/-! ## Sending -/

variable [Environment σ]

/-- A packet is offered as a whole first and then in parts, or cannot be offered at all. -/
theorem System.offers_cases (s : System σ) {bs : Bytes} (more : bs ≠ []) :
    s.offers bs = [] ∧ (∃ e, s.sendResult bs = .error e) ∨
      ∃ first later, s.offers bs = first :: later ∧ first.opens = true ∧
        ∀ a ∈ later, a.opens = false := by
  by_cases linked : s.client.linked = true
  · by_cases time : s.client.config.commandTimeout.toNat = 0
    · left
      have sending : s.sending bs = ⟨.error .timeout, [], 0, s.outside⟩ := by
        rw [sending, Transport.sendAll, Transport.sendRest, dif_neg more, if_pos time]
      rw [offers, if_pos linked, sendResult, if_pos linked, sending]
      exact ⟨rfl, _, rfl⟩
    · right
      rw [offers, if_pos linked]
      exact Transport.sendAll_opens Environment.offer s.outside more time
  · left
    rw [offers, if_neg linked, sendResult, if_neg linked]
    exact ⟨rfl, _, rfl⟩

namespace At

/-- Sending moves the line as the first offer does, if any is made. -/
theorem afterSend (h : At s line bond) {packet : Bytes} (line' : Line) (more : packet ≠ [])
    (begun : ∀ a : Transport.Attempt, a.whole = packet → a.opens = true →
      line.offered? a = some line')
    (still : ∀ a : Transport.Attempt, a.whole = packet → a.opens = false →
      line'.offered? a = some line') :
    (∃ e, s.sendResult packet = .error e) ∧ Line.read? (s.afterSend packet).log = some line ∨
      Line.read? (s.afterSend packet).log = some line' := by
  rw [System.afterSend_log]
  rcases s.offers_cases more with ⟨none, failed⟩ | ⟨first, later, made, opens, others⟩
  · rw [none]
    exact Or.inl ⟨failed, h.transport⟩
  · right
    have own {a : Transport.Attempt} (member : a ∈ first :: later) : a.whole = packet :=
      System.whole_of_mem_offers (made ▸ member)
    rw [made]
    exact Line.read?_offers h.transport (begun first (own List.mem_cons_self) opens)
      fun a member => still a (own (List.mem_cons_of_mem _ member)) (others a member)

/-- Offers are nothing to the attempts. -/
theorem bond_afterSend (h : At s line bond) (packet : Bytes) :
    Bond.read? (s.afterSend packet).log = some bond := by
  rw [System.afterSend_log]
  refine Bond.read?_append h.attempt fun e member => ?_
  obtain ⟨a, -, rfl⟩ := List.mem_map.1 (List.mem_reverse.1 member)
  rfl

/-- CONNECT goes over a transport just opened. -/
theorem salute (h : At s .fresh bond) (unconnected : s.client.phase ≠ .connected)
    {connect : Packet.Connect} {packet : Bytes} (written : Packet.encode connect.put = .ok packet) :
    (∃ e, s.sendResult packet = .error e) ∧ At (s.afterSend packet) .fresh bond ∨
      At (s.afterSend packet) (.greeting packet) bond := by
  obtain ⟨body, whole⟩ := Packet.Connect.parse?_put written
  have named : Packet.kind? packet = some .connect := by rw [Packet.kind?, whole]; rfl
  have linked : s.client.linked = true := h.linked.2 Line.noConfusion
  have opened : (s.afterSend packet).client.linked = true := by simpa using linked
  have absurdly {P : Prop} (connected : (s.afterSend packet).client.phase = .connected) : P := by
    rw [System.afterSend_client, Client.pass_phase] at connected
    exact absurd connected unconnected
  have sent := h.afterSend (.greeting packet) (Packet.ne_nil_of_parse? whole)
    (fun a own opens => by rw [Line.offered?, own, if_pos ⟨opens, named⟩])
    fun a own later => by rw [Line.offered?, if_pos ⟨by simp [later], own⟩]
  refine sent.imp (fun ⟨failed, read⟩ => ⟨failed, ?_⟩) fun read => ?_
  · exact ⟨read, h.bond_afterSend packet, ⟨fun _ => Line.noConfusion, fun _ => opened⟩, absurdly⟩
  · exact ⟨read, h.bond_afterSend packet, ⟨fun _ => Line.noConfusion, fun _ => opened⟩, absurdly⟩

/-- After DISCONNECT the transport is closed. -/
theorem part (h : At s .standing bond) : At (s.afterSend Packet.disconnect).close .shut bond := by
  have linked : s.client.linked = true := h.linked.2 Line.noConfusion
  have opened : (s.afterSend Packet.disconnect).client.linked = true := by simpa using linked
  have sent := h.afterSend .parting (by decide : Packet.disconnect ≠ [])
    (fun a own opens => by rw [Line.offered?, own]; rfl)
    fun a own later => by rw [Line.offered?, own, if_pos ⟨by simp [later], rfl⟩]
  have log : (s.afterSend Packet.disconnect).close.log =
      .closed :: (s.afterSend Packet.disconnect).log := by rw [System.close_log, if_pos opened]
  refine ⟨?_, ?_, ?_, fun _ => Or.inl rfl⟩
  · rw [log]
    rcases sent with ⟨-, read⟩ | read
    · exact Line.read?_cons read rfl
    · exact Line.read?_cons read rfl
  · rw [log]
    exact Bond.read?_cons (h.bond_afterSend _) rfl
  · rw [System.close_client]
    exact ⟨Bool.noConfusion, fun differ => absurd rfl differ⟩

/-- PINGREQ goes within a session. -/
theorem ping (h : At s .standing bond) : At (s.afterSend Packet.pingReq) .standing bond := by
  have sent := h.afterSend .standing (by decide : Packet.pingReq ≠ [])
    (fun a own opens => by rw [Line.offered?, own]; rfl)
    fun a own later => by rw [Line.offered?, own]; rfl
  refine ⟨sent.elim And.right id, h.bond_afterSend _, ?_, fun _ => Or.inr rfl⟩
  simpa using h.linked

end At

end Mqtt
