import Mqtt.Proofs.Calls
import Mqtt.Proofs.Reach

/-!
# Requests that fail

A request is on record before its first octet is sent, so sending that fails at whatever
octet leaves it to be taken back.  What is taken back is found by what it waits for and by
its identifier, which stands for nothing else: it was free when the request got it.  So a
call that asks something of the broker either changes nothing that is kept of requests, or
keeps all that it asked for and got its packet out whole (`requests_rollBack`).
-/

namespace Mqtt

/-- What a call gives the transport to send. -/
inductive Outgoing
  /-- A request that is kept until it is answered. -/
  | request (r : Act.Request)
  /-- A message of which nothing is kept. -/
  | message (m : Packet.Publish)

namespace Outgoing

/-- A request for filters, about the first of them. -/
def subscribe? (filters : List (String × Qos)) : Option Outgoing :=
  filters.head?.map fun subject =>
    .request ⟨.subAck, fun id => Packet.Subscribe.put ⟨id, filters⟩, subject, filters⟩

/-- A request to drop filters, about the first of them. -/
def unsubscribe? (filters : List String) : Option Outgoing :=
  filters.head?.map fun first =>
    .request ⟨.unsubAck, fun id => Packet.Unsubscribe.put ⟨id, filters⟩, (first, .atMostOnce),
      filters.map fun filter => (filter, .atMostOnce)⟩

/-- A message with the answer that its guarantee waits for. -/
def publish (topic : String) (payload : Bytes) (qos : Qos) (retain : Bool) : Outgoing :=
  let packet (id : Option UInt16) : Packet.Publish := ⟨false, qos, retain, topic, id, payload⟩
  match qos with
  | .atMostOnce => .message (packet none)
  | .atLeastOnce => .request ⟨.pubAck, fun id => (packet (some id)).put, (topic, qos), []⟩
  | .exactlyOnce => .request ⟨.pubRec, fun id => (packet (some id)).put, (topic, qos), []⟩

end Outgoing

namespace Call

/-- What a call asks of the broker, if its arguments name anything. -/
def outgoing? : Call → Option Outgoing
  | .subscribe filter qos => Outgoing.subscribe? [(filter, qos)]
  | .subscribeAll filters => Outgoing.subscribe? filters
  | .unsubscribe filter => Outgoing.unsubscribe? [filter]
  | .unsubscribeAll filters => Outgoing.unsubscribe? filters
  | .publish topic payload qos retain => some (Outgoing.publish topic payload qos retain)
  | _ => none

/-- Whether a call asks something of the broker. -/
def asksBroker : Call → Bool
  | .subscribe .. | .subscribeAll _ | .unsubscribe _ | .unsubscribeAll _ | .publish .. => true
  | _ => false

end Call

/-- Whether nothing is kept of requests in one system but what is in another. -/
structure SameRequests {σ : Type} (s s' : System σ) : Prop where
  pending : s'.client.pending = s.client.pending
  subscriptions : s'.client.subscriptions = s.client.subscriptions

/-- Whether all that was written from one system to another are offers, in this order. -/
def Offers {σ : Type} (offers : List Transport.Attempt) (s s' : System σ) : Prop :=
  s'.log = (offers.map Entry.sent).reverse ++ s.log

/-- Whether a packet was offered, and nothing else, and the transport took all of it. -/
def GotOut {σ : Type} (packet : Bytes) (s s' : System σ) : Prop :=
  ∃ offers, Offers offers s s' ∧ (∀ a ∈ offers, a.whole = packet) ∧
    offers.flatMap Transport.Attempt.taken = packet

/-- How a call that sends something can end. -/
inductive Settles {σ : Type} (s : System σ) (out : Option Outgoing) : Reply → System σ → Prop
  /-- With all as it was, whatever was offered. -/
  | failed (e : Error) {offers : List Transport.Attempt} {s' : System σ} :
    Offers offers s s' → SameRequests s s' → Settles s out (.failed e) s'
  /-- With its request on record and out: one more transaction is staged, in front since those
  staged stand the latest first, and the topics of the request are listed behind the others. -/
  | kept {r : Act.Request} {id : UInt16} {packet : Bytes} (began : UInt32) {s' : System σ} :
    out = some (.request r) → Packet.encode (r.packet id) = .ok packet → GotOut packet s s' →
    s'.client.pending.active = s.client.pending.active →
    s'.client.pending.staged =
      { awaits := r.awaits
        packetId := id
        retries := 0
        timer := ⟨began, s.client.config.ackTimeout⟩
        packet := .request packet
        subject := .asked r.subject.1 r.subject.2 id } :: s.client.pending.staged →
    s'.client.pending.threshold = s.client.pending.threshold →
    s'.client.subscriptions.entries =
      s.client.subscriptions.entries ++ r.listed.map (fun (topic, qos) => .asked topic qos id) →
    Settles s out (.packetId (some id)) s'
  /-- With its message out. -/
  | sent {m : Packet.Publish} {packet : Bytes} {s' : System σ} :
    out = some (.message m) → Packet.encode m.put = .ok packet → GotOut packet s s' →
    SameRequests s s' → Settles s out (.packetId none) s'

variable {σ : Type} [Environment σ] {s s' : System σ}

/-- Octets that were sent well were all taken. -/
theorem System.taken_offers {bs : Bytes} (sent : s.sendResult bs = .ok ()) :
    (s.offers bs).flatMap Transport.Attempt.taken = bs := by
  by_cases linked : s.client.linked = true
  · rcases System.sendResult_of_linked linked bs with ⟨ended, -⟩ | ⟨e, -, failed⟩
    · have course := Transport.sendAll_course Environment.offer bs
        s.client.config.commandTimeout.toNat s.outside
      rw [System.offers, if_pos linked]
      rcases course.taken with ⟨-, all⟩ | ⟨⟨e, ill⟩, -⟩
      · exact all
      · cases ended.symm.trans ill
    · cases failed.symm.trans sent
  · rw [System.sendResult, if_neg linked] at sent
    cases sent

theorem System.afterSend_gotOut {bs : Bytes} (sent : s.sendResult bs = .ok ()) :
    GotOut bs s (s.afterSend bs) :=
  ⟨_, s.afterSend_log bs, fun _ => System.whole_of_mem_offers, System.taken_offers sent⟩

namespace Act

/-- The answer to a call that submits a request. -/
def replyOf {α : Type} (toReply : α → Reply) : Except Error α → Reply
  | .error e => .failed e
  | .ok a => toReply a

variable {r : Request} {out : Option Outgoing} {e : Error}

omit [Environment σ] in
theorem settles_unsent (e : Error) (same : SameRequests s s') (log : s'.log = s.log) :
    Settles s out (.failed e) s' := by
  have nothing : Offers [] s s' := log
  exact .failed e nothing same

omit [Environment σ] in
theorem settles_unmet (e : Error) : Settles s out (.failed e) s :=
  settles_unsent e ⟨rfl, rfl⟩ rfl

/-- A submitted request is on record and out, or neither. -/
theorem Submitted.settles {result : Except Error UInt16} (submitted : Submitted s r result s') :
    Settles s (some (.request r)) (replyOf (fun id => .packetId (some id)) result) s' := by
  cases submitted with
  | exhausted => exact settles_unmet _
  | unwritten e => exact settles_unsent _ ⟨rfl, rfl⟩ rfl
  | @requested outside id packet began free written sent =>
    let f (c : Client) := (c.passOver id).register began r.awaits id packet r.subject r.listed
    have result : ((s.shift outside).change f).sendResult packet = .ok () :=
      ((s.shift outside).sendResult_change packet rfl rfl).trans sent
    have out : GotOut packet s (((s.shift outside).change f).afterSend packet) :=
      System.afterSend_gotOut result
    have pending : (((s.shift outside).change f).afterSend packet).client.pending =
        (f s.client).pending := by
      rw [System.afterSend_client, Client.pass_pending]
      rfl
    have listed : (((s.shift outside).change f).afterSend packet).client.subscriptions =
        (f s.client).subscriptions := by
      rw [System.afterSend_client, Client.pass_subscriptions]
      rfl
    refine .kept began rfl written out ?_ ?_ ?_ ?_
    · rw [pending]; rfl
    · rw [pending]; rfl
    · rw [pending]; rfl
    · rw [listed]; rfl
  | refused outside =>
    refine .failed _ (System.afterSend_log _ _) ⟨?_, ?_⟩
    · rw [System.afterSend_client, Client.pass_pending]
      rfl
    · rw [System.afterSend_client, Client.pass_subscriptions]
      rfl

theorem submit_settles (own : r.awaits.isLocal = true) :
    Ends (submit r).run s fun result s' =>
      Settles s (some (.request r)) (replyOf (fun id => .packetId (some id)) result) s' :=
  (submit_submitted own).imp fun _ _ submitted => submitted.settles

theorem subscribe_settles (filters : List (String × Qos)) :
    Ends (subscribe filters).run s fun result s' =>
      Settles s (Outgoing.subscribe? filters) (replyOf (fun id => .packetId (some id)) result)
        s' := by
  unfold subscribe
  cases filters with
  | nil => exact settles_unmet _
  | cons first rest =>
    refine after_checkFilters (fun _ => ?_) fun e _ => settles_unmet e
    refine after_ensureConnected (fun _ _ => ?_) fun e _ => settles_unmet e
    exact submit_settles rfl

theorem unsubscribe_settles (filters : List String) :
    Ends (unsubscribe filters).run s fun result s' =>
      Settles s (Outgoing.unsubscribe? filters)
        (replyOf (fun id => .packetId (some id)) result) s' := by
  unfold unsubscribe
  cases filters with
  | nil => exact settles_unmet _
  | cons first rest =>
    refine after_checkFilters (fun _ => ?_) fun e _ => settles_unmet e
    refine after_ensureConnected (fun _ _ => ?_) fun e _ => settles_unmet e
    exact submit_settles rfl

/-- A message of which nothing is kept is out, or was offered in vain. -/
theorem transmitPacket_settles (m : Packet.Publish) :
    Ends (transmitPacket m.put).run s fun result s' =>
      Settles s (some (.message m)) (replyOf (fun _ => .packetId none) result) s' := by
  rw [try_transmitPacket]
  split
  · cases written : Packet.encode m.put with
    | error e => exact settles_unmet _
    | ok packet =>
      have same : SameRequests s (s.afterSend packet) := by
        constructor
        · rw [System.afterSend_client, Client.pass_pending]
        · rw [System.afterSend_client, Client.pass_subscriptions]
      dsimp only
      cases sent : s.sendResult packet with
      | error e => exact .failed e (s.afterSend_log packet) same
      | ok u => exact .sent rfl written (System.afterSend_gotOut sent) same
  · exact settles_unmet _

theorem publish_settles (topic : String) (payload : Bytes) (qos : Qos) (retain : Bool) :
    Ends (publish topic payload qos retain).run s fun result s' =>
      Settles s (some (Outgoing.publish topic payload qos retain)) (replyOf .packetId result)
        s' := by
  have answered {α : Type} {action : Try σ α} {toId : α → Option UInt16} {out : Option Outgoing}
      (ends : Ends action.run s fun result s' =>
        Settles s out (replyOf (fun a => .packetId (toId a)) result) s') :
      Ends (action >>= fun a => pure (toId a) : Try σ (Option UInt16)).run s fun result s' =>
        Settles s out (replyOf .packetId result) s' := by
    rw [try_bind]
    refine ends.imp fun result s' settles => ?_
    cases result with
    | error e => exact settles
    | ok a => exact settles
  unfold publish
  refine after_checkName ?_ fun e _ => settles_unmet e
  refine after_ensureConnected (fun _ _ => ?_) fun e _ => settles_unmet e
  cases qos with
  | atMostOnce => exact answered (transmitPacket_settles _)
  | atLeastOnce | exactlyOnce => exact answered (submit_settles rfl)

end Act

/-- A call that asks something of the broker, whoever makes it and whatever stops it, leaves
what is kept of requests as it was and tells of nothing, or it ends with an identifier: then
one transaction is staged, the topics of the request are listed at the end and in order, and
the transport took its packet whole.  Of a message at the lowest guarantee nothing is kept. -/
theorem requests_rollBack (s : System σ) (raise : Event → Act σ Unit) (caller : Caller) {c : Call}
    (asks : c.asksBroker = true) :
    Settles s c.outgoing? ((Act.perform raise caller c).run s).1
      ((Act.perform raise caller c).run s).2 := by
  change Act.Ends (Act.perform raise caller c) s (Settles s c.outgoing?)
  cases c <;> simp only [Act.perform, Act.ends_answer]
  case subscribe filter qos => exact Act.subscribe_settles _
  case subscribeAll filters => exact Act.subscribe_settles filters
  case unsubscribe filter => exact Act.unsubscribe_settles _
  case unsubscribeAll filters => exact Act.unsubscribe_settles filters
  case publish topic payload qos retain => exact Act.publish_settles topic payload qos retain
  all_goals cases asks

/-- A client with a request under way, whose transport takes three octets more and then
breaks. -/
def aboutToBreak : System Script :=
  inSession.takes
    [.call (.subscribe "a/b" .atLeastOnce),
      .outside { takings := { ahead := [.atMost 3], otherwise := .fail .closed } }]

theorem requests_rollBack_aboutToBreak :
    let c : Call := .subscribeAll [("a/b", .exactlyOnce), ("c/#", .atMostOnce)]
    let ended := (Act.perform (Act.raise .application) .application c).run aboutToBreak
    Settles aboutToBreak c.outgoing? (.failed (.transport .closed)) ended.2 ∧
      ended.2.log.length = aboutToBreak.log.length + 2 ∧
      Settles inSession c.outgoing? (.packetId (some 1))
        ((Act.perform (Act.raise .application) .application c).run inSession).2 := by
  intro c ended
  have failed : ended.1 = .failed (.transport .closed) := by decide +kernel
  have answered : ((Act.perform (Act.raise .application) .application c).run inSession).1 =
      .packetId (some 1) := by decide +kernel
  refine ⟨?_, by decide +kernel, ?_⟩
  · rw [← failed]
    exact requests_rollBack aboutToBreak (Act.raise .application) .application rfl
  · rw [← answered]
    exact requests_rollBack inSession (Act.raise .application) .application rfl

end Mqtt
