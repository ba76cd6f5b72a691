import Mqtt.Proofs.Sound

/-!
# What the thread can do

`TurnMove` lists what the thread does between two places where it waits, while it acts
on a packet of the session (its hand) or on none; the calls of callbacks are among it.
`ThreadMove` adds the moves from one place to another.  Only these two say what a
client does: every invariant is shown of the moves, once for each of them.
-/

namespace Mqtt

/-! ## What a log says -/

namespace Entry

/-- Whether the transport was opened and nothing was read from it since. -/
def isFresh : List Entry → Bool
  | [] => false
  | .opened :: _ => true
  | .received _ :: _ => false
  | _ :: earlier => isFresh earlier

/-- The packets of sessions that were read, the latest first.  What is read first from
a transport is not one of them: it answers CONNECT. -/
def attended : List Entry → List Inbound
  | [] => []
  | .received p :: earlier => if isFresh earlier then attended earlier else p :: attended earlier
  | _ :: earlier => attended earlier

/-- Whether the application gave up a transaction. -/
def GaveUp (log : List Entry) (awaits : AckKind) (id : UInt16) : Prop :=
  ∃ topic client told, .raised (.discarded awaits id topic) client told ∈ log

theorem GaveUp.append {log : List Entry} {awaits : AckKind} {id : UInt16} (new : List Entry)
    (h : GaveUp log awaits id) : GaveUp (new ++ log) awaits id := by
  rcases h with ⟨topic, client, told, member⟩
  exact ⟨topic, client, told, List.mem_append_right new member⟩

/-- Whether an entry opens a transport or reads from it. -/
def IsArrival : Entry → Prop
  | .opened | .received _ => True
  | _ => False

theorem isFresh_cons {e : Entry} (log : List Entry) (h : ¬ e.IsArrival) :
    isFresh (e :: log) = isFresh log := by
  cases e <;> first | rfl | exact absurd trivial h

theorem attended_append {new : List Entry} (log : List Entry) (h : ∀ e ∈ new, ¬ e.IsArrival) :
    attended (new ++ log) = attended log := by
  induction new with
  | nil => rfl
  | cons e new ih =>
    have first := h e List.mem_cons_self
    rw [List.cons_append]
    cases e <;> first
      | exact absurd trivial first
      | exact ih fun e member => h e (List.mem_cons_of_mem _ member)

end Entry

/-- Whether an event neither hands on a message nor says what became of one. -/
def Event.IsPlain : Event → Prop
  | .published .. | .data _ | .unsubscribedData _ | .discarded .. => False
  | _ => True

/-- Whether an event says what became of a filter of a request. -/
def Event.isOutcome : Event → Bool
  | .subscribed .. | .subscribeFailed .. | .unsubscribed .. | .unsubscribeFailed .. => true
  | _ => false

/-- Whether an event says that a look found a transaction unanswered. -/
def Event.isRetry : Event → Bool
  | .resent .. | .retryWarning .. => true
  | _ => false

/-- Whether a packet answers a request about filters. -/
def Inbound.IsVerdict (p : Inbound) : Prop :=
  p.kind = .subAck ∨ p.kind = .unsubAck

/-- The message that a PUBLISH carries, as the application gets it. -/
def Packet.Publish.message (p : Packet.Publish) : Message :=
  ⟨p.topic, p.payload, p.qos, p.retain, p.dup, p.packetId⟩

/-- Whether a send that ends so ends the session. -/
def LosesSession : Except Error Unit → Prop
  | .ok () => False
  | .error e => e.isFatal = true

namespace Client

/-- The transaction that remembers a message received at the highest guarantee. -/
def memory (c : Client) (began : UInt32) (m : Packet.Publish) (id : UInt16) : Transaction where
  awaits := .pubRel
  packetId := id
  timer := ⟨began, c.config.ackTimeout⟩
  packet := .acknowledgement (Packet.ack .pubRec id)
  subject := .asked m.topic m.qos id

/-- The transaction that ends the handshake of a message sent. -/
def ending (c : Client) (began : UInt32) (t : Transaction) (id : UInt16) : Transaction where
  awaits := .pubComp
  packetId := id
  timer := ⟨began, c.config.ackTimeout⟩
  packet := .acknowledgement (Packet.ack .pubRel id)
  subject := t.subject

/-- The client with a transaction taken out. -/
def without (c : Client) (awaits : AckKind) (id : UInt16) : Client :=
  { c with pending := (c.pending.take awaits id).2 }

/-- The client with a transaction put in. -/
def keep (c : Client) (t : Transaction) : Client :=
  { c with pending := (c.pending.insert t).2 }

end Client

variable {σ : Type}

/-- The acknowledgements that are sent for a packet of the session. -/
inductive Owed (p : Inbound) (s : System σ) : Bytes → Prop
  | pubAck {m : Packet.Publish} {id : UInt16} : p.publish? = some m → m.qos = .atLeastOnce →
    m.packetId = some id → Owed p s (Packet.ack .pubAck id)
  | pubRec {m : Packet.Publish} {id : UInt16} : p.publish? = some m → m.qos = .exactlyOnce →
    m.packetId = some id → Owed p s (Packet.ack .pubRec id)
  | pubComp {id : UInt16} : p.ack? .pubRel = some id → Owed p s (Packet.ack .pubComp id)
  | pubRel {id : UInt16} : p.ack? .pubRec = some id →
    s.client.pending.contains .pubComp id = true ∨ Entry.GaveUp s.log .pubComp id →
    Owed p s (Packet.ack .pubRel id)

/-- The packets after which the transport is closed, however sending them ends. -/
inductive Parting : Bytes → Prop
  | connect {c : Packet.Connect} {packet : Bytes} : Packet.encode c.put = .ok packet →
    Parting packet
  | disconnect : Parting Packet.disconnect
  | pingReq : Parting Packet.pingReq

theorem Parting.parse? {packet : Bytes} (h : Parting packet) :
    ∃ q, Packet.parse? packet = some q ∧ q.kind ≠ .publish ∧ q.kind ≠ .pubRel := by
  cases h with
  | connect written =>
    obtain ⟨body, whole⟩ := Packet.Connect.parse?_put written
    exact ⟨_, whole, Packet.Kind.noConfusion, Packet.Kind.noConfusion⟩
  | disconnect =>
    exact ⟨_, Packet.parse?_disconnect, Packet.Kind.noConfusion, Packet.Kind.noConfusion⟩
  | pingReq => exact ⟨_, Packet.parse?_pingReq, Packet.Kind.noConfusion, Packet.Kind.noConfusion⟩

/-- Whether the thread is between two places where it waits. -/
def System.Busy (s : System σ) : Prop :=
  s.client.place = .running ∧ s.client.phase ≠ .init

variable [Environment σ]

/-- One move of the thread between two places where it waits, with a packet of the
session in its hand or with none. -/
inductive TurnMove : Option Inbound → System σ → System σ → Prop
  | call {hand : Option Inbound} {s s' : System σ} : CallMove s s' → TurnMove hand s s'
  | told {hand : Option Inbound} (s : System σ) {e : Event} : e.IsPlain →
    (e.isOutcome = true → ∀ p ∈ hand, p.IsVerdict) → (e.isRetry = true → hand = none) →
    TurnMove hand s (s.announce e)
  | filed {hand : Option Inbound} (s : System σ) (subscriptions : Subscriptions) :
    (∀ p ∈ hand, p.IsVerdict) → TurnMove hand s (s.change fun c => { c with subscriptions })
  | pulsed {hand : Option Inbound} (s : System σ) (keepAlive : KeepAlive) :
    TurnMove hand s (s.change fun c => { c with keepAlive })
  /-- A message is handed on, unless it was before. -/
  | delivered (s : System σ) {p : Inbound} {m : Packet.Publish} {e : Event} :
    p.publish? = some m → e = .data m.message ∨ e = .unsubscribedData m.message →
    (∀ id, m.qos = .exactlyOnce → m.packetId = some id →
      s.client.pending.contains .pubRel id = false) →
    TurnMove (some p) s (s.announce e)
  /-- A message handed on is remembered until its handshake is over. -/
  | remembered (s : System σ) {p : Inbound} {m : Packet.Publish} {id : UInt16} (began : UInt32) :
    p.publish? = some m → m.qos = .exactlyOnce → m.packetId = some id →
    s.client.pending.contains .pubRel id = false →
    TurnMove (some p) s (s.change fun c => c.keep (c.memory began m id))
  | forgotten (s : System σ) {p : Inbound} {id : UInt16} : p.ack? .pubRel = some id →
    TurnMove (some p) s (s.change (·.without .pubRel id))
  /-- The broker has a message for good. -/
  | completed (s : System σ) {p : Inbound} {awaits : AckKind} {id : UInt16} {t : Transaction} :
    awaits = .pubAck ∨ awaits = .pubComp → p.ack? awaits.packetKind = some id →
    (s.client.pending.take awaits id).1 = some t →
    TurnMove (some p) s
      ((s.change (·.without awaits id)).announce (.published t.subject.topic t.subject.qos id))
  /-- The broker holds a message, and the end of its handshake is waited for. -/
  | advanced (s : System σ) {p : Inbound} {id : UInt16} {t : Transaction} (began : UInt32) :
    p.ack? .pubRec = some id → (s.client.pending.take .pubRec id).1 = some t →
    TurnMove (some p) s
      (s.change fun c => (c.without .pubRec id).keep (c.ending began t id))
  /-- A request about filters was answered. -/
  | answered (s : System σ) {p : Inbound} {awaits : AckKind} {id : UInt16} :
    awaits.isRequest = true → p.kind = awaits.packetKind →
    TurnMove (some p) s (s.change (·.without awaits id))
  | replied (s : System σ) {p : Inbound} {packet : Bytes} : Owed p s packet →
    ¬ LosesSession (s.sendResult packet) → TurnMove (some p) s (s.afterSend packet)
  | migrated (s : System σ) :
    TurnMove none s (s.change fun c => { c with pending := c.pending.migrate.2 })
  | scanned (s : System σ) (now limit : UInt32) (force : Bool) :
    TurnMove none s (s.change fun c => { c with pending := (c.pending.scan now limit force).2 })
  | resent (s : System σ) {awaits : AckKind} {id : UInt16} {packet : Bytes} :
    Resendable id awaits packet →
    s.client.pending.Asks awaits id packet ∨ Entry.GaveUp s.log awaits id →
    TurnMove none s (s.afterSend packet)
  | pinged (s : System σ) : ¬ LosesSession (s.sendResult Packet.pingReq) →
    TurnMove none s (s.afterSend Packet.pingReq)

/-- A walk of such moves. -/
abbrev Turns (hand : Option Inbound) : System σ → System σ → Prop :=
  Relation.ReflTransGen (TurnMove hand)

/-- The moves of the thread that have nothing to do with requests about filters. -/
inductive QuietMove : System σ → System σ → Prop
  | call {s s' : System σ} : CallMove s s' → QuietMove s s'
  | told (s : System σ) {e : Event} : e.IsPlain → e.isOutcome = false → e.isRetry = false →
    QuietMove s (s.announce e)
  | pulsed (s : System σ) (keepAlive : KeepAlive) :
    QuietMove s (s.change fun c => { c with keepAlive })
  | migrated (s : System σ) :
    QuietMove s (s.change fun c => { c with pending := c.pending.migrate.2 })
  | pinged (s : System σ) : ¬ LosesSession (s.sendResult Packet.pingReq) →
    QuietMove s (s.afterSend Packet.pingReq)

theorem QuietMove.turn {s s' : System σ} (move : QuietMove s s') : TurnMove none s s' := by
  cases move with
  | call move => exact .call move
  | told plain => exact .told s plain (fun _ _ none => by cases none) fun _ => rfl
  | pulsed keepAlive => exact .pulsed s keepAlive
  | migrated => exact .migrated s
  | pinged mild => exact .pinged s mild

/-- A walk of such moves. -/
abbrev Quiets : System σ → System σ → Prop :=
  Relation.ReflTransGen QuietMove

/-- One move of the thread with no packet of the session in its hand. -/
inductive ThreadMove : System σ → System σ → Prop
  | turn {s s' : System σ} : s.Busy → QuietMove s s' → ThreadMove s s'
  /-- The thread turns to a control. -/
  | obeyed (s : System σ) {control : Control} {controls : Queue Control} :
    s.client.place = .running ∨ (∃ interval, s.client.place = .idle interval) →
    s.client.controls.pop? = some (control, controls) →
    ThreadMove s
      ((s.change fun c => { c with controls, place := .running }).note (.obeyed control))
  | rested (s : System σ) (interval : Option UInt32) : s.Busy →
    s.client.phase = .disconnected →
    ThreadMove s (s.change fun c => { c with place := .idle interval })
  | woke (s : System σ) {interval : Option UInt32} : s.client.place = .idle interval →
    ThreadMove s (s.change fun c => { c with place := .running })
  | dialled (s : System σ) (config : Config) : s.Busy → s.client.phase ≠ .connected →
    ThreadMove s ((s.close.note
      (.dialled config.host config.tcpPort config.connectTimeout)).change
        fun c => { c with place := .connecting config })
  | unanswered (s : System σ) {config : Config} : s.client.place = .connecting config →
    ThreadMove s (s.change fun c => { c with place := .running })
  | opened (s : System σ) {config : Config} : s.client.place = .connecting config →
    ThreadMove s ((s.change fun c => { c with place := .running, linked := true }).note .opened)
  /-- CONNECT was sent, and its answer is read. -/
  | saluted (s : System σ) {connect : Packet.Connect} {packet : Bytes} (reader : Frame.Reader) :
    s.Busy → s.client.linked = true → s.client.phase ≠ .connected →
    Entry.isFresh s.log = true → Packet.encode connect.put = .ok packet →
    s.sendResult packet = .ok () →
    ThreadMove s ((s.afterSend packet).change fun c => { c with place := .greeting reader })
  | parted (s : System σ) {packet : Bytes} : s.Busy → Parting packet →
    ThreadMove s (s.afterSend packet).close
  | closed (s : System σ) : s.Busy → ThreadMove s s.close
  | entered (s : System σ) (phase : Phase) : s.Busy →
    phase = .disconnected ∨ phase = .reconnecting →
    ThreadMove s (s.change fun c => { c with phase })
  | parked (s : System σ) (parked : Bool) : s.Busy →
    ThreadMove s (s.change fun c => { c with parked })
  /-- A session stands. -/
  | began (s : System σ) (keepAlive : KeepAlive) : s.Busy → Entry.isFresh s.log = false →
    ThreadMove s (s.change fun c => { c with keepAlive, phase := .connected })
  | listened (s : System σ) (reader : Frame.Reader) : s.Busy → s.client.linked = true →
    s.client.phase = .connected →
    ThreadMove s (s.change fun c => { c with place := .listening reader })
  | readOn (s : System σ) (reader : Frame.Reader) {before : Frame.Reader} :
    s.client.place = .listening before →
    ThreadMove s (s.change fun c => { c with place := .listening reader })
  | greetedOn (s : System σ) (reader : Frame.Reader) {before : Frame.Reader} :
    s.client.place = .greeting before →
    ThreadMove s (s.change fun c => { c with place := .greeting reader })
  /-- Reading ended without a packet. -/
  | readEnded (s : System σ) {reader : Frame.Reader} :
    s.client.place = .greeting reader ∨ s.client.place = .listening reader →
    ThreadMove s (s.change fun c => { c with place := .running, pending := c.pending.migrate.2 })
  /-- The broker's answer to CONNECT came. -/
  | greeted (s : System σ) {reader : Frame.Reader} (p : Inbound) :
    s.client.place = .greeting reader →
    ThreadMove s ((s.note (.received p)).change
      fun c => { c with place := .running, pending := c.pending.migrate.2 })
  /-- The thread ended, and nothing of the client is left. -/
  | left (s : System σ) : s.Busy → s.client.destroyed = true →
    ThreadMove s (s.close.change
      fun c => { c.release with phase := .disconnected, place := .exited })

end Mqtt
