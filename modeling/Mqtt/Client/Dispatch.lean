import Mqtt.Client.Request

/-!
# Packets from the broker

The thread acts on one packet at a time.  A packet whose body does not decode,
or that no client expects, is passed over; so is an acknowledgement that no
active transaction waits for.  An action fails only when a reply cannot be sent.
-/

namespace Mqtt.Act

variable {σ : Type}

/-- Takes out the active transaction that an acknowledgement answers. -/
def take (awaits : AckKind) (id : UInt16) : Act σ (Option Transaction) :=
  draw fun c =>
    let (taken, pending) := c.pending.take awaits id
    (taken, { c with pending })

/-- Takes out the topics listed for a request. -/
def takeListed (id : UInt16) : Act σ (List Subject) :=
  draw fun c =>
    (c.subscriptions.ofRequest id, { c with subscriptions := c.subscriptions.dropRequest id })

/-! ## Events of the registries -/

variable [Environment σ]

/-- Raises an event on the thread of the client. -/
def tell (event : Event) : Act σ Unit :=
  raise .thread event

/-- Warns when so many transactions have become active. -/
def warnPending : Option Nat → Act σ Unit
  | none => return ()
  | some count => tell (.pendingWarning count)

/-- Makes the staged transactions active. -/
def migrate : Act σ Unit := do
  warnPending (← draw fun c =>
    let (warning, pending) := c.pending.migrate
    (warning, { c with pending }))

/-- Keeps an acknowledgement that is to be sent until it is answered itself. -/
def track (awaits : AckKind) (id : UInt16) (packet : Bytes) (subject : Subject) : Act σ Unit := do
  let started ← now
  warnPending (← draw fun c =>
    let (warning, pending) := c.pending.insert
      { awaits
        packetId := id
        timer := ⟨started, c.config.ackTimeout⟩
        packet := .acknowledgement packet
        subject }
    (warning, { c with pending }))

/-! ## Messages received -/

/-- Hands a message to the application. -/
def deliver (message : Message) : Act σ Unit := do
  if ((← client).subscriptions.findMatching? message.topic).isSome then tell (.data message)
  else tell (.unsubscribedData message)

/-- A message came.  One at the highest guarantee is handed on the first time
only, until its handshake is over. -/
def onPublish (p : Packet.Publish) : Try σ Unit := do
  let message : Message := ⟨p.topic, p.payload, p.qos, p.retain, p.dup, p.packetId⟩
  match p.qos, p.packetId with
  | .atLeastOnce, some id =>
    lift (deliver message)
    transmit (Packet.ack .pubAck id)
  | .exactlyOnce, some id =>
    let pubRec := Packet.ack .pubRec id
    unless (← lift client).pending.contains .pubRel id do
      lift (deliver message)
      lift (track .pubRel id pubRec (.asked p.topic p.qos id))
    transmit pubRec
  | _, _ => lift (deliver message)

/-- The broker ends the handshake of a message received; the answer goes out
whether or not one was under way. -/
def onPubRel (id : UInt16) : Try σ Unit := do
  let _ ← lift (take .pubRel id)
  transmit (Packet.ack .pubComp id)

/-! ## Messages sent -/

/-- The broker has a message of ours for good. -/
def onPublished (awaits : AckKind) (id : UInt16) : Act σ Unit := do
  let some t ← take awaits id | return ()
  tell (.published t.subject.topic t.subject.qos id)

/-- The broker holds a message of ours; PUBREL ends the handshake.  PUBREC may
come again, and is answered again. -/
def onPubRec (id : UInt16) : Try σ Unit := do
  let pubRel := Packet.ack .pubRel id
  match ← lift (take .pubRec id) with
  | some t =>
    lift (track .pubComp id pubRel t.subject)
    transmit pubRel
  | none => if (← lift client).pending.contains .pubComp id then transmit pubRel

/-! ## Requests about filters -/

/-- The broker granted or refused one filter of a request. -/
def settle (id : UInt16) (subject : Subject) (code : UInt8) : Act σ Unit := do
  match Qos.ofByte? code with
  | none => tell (.subscribeFailed subject.topic id)
  | some qos =>
    update fun c => { c with subscriptions := c.subscriptions.dropGranted subject.topic }
    tell (.subscribed subject.topic qos id)
    update fun c => { c with subscriptions := c.subscriptions.add (subject.confirm qos) }

/-- The broker answers a SUBSCRIBE.  Codes belong to filters by their order; with
too many or too few of them the whole request has failed. -/
def onSubAck (id : UInt16) (codes : Bytes) : Act σ Unit := do
  let some _ ← take .subAck id | return ()
  let subjects ← takeListed id
  if subjects.length = codes.length then
    (subjects.zip codes).forM fun (subject, code) => settle id subject code
  else subjects.forM fun subject => tell (.subscribeFailed subject.topic id)

/-- The broker answers an UNSUBSCRIBE. -/
def onUnsubAck (id : UInt16) : Act σ Unit := do
  let some _ ← take .unsubAck id | return ()
  (← takeListed id).forM fun subject => do
    update fun c => { c with subscriptions := c.subscriptions.remove subject.topic }
    tell (.unsubscribed subject.topic id)

/-- The broker gives a sign of life. -/
def onPingResp : Act σ Unit := do
  let answered ← now
  update fun c => { c with keepAlive := c.keepAlive.pong answered }

/-- Acts on a value decoded from a body, if there is one. -/
def onDecoded {α : Type} (decoded : Except Packet.Error α) (action : α → Try σ Unit) : Try σ Unit :=
  match decoded with
  | .error _ => return ()
  | .ok a => action a

/-- Acts on a packet of the session. -/
def dispatch (p : Inbound) : Try σ Unit :=
  match p.kind with
  | .publish => onDecoded (Packet.Publish.decode p.flags p.body) onPublish
  | .pubAck => onDecoded (Packet.decodeAck p.body) fun id => lift (onPublished .pubAck id)
  | .pubComp => onDecoded (Packet.decodeAck p.body) fun id => lift (onPublished .pubComp id)
  | .pubRec => onDecoded (Packet.decodeAck p.body) onPubRec
  | .pubRel => onDecoded (Packet.decodeAck p.body) onPubRel
  | .subAck => onDecoded (Packet.SubAck.decode p.body) fun a => lift (onSubAck a.packetId a.codes)
  | .unsubAck => onDecoded (Packet.decodeAck p.body) fun id => lift (onUnsubAck id)
  | .pingResp => lift onPingResp
  | _ => return ()

/-! ## Timeouts -/

/-- A request about filters was not answered in time. -/
def expire (t : Transaction) : Act σ Unit := do
  let listed ← takeListed t.packetId
  let subjects := if listed.isEmpty then [t.subject] else listed
  subjects.forM fun subject =>
    if t.awaits = .subAck then tell (.subscribeFailed subject.topic t.packetId)
    else tell (.unsubscribeFailed subject.topic t.packetId)

/-- Does what a look at the transactions asked for.  A packet that cannot be sent
in time is left to the next look; after the first hard failure, which is handed
back, no further packet is sent. -/
def carryActions : (failure : Option Error) → List Action → Act σ (Option Error)
  | failure, [] => return failure
  | failure, .warn kind id retries :: rest => do
    tell (.retryWarning kind id retries)
    carryActions failure rest
  | failure, .expire t :: rest => do
    expire t
    carryActions failure rest
  | some e, .resend _ _ _ _ :: rest => carryActions (some e) rest
  | none, .resend kind id retries packet :: rest => do
    match ← (transmit packet).run with
    | .ok () =>
      tell (.resent kind id retries)
      carryActions none rest
    | .error e => carryActions (if e.isFatal then some e else none) rest

/-- Looks after the pending transactions: those that are due, or with `force` all
but the requests about filters. -/
def scan (force : Bool) : Act σ (Option Error) := do
  let limit := (← client).config.retryWarning
  let reading ← now
  let actions ← draw fun c =>
    let (actions, pending) := c.pending.scan reading limit force
    (actions, { c with pending })
  carryActions none actions

end Mqtt.Act
