import Mqtt.Client.Summary
import Mqtt.Client.System
import Mqtt.Packet.Ack
import Mqtt.Packet.Publish
import Mqtt.Packet.Subscription

/-!
# Answering calls

A call is answered at once.  A request for the broker is checked, given an
identifier, registered and sent; when sending fails the registration is undone,
so a failed request leaves no trace but the identifier passed over.  Calls for
the thread are queued for it.

Events that a call raises are told on the thread of the caller, by an action
that is handed in: a callback inside a call raises its own events one level
deeper.
-/

namespace Mqtt.Act

variable {σ : Type}

/-- The answer of an action that may fail. -/
def answer {α : Type} (toReply : α → Reply) (action : Try σ α) : Act σ Reply := do
  match ← action.run with
  | .error e => return .failed e
  | .ok a => return toReply a

/-- Demands that the client was not destroyed. -/
def ensureAlive : Try σ Unit := do
  if (← lift client).destroyed then throw .destroyed

/-- Demands that the client was started. -/
def ensureStarted : Try σ Unit := do
  if (← lift client).phase = .init then throw .invalidState

/-- Demands that a session stands. -/
def ensureConnected : Try σ Unit := do
  ensureAlive
  if (← lift client).phase ≠ .connected then throw .notConnected

/-- Demands that each of some filters may be sent. -/
def checkFilters (filters : List String) : Try σ Unit := do
  match filters.forM Topic.checkFilter with
  | .error fault => throw (.topic fault)
  | .ok () => return ()

/-- Demands that a topic name may be sent. -/
def checkName (name : String) : Try σ Unit :=
  match Topic.checkName name with
  | .error fault => throw (.topic fault)
  | .ok () => return ()

/-- Queues a control for the thread. -/
def ask (control : Control) : Act σ Unit :=
  update fun c => { c with controls := c.controls.push control }

/-! ## Calls for the client alone -/

/-- Tears the client down: at once when it was never started, else by its thread. -/
def destroy (raise : Event → Act σ Unit) : Try σ Unit := do
  ensureAlive
  lift do
    update fun c => { c with destroyed := true }
    if (← client).phase = .init then
      raise .destroying
      release
    else ask .destroy

/-- Gives up a pending transaction. -/
def discard (raise : Event → Act σ Unit) (awaits : AckKind) (id : UInt16) : Try σ Unit := do
  let taken ← lift <| draw fun c =>
    let (taken, pending) := c.pending.remove awaits id
    (taken, { c with pending })
  let some t := taken | throw .noTransaction
  lift do
    if awaits.isRequest then
      update fun c => { c with subscriptions := c.subscriptions.dropRequest id }
    raise (.discarded awaits id t.subject.topic)

/-- Replaces some of the settings, if all of them together are sound. -/
def configure (settings : List Config.Setting) : Try σ Unit := do
  let config := (← lift client).config.setAll settings
  match config.validate with
  | .error fault => throw (.settings fault)
  | .ok () =>
    lift <| update fun c =>
      { c with config, pending := { c.pending with threshold := config.pendingWarning } }

/-- Makes a will that may be set. -/
def makeWill (topic : String) (payload : Bytes) (qos : Qos) (retain : Bool) : Try σ LastWill :=
  match LastWill.make topic payload qos retain with
  | .error fault => throw (.topic fault)
  | .ok will => return will

/-- Waits for the thread to end.  The thread cannot wait for itself.  Whoever waits takes
the handle of the thread, and those after it do not wait. -/
def join (caller : Caller) : Act σ Reply := do
  let c ← client
  if !c.hasHandle then return .done
  match caller with
  | .thread => return .failed .invalidState
  | .application =>
    update fun c => { c with awaited := true }
    return if c.place = .exited then .done else .waiting

/-- Waits for the thread to end, unless that takes time. -/
def tryJoin (caller : Caller) : Act σ Reply := do
  if caller = .application ∧ (← client).place ≠ .unstarted ∧ (← client).place ≠ .exited then
    return .waiting
  else join caller

/-! ## Requests for the broker -/

/-- A request for the broker that is kept until it is answered. -/
structure Request where
  awaits : AckKind
  /-- The packet with a given identifier. -/
  packet : UInt16 → Packet.Put Unit
  /-- What the request is about. -/
  subject : String × Qos
  /-- The filters to list until the request is answered. -/
  listed : List (String × Qos)

variable [Environment σ]

/-- Starts the thread.  A thread that cannot be spawned takes the connector with it, so
that the client is as it was but cannot be started any more. -/
def start : Try σ Unit := do
  ensureAlive
  if !(← lift client).hasConnector then throw .invalidState
  if ← lift spawn then
    lift (update fun c => { c with phase := .start, place := .running })
  else
    lift (update fun c => { c with spoilt := true })
    throw .noThread

/-- Registers a request and sends it. -/
def submit (r : Request) : Try σ UInt16 := do
  let some id ← lift (draw Client.claimId) | throw .idsExhausted
  match Packet.encode (r.packet id) with
  | .error e => throw (.packet e)
  | .ok packet =>
    let started ← lift now
    lift (update fun c => c.register started r.awaits id packet r.subject r.listed)
    tryCatch (transmit packet) fun e => do
      lift (update fun c => c.unregister r.awaits id)
      throw e
    return id

/-- Asks the broker for filters. -/
def subscribe (filters : List (String × Qos)) : Try σ UInt16 := do
  let some subject := filters.head? | throw .noFilters
  checkFilters (filters.map (·.1))
  ensureConnected
  submit
    { awaits := .subAck
      packet := fun id => Packet.Subscribe.put ⟨id, filters⟩
      subject
      listed := filters }

/-- Asks the broker to drop filters. -/
def unsubscribe (filters : List String) : Try σ UInt16 := do
  let some first := filters.head? | throw .noFilters
  checkFilters filters
  ensureConnected
  submit
    { awaits := .unsubAck
      packet := fun id => Packet.Unsubscribe.put ⟨id, filters⟩
      subject := (first, .atMostOnce)
      listed := filters.map fun filter => (filter, .atMostOnce) }

/-- Sends a message.  At the lowest guarantee nothing is kept of it. -/
def publish (topic : String) (payload : Bytes) (qos : Qos) (retain : Bool) :
    Try σ (Option UInt16) := do
  checkName topic
  ensureConnected
  let packet (id : Option UInt16) := Packet.Publish.put ⟨false, qos, retain, topic, id, payload⟩
  match qos with
  | .atMostOnce =>
    transmitPacket (packet none)
    return none
  | .atLeastOnce =>
    return some (← submit ⟨.pubAck, fun id => packet (some id), (topic, qos), []⟩)
  | .exactlyOnce =>
    return some (← submit ⟨.pubRec, fun id => packet (some id), (topic, qos), []⟩)

/-! ## All calls -/

/-- Answers a call. -/
def perform (raise : Event → Act σ Unit) (caller : Caller) : Call → Act σ Reply
  | .start => answer (fun _ => .done) start
  | .destroy => answer (fun _ => .done) (destroy raise)
  | .join => join caller
  | .tryJoin => tryJoin caller
  | .reconnect => answer (fun _ => .done) do
      ensureAlive
      ensureStarted
      lift (ask .reconnect)
  | .disconnect notify => answer (fun _ => .done) do
      ensureAlive
      ensureStarted
      lift (ask (.disconnect notify))
  | .subscribe filter qos => answer (fun id => .packetId (some id)) (subscribe [(filter, qos)])
  | .subscribeAll filters => answer (fun id => .packetId (some id)) (subscribe filters)
  | .unsubscribe filter => answer (fun id => .packetId (some id)) (unsubscribe [filter])
  | .unsubscribeAll filters => answer (fun id => .packetId (some id)) (unsubscribe filters)
  | .publish topic payload qos retain => answer .packetId (publish topic payload qos retain)
  | .discard awaits id => answer (fun _ => .done) (discard raise awaits id)
  | .configure settings => answer (fun _ => .done) (configure settings)
  | .makeWill topic payload qos retain =>
    answer (fun _ => .done) (makeWill topic payload qos retain)
  | .setWill will => do
      update fun c => { c with will }
      return .done
  | .enable mask => do
      update fun c => { c with mask := c.mask.union mask }
      return .done
  | .disable mask => do
      update fun c => { c with mask := c.mask.difference mask }
      return .done
  | .subscriptions => return .subscriptions (← client).subscriptions.granted
  | .pendingCount => return .count (← client).pending.size
  | .phase => return .phase (← client).phase
  | .config => return .config (← client).config
  | .summary => return .text (← client).summary

/-! ## Events and callbacks -/

/-- Records an event; the answer says whether the application is told of it. -/
def announce (event : Event) : Act σ Bool := do
  let c ← client
  let delivered := c.mask.contains event.kind
  note (.raised event c delivered)
  return delivered

/-- Carries out the plan of a callback. -/
def carryOut (answer : Call → Act σ Reply) (caller : Caller) : Plan → Act σ Unit
  | .finish => return ()
  | .call c heeded next => do
    let reply ← answer c
    note (.reacted caller c heeded reply)
    carryOut answer caller (next reply)
  | .wait ms next => do
    let reading ← wait ms
    note (.waited caller ms reading)
    carryOut answer caller (next reading)

/-- Raises an event on the thread of a caller, with room for callbacks `depth`
levels deep. -/
def raiseAt : (depth : Nat) → Caller → Event → Act σ Unit
  | 0, _, event => do
    let _ ← announce event
  | depth + 1, caller, event => do
    if ← announce event then
      let plan ← react event
      carryOut (perform (raiseAt depth caller) caller) caller plan

/-- Raises an event on the thread of a caller. -/
def raise (caller : Caller) (event : Event) : Act σ Unit :=
  raiseAt (Environment.nesting σ) caller event

/-- A call of the application, outside of callbacks. -/
def call (c : Call) : Act σ Reply := do
  let reply ← perform (raise .application) .application c
  note (.called c reply)
  return reply

end Mqtt.Act
