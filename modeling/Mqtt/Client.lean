import Mqtt.Config
import Mqtt.Frame
import Mqtt.KeepAlive
import Mqtt.LastWill
import Mqtt.Pending
import Mqtt.Queue

/-!
# The state of a client

A client is a set of settings and registries that application calls share with
one thread of its own.  The thread alone opens and closes transports, reads from
them and changes the phase of a running client.  This module holds the state and
the identifiers; what moves it stands in the modules beside it.
-/

namespace Mqtt

/-- Where a client is in its life. -/
inductive Phase where
  /-- Made, not started. -/
  | init
  /-- Started, first connection under way. -/
  | start
  /-- A session stands. -/
  | connected
  /-- No session, and none under way. -/
  | disconnected
  /-- Another connection under way. -/
  | reconnecting
  deriving DecidableEq

/-- The wording of a phase. -/
def Phase.name : Phase → String
  | init => "Init"
  | start => "Start"
  | connected => "Connect"
  | disconnected => "Disconnect"
  | reconnecting => "Reconnect"

/-- What an application asks of the thread. -/
inductive Control where
  | destroy
  | reconnect
  /-- End the session, and with `notify` tell the broker so. -/
  | disconnect (notify : Bool)
  deriving DecidableEq

/-- Where the thread stands. -/
inductive Place where
  | unstarted
  /-- Between two things to do. -/
  | running
  /-- A transport is being opened under these settings. -/
  | connecting (config : Config)
  /-- CONNECT is sent, its answer is being read. -/
  | greeting (reader : Frame.Reader)
  /-- A packet of the session is being read. -/
  | listening (reader : Frame.Reader)
  /-- Waiting for a control, and for so many milliseconds to pass if given. -/
  | idle (interval : Option UInt32)
  | exited
  deriving DecidableEq

/-- The state of a client. -/
structure Client where
  config : Config
  will : Option LastWill := none
  phase : Phase := .init
  /-- The kinds of events that the application is told of. -/
  mask : EventMask := .all
  destroyed : Bool := false
  /-- The first packet identifier to try for the next request. -/
  nextId : UInt16 := 1
  /-- Whether a transport is open. -/
  linked : Bool := false
  subscriptions : Subscriptions := {}
  pending : Pending
  keepAlive : KeepAlive := {}
  /-- What the application asked of the thread. -/
  controls : Queue Control := {}
  /-- Whether the application ended the session itself, so that it is not opened
  again without being asked to. -/
  parked : Bool := false
  place : Place := .unstarted
  /-- Whether the thread could not be spawned; the connector was lost with it. -/
  spoilt : Bool := false
  /-- Whether a call that waits for the end of the thread took its handle. -/
  awaited : Bool := false
  deriving DecidableEq

namespace Client

/-- A client with given settings. -/
def create (config : Config) : Except SettingsFault Client :=
  match config.validate with
  | .error fault => .error fault
  | .ok () => .ok { config, pending := { threshold := config.pendingWarning } }

/-- The largest packet identifier that a client uses. -/
def lastId : UInt16 := 65534

/-- The identifier tried after a given one. -/
def idAfter (id : UInt16) : UInt16 :=
  if lastId ≤ id then 1 else id + 1

/-- Whether no transaction and no request about filters holds an identifier. -/
def isFree (c : Client) (id : UInt16) : Bool :=
  !c.pending.idInUse id && (c.subscriptions.ofRequest id).isEmpty

/-- The first free identifier of the next `tries` from `id` on. -/
def freeFrom? (c : Client) : (tries : Nat) → (id : UInt16) → Option UInt16
  | 0, _ => none
  | tries + 1, id => if c.isFree id then some id else c.freeFrom? tries (idAfter id)

/-- Claims the next free identifier.  Once round all of them the counter is back
where it was, so a search in vain leaves it alone. -/
def claimId (c : Client) : Option UInt16 × Client :=
  match c.freeFrom? lastId.toNat c.nextId with
  | some id => (some id, { c with nextId := idAfter id })
  | none => (none, c)

/-- Stages a transaction that begins at `now`, and lists the topics of its request. -/
def register (c : Client) (now : UInt32) (awaits : AckKind) (id : UInt16) (packet : Bytes)
    (subject : String × Qos) (listed : List (String × Qos)) : Client :=
  { c with
    subscriptions := c.subscriptions.addAll (listed.map fun (topic, qos) => .asked topic qos id)
    pending := c.pending.stage
      { awaits
        packetId := id
        timer := ⟨now, c.config.ackTimeout⟩
        packet := .request packet
        subject := .asked subject.1 subject.2 id } }

/-- Undoes the registration of a transaction. -/
def unregister (c : Client) (awaits : AckKind) (id : UInt16) : Client :=
  { c with
    subscriptions := c.subscriptions.dropRequest id
    pending := (c.pending.remove awaits id).2 }

/-- Drops what a client holds for its sessions. -/
def release (c : Client) : Client :=
  { c with subscriptions := {}, pending := c.pending.purge, will := none }

/-- Lets time go by while the thread may be waiting for the rest of a packet. -/
def pass (c : Client) (ms : Nat) : Client :=
  match c.place with
  | .greeting reader => { c with place := .greeting (reader.pass ms) }
  | .listening reader => { c with place := .listening (reader.pass ms) }
  | _ => c

/-- Whether the connector that the thread is spawned with is still there. -/
def hasConnector (c : Client) : Bool :=
  c.place == .unstarted && !c.spoilt

/-- Whether the handle of the thread is still there, to wait for its end. -/
def hasHandle (c : Client) : Bool :=
  c.place != .unstarted && !c.awaited

/-- Whether the thread has something to do. -/
def isRunnable (c : Client) : Bool :=
  match c.place with
  | .running => true
  | .idle _ => !c.controls.isEmpty
  | _ => false

end Client

end Mqtt
