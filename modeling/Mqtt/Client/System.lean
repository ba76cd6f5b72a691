import Mqtt.Client.Call
import Mqtt.Packet.Put

/-!
# A client and what is outside it

A client runs in an environment: a clock, a transport and an application whose
callbacks make calls.  A system is a client with its environment and the log of
all that happened between them; what a client does is a state action on systems.
-/

namespace Mqtt

/-- Something that happened. -/
inductive Entry where
  /-- A transport is to be opened within so many milliseconds. -/
  | dialled (host : String) (tcpPort : UInt16) (timeout : UInt32)
  | opened
  /-- An offer was made to the transport. -/
  | sent (attempt : Transport.Attempt)
  | closed
  /-- A packet was read. -/
  | received (packet : Inbound)
  /-- The thread turned to a control. -/
  | obeyed (control : Control)
  /-- An event arose while the client stood as given; the application was told of
  it or not. -/
  | raised (event : Event) (client : Client) (delivered : Bool)
  /-- Granted filters were asked for anew, or could not be. -/
  | renewed (granted : List (String × Qos)) (reply : Reply)
  /-- A callback made a call, and took note of the answer or not. -/
  | reacted (caller : Caller) (call : Call) (heeded : Bool) (reply : Reply)
  /-- A callback let time go by; the clock of the application then read so. -/
  | waited (caller : Caller) (ms reading : UInt32)
  /-- The application made a call outside of callbacks. -/
  | called (call : Call) (reply : Reply)
  deriving DecidableEq

/-- What is outside a client. -/
class Environment (σ : Type) where
  /-- Reads the clock. -/
  now : σ → UInt32 × σ
  /-- Makes an offer to the open transport, with the milliseconds it may take. -/
  offer : σ → Bytes → Nat → Transport.Answer × σ
  /-- Tells the application of an event. -/
  react : σ → Client → Event → Plan × σ
  /-- Lets so many milliseconds go by in a callback, and reads the clock of the
  application. -/
  wait : σ → UInt32 → UInt32 × σ
  /-- Spawns a thread, or fails to. -/
  spawn : σ → Bool × σ
  /-- How deep the application nests callbacks inside the calls of callbacks. -/
  nesting : Nat

/-- A client in its environment. -/
structure System (σ : Type) where
  client : Client
  outside : σ
  /-- What happened, the latest first. -/
  log : List Entry := []

/-- An action of a client in its environment. -/
abbrev Act (σ : Type) := StateM (System σ)

/-- An action that may fail. -/
abbrev Try (σ : Type) := ExceptT Error (Act σ)

namespace Act

variable {σ : Type}

/-- The client as it stands. -/
def client : Act σ Client :=
  return (← get).client

/-- An action that cannot fail, among actions that may. -/
def lift {α : Type} (action : Act σ α) : Try σ α :=
  ExceptT.lift action

/-- Changes the client. -/
def update (change : Client → Client) : Act σ Unit :=
  modify fun s => { s with client := change s.client }

/-- Changes the client and hands back a value. -/
def draw {α : Type} (change : Client → α × Client) : Act σ α :=
  modifyGet fun s =>
    let (a, client) := change s.client
    (a, { s with client })

/-- Writes to the log. -/
def note (e : Entry) : Act σ Unit :=
  modify fun s => { s with log := e :: s.log }

/-- Moves the thread to another place. -/
def goTo (place : Place) : Act σ Unit :=
  update fun c => { c with place }

/-- Changes the phase. -/
def enter (phase : Phase) : Act σ Unit :=
  update fun c => { c with phase }

/-- Closes the transport if one is open. -/
def close : Act σ Unit := do
  if (← client).linked then
    update fun c => { c with linked := false }
    note .closed

/-- Closes the transport and drops what the client holds for its sessions. -/
def release : Act σ Unit := do
  close
  update Client.release

variable [Environment σ]

/-- Reads the clock. -/
def now : Act σ UInt32 :=
  modifyGet fun s =>
    let (reading, outside) := Environment.now s.outside
    (reading, { s with outside })

/-- Tells the application of an event and learns what it does. -/
def react (event : Event) : Act σ Plan :=
  modifyGet fun s =>
    let (plan, outside) := Environment.react s.outside s.client event
    (plan, { s with outside })

/-- Lets time go by in a callback. -/
def wait (ms : UInt32) : Act σ UInt32 :=
  modifyGet fun s =>
    let (reading, outside) := Environment.wait s.outside ms
    (reading, { s with outside })

/-- Spawns the thread; the answer says whether it could be spawned. -/
def spawn : Act σ Bool :=
  modifyGet fun s =>
    let (spawned, outside) := Environment.spawn s.outside
    (spawned, { s with outside })

/-- Sends octets over the open transport, within the time for a command.  While a
call sends, the time for a packet that is being read goes on. -/
def transmit (bs : Bytes) : Try σ Unit := do
  let s ← get
  if s.client.linked then
    let sent := Transport.sendAll Environment.offer bs s.client.config.commandTimeout.toNat s.outside
    set
      { s with
        client := s.client.pass sent.elapsed
        outside := sent.line
        log := (sent.attempts.map Entry.sent).reverse ++ s.log }
    match sent.result with
    | .error e => throw (.transport e)
    | .ok () => return ()
  else throw .notConnected

/-- Writes a packet and sends it. -/
def transmitPacket (packet : Packet.Put Unit) : Try σ Unit := do
  if (← lift client).linked then
    match Packet.encode packet with
    | .error e => throw (.packet e)
    | .ok bs => transmit bs
  else throw .notConnected

end Act

end Mqtt
