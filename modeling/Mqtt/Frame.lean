import Mqtt.Event
import Mqtt.Packet.Header
import Mqtt.Transport

/-!
# Reading packets from a stream

A packet comes in pieces.  The reader asks for two octets, the shortest packet,
then for single octets until the header is whole, then for the rest of the body;
so it never takes an octet of the packet that follows.
-/

namespace Mqtt

/-- A packet as it came: its header without the length, and its body. -/
structure Inbound where
  kind : Packet.Kind
  /-- The low half of the first octet. -/
  flags : UInt8
  body : Bytes
  deriving DecidableEq

namespace Frame

/-- How far a packet has come. -/
inductive Stage where
  /-- Nothing has come; the packet may take `timeout` milliseconds to begin. -/
  | first (timeout : Nat)
  /-- A part of the header has come. -/
  | header (got : Bytes)
  /-- The header and a part of the body have come, the body with its last octet
  first; `missing` octets are to come. -/
  | body (header : Packet.Header) (got : Bytes) (missing : Nat)
  deriving DecidableEq

/-- A packet under way. -/
structure Reader where
  /-- The largest body accepted. -/
  limit : Nat
  /-- The milliseconds that remain for the packet once it has begun. -/
  patience : Nat
  stage : Stage
  deriving DecidableEq

/-- What becomes of a packet under way. -/
inductive Progress where
  /-- More octets are needed. -/
  | more (reader : Reader)
  | packet (p : Inbound)
  /-- No packet began in time. -/
  | nothing
  | failed (reason : DisconnectReason)
  deriving DecidableEq

namespace Reader

/-- A reader that waits for a packet to begin. -/
def start (limit patience timeout : Nat) : Reader :=
  ⟨limit, patience, .first timeout⟩

/-- How many octets the reader asks for. -/
def wanted (r : Reader) : Nat :=
  match r.stage with
  | .first _ => 2
  | .header _ => 1
  | .body _ _ missing => missing

/-- The milliseconds that the reader waits for them. -/
def timeout (r : Reader) : Nat :=
  match r.stage with
  | .first timeout => timeout
  | .header _ | .body _ _ _ => r.patience

/-- Lets time go by.  The time for a packet runs once it has begun. -/
def pass (r : Reader) (ms : Nat) : Reader :=
  match r.stage with
  | .first _ => r
  | .header _ | .body _ _ _ => { r with patience := r.patience - ms }

/-- Asks for more octets, while there is time for them. -/
def goOn (r : Reader) : Progress :=
  if r.patience = 0 then .failed .networkFailure else .more r

/-- Goes on with a body: `got` had come, last octet first, `missing` octets were
to come, and `bs` came of these. -/
def fill (r : Reader) (header : Packet.Header) (got : Bytes) (missing : Nat) (bs : Bytes) :
    Progress :=
  if bs.length < missing then
    { r with stage := .body header (bs.reverse ++ got) (missing - bs.length) }.goOn
  else .packet ⟨header.kind, header.flags, got.reverse ++ bs⟩

/-- Goes on with a header of which a part has come.  The two octets asked for at
first may already hold an octet of the body. -/
def parse (r : Reader) (got : Bytes) : Progress :=
  match Packet.Header.decode got with
  | .error _ => .failed .protocolError
  | .ok none =>
    if got.length < 5 then { r with stage := .header got }.goOn else .failed .protocolError
  | .ok (some (header, used)) =>
    if r.limit < header.length then .failed .protocolError
    else r.fill header [] header.length ((got.drop used).take header.length)

/-- Takes what a transport gave after `elapsed` milliseconds: octets, none when
the stream has ended, or a failure. -/
def receive (r : Reader) (given : Except Transport.Error Bytes) (elapsed : Nat) : Progress :=
  let r := r.pass elapsed
  match r.stage, given with
  | _, .ok [] => .failed .networkFailure
  | .first _, .ok bs => r.parse bs
  | .first _, .error e => if e.isTimeout then .nothing else .failed .networkFailure
  | .header got, .ok bs => r.parse (got ++ bs)
  | .body header got missing, .ok bs => r.fill header got missing bs
  | .header _, .error e | .body _ _ _, .error e =>
    if e.isTimeout then r.goOn else .failed .networkFailure

end Reader

end Frame

end Mqtt
