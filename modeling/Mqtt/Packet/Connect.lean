import Mqtt.Qos
import Mqtt.Packet.Kind
import Mqtt.Packet.Put

/-!
# Opening a session

CONNECT asks the broker for a session, CONNACK is the answer.
-/

namespace Mqtt.Packet

/-- The name of the protocol, the first field of every CONNECT. -/
def protocolName : Bytes := [0x4D, 0x51, 0x54, 0x54]

/-- The level of the protocol, version 3.1.1. -/
def protocolLevel : UInt8 := 4

/-- A message that the broker publishes when the client vanishes. -/
structure Will where
  topic : String
  payload : Bytes
  qos : Qos
  retain : Bool
  deriving DecidableEq

/-- What a will adds to the flags of a CONNECT. -/
def Will.flags (w : Will) : UInt8 :=
  w.qos.toByte <<< 3 ||| 0x04 ||| (if w.retain then 0x20 else 0)

/-- The parts of a CONNECT. -/
structure Connect where
  clientId : String
  /-- Seconds between signs of life; zero asks for none. -/
  keepAlive : UInt16
  /-- Whether the broker discards what it holds of an earlier session. -/
  cleanSession : Bool
  username : Option String
  /-- Sent only beside a user name. -/
  password : Option Bytes
  will : Option Will
  deriving DecidableEq

namespace Connect

/-- The password as far as it is sent. -/
def sentPassword (c : Connect) : Option Bytes :=
  match c.username with
  | none => none
  | some _ => c.password

/-- The octet that says which parts are present. -/
def flags (c : Connect) : UInt8 :=
  (if c.cleanSession then 0x02 else 0)
    ||| (match c.will with
      | none => 0
      | some w => w.flags)
    ||| (if c.username.isSome then 0x80 else 0)
    ||| (if c.sentPassword.isSome then 0x40 else 0)

/-- The length-prefixed fields after the keep-alive, in their order. -/
def fields (c : Connect) : List Bytes :=
  [Bytes.ofText c.clientId]
    ++ (match c.will with
      | none => []
      | some w => [Bytes.ofText w.topic, w.payload])
    ++ (c.username.map Bytes.ofText).toList
    ++ c.sentPassword.toList

/-- Writes a CONNECT. -/
def put (c : Connect) : Put Unit := do
  let size ← Put.measureAll c.fields
  Put.header Kind.connect.first (10 + size)
  Put.field protocolName
  Put.bytes [protocolLevel, c.flags]
  Put.word c.keepAlive
  c.fields.forM Put.field

end Connect

/-- The parts of a CONNACK. -/
structure ConnAck where
  /-- The broker goes on with a session it holds. -/
  sessionPresent : Bool
  /-- Zero accepts, all else refuses. -/
  returnCode : UInt8
  deriving DecidableEq

/-- Reads the body of a CONNACK. -/
def ConnAck.decode : Bytes → Except Error ConnAck
  | [flags, returnCode] => .ok ⟨flags &&& 1 != 0, returnCode⟩
  | _ => .error .malformed

end Mqtt.Packet
