import Mqtt.Qos
import Mqtt.Packet.Kind
import Mqtt.Packet.Put
import Mqtt.Packet.Field

/-!
# Application messages

A PUBLISH carries a message in either direction.  Its packet identifier stands
for one delivery, and is absent at the lowest guarantee.
-/

namespace Mqtt.Packet

/-- The flag of a PUBLISH that was sent before. -/
def dupFlag : UInt8 := 8

/-- The parts of a PUBLISH. -/
structure Publish where
  /-- Whether an earlier attempt was made. -/
  dup : Bool
  qos : Qos
  /-- Whether the broker keeps the message for later subscribers. -/
  retain : Bool
  topic : String
  packetId : Option UInt16
  payload : Bytes
  deriving DecidableEq

namespace Publish

/-- The low half of the first octet. -/
def flags (p : Publish) : UInt8 :=
  p.qos.toByte <<< 1 ||| (if p.dup then dupFlag else 0) ||| (if p.retain then 1 else 0)

/-- The identifier as it is sent: none at the lowest guarantee, else one that is
not zero. -/
def sentId (p : Publish) : Except Error (Option UInt16) :=
  match p.qos, p.packetId with
  | .atMostOnce, _ => .ok none
  | _, some id => if id = 0 then .error .malformed else .ok (some id)
  | _, none => .error .malformed

/-- Writes a PUBLISH. -/
def put (p : Publish) : Put Unit := do
  let size ← Put.measure (Bytes.ofText p.topic)
  match p.sentId with
  | .error e => throw e
  | .ok id =>
    let idBytes := (id.map Bytes.ofWord).getD []
    Put.header (Kind.publish.first ||| p.flags) (size + p.payload.length + idBytes.length)
    Put.field (Bytes.ofText p.topic)
    Put.bytes idBytes
    Put.bytes p.payload

/-- Reads the body of a PUBLISH with the flags of its header. -/
def decode (flags : UInt8) (body : Bytes) : Except Error Publish := do
  let number := flags >>> 1 &&& 3
  let some qos := Qos.ofByte? number | throw (.invalidQos number)
  let (topic, rest) ← Field.text body
  let dup := flags &&& dupFlag != 0
  let retain := flags &&& 1 != 0
  match qos with
  | .atMostOnce => return ⟨dup, qos, retain, topic, none, rest⟩
  | _ =>
    let (id, payload) ← Field.word rest
    if id = 0 then throw .malformed
    return ⟨dup, qos, retain, topic, some id, payload⟩

end Publish

/-- Marks a written PUBLISH as sent before; any other packet stays as it is. -/
def markDup : Bytes → Bytes
  | [] => []
  | first :: rest =>
    if Kind.ofFirst? first = some .publish then (first ||| dupFlag) :: rest else first :: rest

end Mqtt.Packet
