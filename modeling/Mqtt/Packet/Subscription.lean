import Mqtt.Qos
import Mqtt.Packet.Kind
import Mqtt.Packet.Put
import Mqtt.Packet.Field

/-!
# Requests about topic filters

SUBSCRIBE and UNSUBSCRIBE carry a packet identifier and a list of filters that
is not empty.  SUBACK answers a SUBSCRIBE with one code per filter.
-/

namespace Mqtt.Packet

/-- The code of a filter that the broker refuses. -/
def refusedCode : UInt8 := 0x80

/-- The parts of a SUBSCRIBE. -/
structure Subscribe where
  packetId : UInt16
  filters : List (String × Qos)
  deriving DecidableEq

namespace Subscribe

/-- Writes a SUBSCRIBE. -/
def put (s : Subscribe) : Put Unit := do
  if s.filters.isEmpty then throw .malformed
  let size ← Put.measureAll (s.filters.map fun (filter, _) => Bytes.ofText filter)
  Put.header Kind.subscribe.first (2 + size + s.filters.length)
  Put.word s.packetId
  s.filters.forM fun (filter, qos) => do
    Put.field (Bytes.ofText filter)
    Put.bytes [qos.toByte]

/-- Reads filters with their guarantees up to the end of a body. -/
def decodeFilters (body : Bytes) : Except Error (List (String × Qos)) :=
  if body.isEmpty then .ok []
  else match _taken : Field.text body with
    | .error e => .error e
    | .ok (_, []) => .error .malformed
    | .ok (filter, number :: rest) =>
      match Qos.ofByte? number with
      | none => .error (.invalidQos number)
      | some qos =>
        match decodeFilters rest with
        | .error e => .error e
        | .ok filters => .ok ((filter, qos) :: filters)
termination_by body.length
decreasing_by
  have shorter := Field.text_length_lt _taken
  simp only [List.length_cons] at shorter
  omega

/-- Reads the body of a SUBSCRIBE. -/
def decode (body : Bytes) : Except Error Subscribe := do
  let (id, rest) ← Field.word body
  let filters ← decodeFilters rest
  if filters.isEmpty then throw .malformed
  return ⟨id, filters⟩

end Subscribe

/-- The parts of a SUBACK. -/
structure SubAck where
  packetId : UInt16
  /-- One code per filter of the request. -/
  codes : Bytes
  deriving DecidableEq

/-- Reads the body of a SUBACK. -/
def SubAck.decode (body : Bytes) : Except Error SubAck := do
  let (id, codes) ← Field.word body
  if codes.isEmpty then throw .malformed
  return ⟨id, codes⟩

/-- The parts of an UNSUBSCRIBE. -/
structure Unsubscribe where
  packetId : UInt16
  filters : List String
  deriving DecidableEq

namespace Unsubscribe

/-- Writes an UNSUBSCRIBE. -/
def put (u : Unsubscribe) : Put Unit := do
  if u.filters.isEmpty then throw .malformed
  let size ← Put.measureAll (u.filters.map Bytes.ofText)
  Put.header Kind.unsubscribe.first (2 + size)
  Put.word u.packetId
  u.filters.forM fun filter => Put.field (Bytes.ofText filter)

/-- Reads filters up to the end of a body. -/
def decodeFilters (body : Bytes) : Except Error (List String) :=
  if body.isEmpty then .ok []
  else match _taken : Field.text body with
    | .error e => .error e
    | .ok (filter, rest) =>
      match decodeFilters rest with
      | .error e => .error e
      | .ok filters => .ok (filter :: filters)
termination_by body.length
decreasing_by exact Field.text_length_lt _taken

/-- Reads the body of an UNSUBSCRIBE. -/
def decode (body : Bytes) : Except Error Unsubscribe := do
  let (id, rest) ← Field.word body
  let filters ← decodeFilters rest
  if filters.isEmpty then throw .malformed
  return ⟨id, filters⟩

end Unsubscribe

end Mqtt.Packet
