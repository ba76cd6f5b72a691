/-!
# What can be wrong with a packet

One constructor per cause, for packets to be written and packets read.
-/

namespace Mqtt.Packet

/-- Why a packet cannot be written, or is refused when read. -/
inductive Error where
  /-- A remaining length goes on after its fourth octet. -/
  | malformedLength
  /-- A body of `size` octets passes the limit `max`. -/
  | tooLarge (size max : Nat)
  /-- A body ends inside a field, lacks a part or has one too many. -/
  | malformed
  /-- A text field is not UTF-8. -/
  | invalidText
  /-- A number that stands for no delivery guarantee. -/
  | invalidQos (value : UInt8)
  /-- A field of `size` octets does not fit its two-octet length. -/
  | fieldTooLong (size : Nat)
  /-- A first octet that names a reserved kind. -/
  | reservedKind (first : UInt8)
  deriving DecidableEq

/-- An octet as two lower-case hexadecimal digits. -/
def hexDigits (b : UInt8) : String :=
  String.ofList [Nat.digitChar (b.toNat / 16), Nat.digitChar (b.toNat % 16)]

/-- The wording of a cause. -/
def Error.message : Error → String
  | malformedLength => "malformed remaining length"
  | tooLarge size max => s!"packet of {size} bytes exceeds the limit of {max}"
  | malformed => "malformed packet"
  | invalidText => "string is not valid UTF-8"
  | invalidQos value => "invalid QoS value " ++ toString value.toNat
  | fieldTooLong size => s!"string of {size} bytes does not fit a length prefix"
  | reservedKind first => "unknown packet type in header byte 0x" ++ hexDigits first

end Mqtt.Packet
