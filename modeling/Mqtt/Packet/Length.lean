import Mqtt.Bytes
import Mqtt.Packet.Error

/-!
# Remaining length

The number of octets that follow a fixed header, in groups of seven bits, least
significant group first, at most four groups.  The high bit of an octet says
that another group follows.
-/

namespace Mqtt.Packet.Length

/-- The largest remaining length: four full groups. -/
def max : Nat := 268435455

/-- The groups of `n`, all but the last marked as followed by another. -/
def groups (n : Nat) : Bytes :=
  if n < 128 then [n.toUInt8]
  else (n % 128 + 128).toUInt8 :: groups (n / 128)
termination_by n

/-- The written form of a remaining length. -/
def encode (n : Nat) : Except Error Bytes :=
  if max < n then .error (.tooLarge n max) else .ok (groups n)

/-- Reads groups off the front of a list, at most `room` of them: the value and
the number of octets used, or `none` when more octets are needed. -/
def decodeWithin : (room : Nat) → Bytes → Except Error (Option (Nat × Nat))
  | 0, _ => .error .malformedLength
  | _ + 1, [] => .ok none
  | room + 1, b :: rest =>
    if b < 128 then .ok (some (b.toNat, 1))
    else match decodeWithin room rest with
      | .error e => .error e
      | .ok none => .ok none
      | .ok (some (value, used)) => .ok (some (b.toNat - 128 + 128 * value, used + 1))

/-- Reads a remaining length off the front of a list. -/
def decode (bs : Bytes) : Except Error (Option (Nat × Nat)) :=
  decodeWithin 4 bs

end Mqtt.Packet.Length
