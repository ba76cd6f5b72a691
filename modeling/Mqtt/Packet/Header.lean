import Mqtt.Packet.Kind
import Mqtt.Packet.Length

/-!
# Fixed headers

A packet opens with the octet of its kind and flags and the length of its body.
-/

namespace Mqtt.Packet

/-- A fixed header. -/
structure Header where
  kind : Kind
  /-- The low half of the first octet. -/
  flags : UInt8
  /-- How many octets follow. -/
  length : Nat
  deriving DecidableEq

/-- Reads a fixed header off the front of a list: the header and the number of
octets used, or `none` when more octets are needed.  A reserved kind is refused
before its length is looked at. -/
def Header.decode : Bytes → Except Error (Option (Header × Nat))
  | [] => .ok none
  | first :: rest =>
    match Kind.ofFirst? first with
    | none => .error (.reservedKind first)
    | some kind =>
      match Length.decode rest with
      | .error e => .error e
      | .ok none => .ok none
      | .ok (some (length, used)) => .ok (some (⟨kind, first &&& 15, length⟩, used + 1))

end Mqtt.Packet
