/-!
# Quality of service

The three delivery guarantees of MQTT and their numbers on the wire.
-/

namespace Mqtt

/-- A delivery guarantee. -/
inductive Qos where
  /-- Delivered once or lost. -/
  | atMostOnce
  /-- Delivered, perhaps more than once. -/
  | atLeastOnce
  /-- Delivered once, by a four-step handshake. -/
  | exactlyOnce
  deriving DecidableEq

namespace Qos

/-- The number that stands for a guarantee in packets. -/
def toByte : Qos → UInt8
  | atMostOnce => 0
  | atLeastOnce => 1
  | exactlyOnce => 2

/-- The guarantee with a given number; three and above stand for none. -/
def ofByte? : UInt8 → Option Qos
  | 0 => some atMostOnce
  | 1 => some atLeastOnce
  | 2 => some exactlyOnce
  | _ => none

theorem ofByte?_toByte (q : Qos) : ofByte? q.toByte = some q := by
  cases q <;> rfl

end Qos

end Mqtt
