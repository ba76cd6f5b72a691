/-!
# Kinds of control packets

The high half of a packet's first octet names its kind.  Of the sixteen
values, 0 and 15 are reserved.
-/

namespace Mqtt.Packet

/-- The fourteen kinds of control packets. -/
inductive Kind where
  | connect
  | connAck
  | publish
  | pubAck
  | pubRec
  | pubRel
  | pubComp
  | subscribe
  | subAck
  | unsubscribe
  | unsubAck
  | pingReq
  | pingResp
  | disconnect
  deriving DecidableEq

namespace Kind

/-- The number of a kind. -/
def code : Kind → UInt8
  | connect => 1
  | connAck => 2
  | publish => 3
  | pubAck => 4
  | pubRec => 5
  | pubRel => 6
  | pubComp => 7
  | subscribe => 8
  | subAck => 9
  | unsubscribe => 10
  | unsubAck => 11
  | pingReq => 12
  | pingResp => 13
  | disconnect => 14

/-- The kind with a given number. -/
def ofCode? : UInt8 → Option Kind
  | 1 => some connect
  | 2 => some connAck
  | 3 => some publish
  | 4 => some pubAck
  | 5 => some pubRec
  | 6 => some pubRel
  | 7 => some pubComp
  | 8 => some subscribe
  | 9 => some subAck
  | 10 => some unsubscribe
  | 11 => some unsubAck
  | 12 => some pingReq
  | 13 => some pingResp
  | 14 => some disconnect
  | _ => none

/-- The kind that a packet's first octet names. -/
def ofFirst? (first : UInt8) : Option Kind :=
  ofCode? (first >>> 4)

/-- The low half of the first octet that the standard demands of a kind.  The
flags of a PUBLISH differ from packet to packet and are not included. -/
def flags : Kind → UInt8
  | pubRel | subscribe | unsubscribe => 2
  | _ => 0

/-- The first octet of a packet of this kind. -/
def first (k : Kind) : UInt8 :=
  k.code <<< 4 ||| k.flags

theorem ofFirst?_first (k : Kind) : ofFirst? k.first = some k := by
  cases k <;> rfl

end Kind

end Mqtt.Packet
