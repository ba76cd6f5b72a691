import Mqtt.Bytes
import Mqtt.Qos
import Mqtt.Error
import Mqtt.Packet.Kind

/-!
# Events

What a client tells its application, and the sets of kinds by which an
application chooses what it is told.
-/

namespace Mqtt

/-- The acknowledgement that a transaction waits for. -/
inductive AckKind where
  | subAck
  | unsubAck
  | pubAck
  | pubRec
  /-- The answer to our PUBREC, for a message received at the highest guarantee. -/
  | pubRel
  | pubComp
  deriving DecidableEq

namespace AckKind

/-- The kind of packet that is the acknowledgement. -/
def packetKind : AckKind → Packet.Kind
  | subAck => .subAck
  | unsubAck => .unsubAck
  | pubAck => .pubAck
  | pubRec => .pubRec
  | pubRel => .pubRel
  | pubComp => .pubComp

/-- Requests about filters expire; all other transactions are sent again. -/
def isRequest : AckKind → Bool
  | subAck | unsubAck => true
  | _ => false

/-- Whether the identifier is one of this client's own.  A transaction that
waits for PUBREL carries the broker's. -/
def isLocal : AckKind → Bool
  | pubRel => false
  | _ => true

/-- Whether the packet sent again is a PUBLISH. -/
def isPublish : AckKind → Bool
  | pubAck | pubRec => true
  | _ => false

end AckKind

/-- A message received. -/
structure Message where
  topic : String
  payload : Bytes
  qos : Qos
  retain : Bool
  dup : Bool
  packetId : Option UInt16
  deriving DecidableEq

/-- Why a session ended or did not begin. -/
inductive DisconnectReason where
  | networkFailure
  | keepAliveTimeout
  /-- A packet could not be told from the stream. -/
  | protocolError
  | connectFailed (status : ConnectStatus)
  | userRequested
  deriving DecidableEq

/-- What a client tells its application. -/
inductive Event where
  | connected (sessionPresent : Bool)
  | disconnected (reason : DisconnectReason)
  | subscribed (topic : String) (qos : Qos) (packetId : UInt16)
  | subscribeFailed (topic : String) (packetId : UInt16)
  | unsubscribed (topic : String) (packetId : UInt16)
  | unsubscribeFailed (topic : String) (packetId : UInt16)
  | published (topic : String) (qos : Qos) (packetId : UInt16)
  /-- A message on a subscribed topic. -/
  | data (message : Message)
  /-- A message that no subscription asked for. -/
  | unsubscribedData (message : Message)
  /-- A packet was sent again. -/
  | resent (kind : AckKind) (packetId : UInt16) (retries : UInt32)
  /-- So many transactions are pending. -/
  | pendingWarning (count : Nat)
  /-- A transaction has been sent again as often as allowed. -/
  | retryWarning (kind : AckKind) (packetId : UInt16) (retries : UInt32)
  /-- A transaction was dropped at the application's wish. -/
  | discarded (kind : AckKind) (packetId : UInt16) (topic : String)
  /-- A connection is about to be tried again. -/
  | reconnecting
  /-- The client is about to be torn down. -/
  | destroying
  deriving DecidableEq

/-- The kinds of events. -/
inductive EventKind where
  | connected
  | disconnected
  | subscribed
  | subscribeFailed
  | unsubscribed
  | unsubscribeFailed
  | published
  | data
  | unsubscribedData
  | resent
  | pendingWarning
  | retryWarning
  | discarded
  | reconnecting
  | destroying
  deriving DecidableEq

namespace EventKind

/-- All kinds, in the order of their bits. -/
def all : List EventKind :=
  [connected, disconnected, subscribed, subscribeFailed, unsubscribed, unsubscribeFailed,
    published, data, unsubscribedData, resent, pendingWarning, retryWarning, discarded,
    reconnecting, destroying]

/-- The place of a kind's bit. -/
def index : EventKind → UInt32
  | connected => 0
  | disconnected => 1
  | subscribed => 2
  | subscribeFailed => 3
  | unsubscribed => 4
  | unsubscribeFailed => 5
  | published => 6
  | data => 7
  | unsubscribedData => 8
  | resent => 9
  | pendingWarning => 10
  | retryWarning => 11
  | discarded => 12
  | reconnecting => 13
  | destroying => 14

/-- The bit of a kind. -/
def bit (k : EventKind) : UInt32 :=
  1 <<< k.index

end EventKind

namespace Event

/-- The kind of an event. -/
def kind : Event → EventKind
  | connected _ => .connected
  | disconnected _ => .disconnected
  | subscribed _ _ _ => .subscribed
  | subscribeFailed _ _ => .subscribeFailed
  | unsubscribed _ _ => .unsubscribed
  | unsubscribeFailed _ _ => .unsubscribeFailed
  | published _ _ _ => .published
  | data _ => .data
  | unsubscribedData _ => .unsubscribedData
  | resent _ _ _ => .resent
  | pendingWarning _ => .pendingWarning
  | retryWarning _ _ _ => .retryWarning
  | discarded _ _ _ => .discarded
  | reconnecting => .reconnecting
  | destroying => .destroying

/-- The packet identifier that an event is about. -/
def packetId? : Event → Option UInt16
  | subscribed _ _ id | subscribeFailed _ id | unsubscribed _ id | unsubscribeFailed _ id
  | published _ _ id | resent _ id _ | retryWarning _ id _ | discarded _ id _ => some id
  | data m | unsubscribedData m => m.packetId
  | connected _ | disconnected _ | pendingWarning _ | reconnecting | destroying => none

end Event

/-- A set of kinds of events. -/
structure EventMask where
  bits : UInt32
  deriving DecidableEq

namespace EventMask

/-- No kind. -/
def none : EventMask := ⟨0⟩

/-- Every kind. -/
def all : EventMask := ⟨0x7FFF⟩

/-- One kind. -/
def single (k : EventKind) : EventMask := ⟨k.bit⟩

/-- Whether a kind is in the set. -/
def contains (m : EventMask) (k : EventKind) : Bool :=
  m.bits &&& k.bit != 0

/-- The kinds of either set. -/
def union (m n : EventMask) : EventMask := ⟨m.bits ||| n.bits⟩

/-- The kinds of the first set that are not in the second. -/
def difference (m n : EventMask) : EventMask := ⟨m.bits &&& ~~~n.bits⟩

/-- The kinds of a set, in the order of their bits. -/
def kinds (m : EventMask) : List EventKind :=
  EventKind.all.filter m.contains

end EventMask

end Mqtt
