import Mqtt.Packet.Kind
import Mqtt.Packet.Field

/-!
# Acknowledgements and packets without a body

An acknowledgement is four octets: its header and the identifier it answers.
PINGREQ, PINGRESP and DISCONNECT are a header alone.
-/

namespace Mqtt.Packet

/-- The packet of kind `kind` whose body is one identifier. -/
def ack (kind : Kind) (id : UInt16) : Bytes :=
  kind.first :: 2 :: Bytes.ofWord id

/-- Reads the identifier that is the whole body of an acknowledgement. -/
def decodeAck : Bytes → Except Error UInt16
  | [hi, lo] => .ok (Bytes.word hi lo)
  | _ => .error .malformed

/-- Asks the broker for a sign of life. -/
def pingReq : Bytes := [Kind.pingReq.first, 0]

/-- The broker's sign of life. -/
def pingResp : Bytes := [Kind.pingResp.first, 0]

/-- Ends a session in good order. -/
def disconnect : Bytes := [Kind.disconnect.first, 0]

end Mqtt.Packet
