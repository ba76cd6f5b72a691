import Mqtt.Packet.Connect
import Mqtt.Topic

/-!
# Last wills

The message that the broker publishes for a client that is lost.  A will is made
with a topic that is a proper topic name, but its fields may be set to anything.
-/

namespace Mqtt

/-- A last will, as the application sets it. -/
structure LastWill extends Packet.Will
  deriving DecidableEq

namespace LastWill

/-- Makes a will, if its topic is a proper topic name. -/
def make (topic : String) (payload : Bytes) (qos : Qos) (retain : Bool) :
    Except Topic.Fault LastWill :=
  match Topic.checkName topic with
  | .error fault => .error fault
  | .ok () => .ok ⟨{ topic, payload, qos, retain }⟩

end LastWill

end Mqtt
