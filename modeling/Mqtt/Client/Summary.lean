import Mqtt.Client
import Mqtt.Text.Quoted

/-!
# The short text of a client

Names a client by its identifier, in quotes, and its phase.
-/

namespace Mqtt.Client

/-- The short text of a client. -/
def summary (c : Client) : String :=
  "Client \x7b client_id: " ++ Text.quote c.config.clientId ++ ", state: " ++ c.phase.name
    ++ ", .. \x7d"

end Mqtt.Client
