import Mqtt.Config.Json
import Mqtt.Proofs.Accounts
import Mqtt.Proofs.Agreement
import Mqtt.Proofs.Delivery
import Mqtt.Proofs.Discipline
import Mqtt.Proofs.ExactlyOnce
import Mqtt.Proofs.Framing
import Mqtt.Proofs.Grants
import Mqtt.Proofs.Heartbeat
import Mqtt.Proofs.Identifiers
import Mqtt.Proofs.Lapses
import Mqtt.Proofs.Lines
import Mqtt.Proofs.Reading
import Mqtt.Proofs.Reconnections
import Mqtt.Proofs.Requests
import Mqtt.Proofs.RoundTrip
import Mqtt.Proofs.Teardown
import Mqtt.Simulation
import Mqtt.Proofs.Rhythm
import Mqtt.Proofs.Tuned
import Mqtt.Proofs.Rollback
import Mqtt.Proofs.Salutes
import Mqtt.Proofs.Staging
import Mqtt.Proofs.Lineup
import Mqtt.Proofs.Resends
import Mqtt.Proofs.Showing
import Mqtt.Proofs.Renewal
import Mqtt.Proofs.Silence
import Mqtt.Proofs.Fidelity
import Mqtt.Proofs.Phases
import Mqtt.Proofs.Layout
import Mqtt.Proofs.Looks
import Mqtt.Proofs.Answers
import Mqtt.Proofs.Locality
import Mqtt.Proofs.Lengths
import Mqtt.Proofs.Pings
import Mqtt.Proofs.Register
import Mqtt.Proofs.Documents
import Mqtt.Proofs.Offers
