import Mqtt.Packet.Error
import Mqtt.Topic
import Mqtt.Transport

/-!
# Errors of a client

A call on a client fails for one of these causes.  What goes wrong after a call
has returned is reported by events.
-/

namespace Mqtt

/-- How an attempt to open a session ended. -/
inductive ConnectStatus where
  | accepted
  | unacceptableVersion
  | identifierRejected
  | serverUnavailable
  | badCredentials
  | notAuthorized
  /-- A return code that the standard does not name. -/
  | unknown (code : UInt8)
  /-- The transport could not be opened, or failed before an answer came. -/
  | networkError
  /-- The CONNECT could not be sent. -/
  | sendFailed
  /-- No answer came in time. -/
  | timeout
  /-- The answer was no proper CONNACK. -/
  | protocolError
  deriving DecidableEq

namespace ConnectStatus

/-- The status behind the return code of a CONNACK. -/
def ofReturnCode : UInt8 → ConnectStatus
  | 0 => accepted
  | 1 => unacceptableVersion
  | 2 => identifierRejected
  | 3 => serverUnavailable
  | 4 => badCredentials
  | 5 => notAuthorized
  | code => unknown code

/-- The wording of a status. -/
def message : ConnectStatus → String
  | accepted => "accepted"
  | unacceptableVersion => "unacceptable protocol version"
  | identifierRejected => "identifier rejected"
  | serverUnavailable => "server unavailable"
  | badCredentials => "bad user name or password"
  | notAuthorized => "not authorized"
  | unknown code => "unknown return code " ++ toString code.toNat
  | networkError => "network error"
  | sendFailed => "sending CONNECT failed"
  | timeout => "timed out waiting for CONNACK"
  | protocolError => "expected CONNACK"

end ConnectStatus

/-- What is wrong with a set of settings. -/
inductive SettingsFault where
  | hostEmpty
  | clientIdTooLong
  /-- A lasting session needs a client identifier. -/
  | clientIdMissing
  | passwordAlone
  | zeroTimeout
  | zeroAckTimeout
  | packetSizeOutOfRange
  /-- The text of the settings does not follow the grammar. -/
  | malformedText
  deriving DecidableEq

/-- The wording of a fault. -/
def SettingsFault.message : SettingsFault → String
  | hostEmpty => "host is empty"
  | clientIdTooLong => "client id is too long"
  | clientIdMissing => "an empty client id requires a clean session"
  | passwordAlone => "password given without user name"
  | zeroTimeout => "timeouts must be non-zero"
  | zeroAckTimeout => "ack timeout must be non-zero"
  | packetSizeOutOfRange => "max packet size out of range"
  | malformedText => "malformed configuration JSON"

/-- Why a call on a client fails. -/
inductive Error where
  | topic (fault : Topic.Fault)
  | settings (fault : SettingsFault)
  /-- A request names no topic filter. -/
  | noFilters
  /-- No such transaction is pending. -/
  | noTransaction
  /-- Every packet identifier is in use. -/
  | idsExhausted
  /-- The thread of the client cannot be spawned. -/
  | noThread
  | packet (e : Packet.Error)
  | transport (e : Transport.Error)
  | notConnected
  /-- The call does not fit the phase of the client. -/
  | invalidState
  | destroyed
  | connectFailed (status : ConnectStatus)
  deriving DecidableEq

namespace Error

/-- The wording of a cause. -/
def message : Error → String
  | topic fault => "invalid parameter: " ++ fault.message
  | settings fault => "invalid parameter: " ++ fault.message
  | noFilters => "invalid parameter: no topic filters"
  | noTransaction => "invalid parameter: no such transaction"
  | idsExhausted => "resource exhausted: packet identifiers"
  | noThread => "resource exhausted: client thread"
  | packet e => e.message
  | transport e => "transport: " ++ e.message
  | notConnected => "client is not connected"
  | invalidState => "operation not valid in the current state"
  | destroyed => "client was destroyed"
  | connectFailed status => "connect failed: " ++ status.message

/-- Whether a failed send ends the session: all but a send that ran out of time. -/
def isFatal : Error → Bool
  | transport e => !e.isTimeout
  | _ => true

end Error

end Mqtt
