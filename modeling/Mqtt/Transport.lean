import Mqtt.Bytes

/-!
# Transports

A transport is a stream of octets in either direction.  It takes as much of an
offer as it likes, within a time; `sendAll` offers what is left until all is
taken, the time is used up or the transport fails.
-/

namespace Mqtt.Transport

/-- How a transport fails. -/
inductive Error where
  | notOpen
  | writeFailed
  | readFailed
  | refused
  /-- The time for an operation passed; the transport can still be used. -/
  | timeout
  | closed
  | invalidAddress
  | protocol
  deriving DecidableEq

namespace Error

/-- The wording of a failure. -/
def message : Error → String
  | notOpen => "connection is not open"
  | writeFailed => "write failed"
  | readFailed => "read failed"
  | refused => "connection refused"
  | timeout => "operation timed out"
  | closed => "connection closed by peer"
  | invalidAddress => "invalid address"
  | protocol => "protocol error"

/-- Whether the failure leaves the transport usable. -/
def isTimeout (e : Error) : Bool :=
  e == timeout

end Error

/-- What an operating system says of a failed call on a socket. -/
inductive Fault where
  | wouldBlock
  | timedOut
  | connectionRefused
  | connectionReset
  | connectionAborted
  | brokenPipe
  | unexpectedEnd
  | notConnected
  | addressUnavailable
  | invalidInput
  | wroteNothing
  | other
  deriving DecidableEq

/-- The failure of a transport behind a fault of its socket. -/
def Fault.toError : Fault → Error
  | wouldBlock | timedOut => .timeout
  | connectionRefused => .refused
  | connectionReset | connectionAborted | brokenPipe | unexpectedEnd => .closed
  | notConnected => .notOpen
  | addressUnavailable | invalidInput => .invalidAddress
  | wroteNothing => .writeFailed
  | other => .readFailed

/-- What becomes of an offer. -/
inductive Outcome where
  /-- The first `count` octets were taken. -/
  | accepted (count : Nat)
  | failed (e : Error)
  deriving DecidableEq

/-- An offer made to a transport and what became of it. -/
structure Attempt where
  /-- What was to be sent; the offer is what was left of it. -/
  whole : Bytes
  offered : Bytes
  outcome : Outcome
  deriving DecidableEq

/-- A transport's answer to an offer: the outcome and the milliseconds it took. -/
structure Answer where
  outcome : Outcome
  elapsed : Nat

/-- The result of sending: how it ended, the offers made in their order, the
milliseconds that they took, and the transport afterwards. -/
structure Sent (σ : Type) where
  result : Except Error Unit
  attempts : List Attempt
  elapsed : Nat
  line : σ

/-- Sends the rest `bs` of `whole` within `left` milliseconds.  `offer` makes one
offer, with the time that remains for it. -/
def sendRest {σ : Type} (offer : σ → Bytes → Nat → Answer × σ) (whole bs : Bytes) (left : Nat)
    (line : σ) : Sent σ :=
  if _more : bs = [] then ⟨.ok (), [], 0, line⟩
  else if left = 0 then ⟨.error .timeout, [], 0, line⟩
  else match offer line bs left with
    | (⟨.failed e, elapsed⟩, line) => ⟨.error e, [⟨whole, bs, .failed e⟩], elapsed, line⟩
    | (⟨.accepted 0, elapsed⟩, line) => ⟨.error .closed, [⟨whole, bs, .accepted 0⟩], elapsed, line⟩
    | (⟨.accepted (n + 1), elapsed⟩, line) =>
      let rest := sendRest offer whole (bs.drop (n + 1)) (left - elapsed) line
      { rest with
        attempts := ⟨whole, bs, .accepted (n + 1)⟩ :: rest.attempts
        elapsed := elapsed + rest.elapsed }
termination_by bs.length
decreasing_by
  have := List.length_pos_iff.2 _more
  simp only [List.length_drop]
  omega

/-- Sends all of `bs` within `left` milliseconds. -/
def sendAll {σ : Type} (offer : σ → Bytes → Nat → Answer × σ) (bs : Bytes) (left : Nat)
    (line : σ) : Sent σ :=
  sendRest offer bs bs left line

end Mqtt.Transport
