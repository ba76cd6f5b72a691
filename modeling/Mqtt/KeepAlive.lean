import Mqtt.Timer

/-!
# Heartbeat

While a session stands, a PINGREQ goes out each time a period passes.  An
answer starts the period anew; after five without an answer the session is held
to be dead.
-/

namespace Mqtt

/-- The state of the heartbeat. -/
structure KeepAlive where
  timer : Timer := {}
  /-- The PINGREQs since the last answer. -/
  missed : UInt8 := 0
  deriving DecidableEq

namespace KeepAlive

/-- How many PINGREQs may stay unanswered. -/
def limit : UInt8 := 5

/-- What a look at the heartbeat asks for. -/
inductive Beat where
  | quiet
  | ping
  | dead
  deriving DecidableEq

/-- The heartbeat of a session that begins at `now`. -/
def fresh (now period : UInt32) : KeepAlive :=
  ⟨⟨now, period⟩, 0⟩

/-- An answer came at `now`. -/
def pong (k : KeepAlive) (now : UInt32) : KeepAlive :=
  ⟨k.timer.restart now, 0⟩

/-- A look at the heartbeat at `now`. -/
def poll (k : KeepAlive) (now : UInt32) : Beat × KeepAlive :=
  if !k.timer.expired now then (.quiet, k)
  else if limit ≤ k.missed then (.dead, k)
  else (.ping, ⟨k.timer.restart now, k.missed + 1⟩)

end KeepAlive

end Mqtt
