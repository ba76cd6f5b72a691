/-!
# Countdown timers

Uptime is a 32-bit count of milliseconds that wraps.  A timer looks only at
the difference of two readings, so a countdown across the wrap is like any other.
-/

namespace Mqtt

/-- A countdown of `period` milliseconds from the reading `start`. -/
structure Timer where
  start : UInt32 := 0
  period : UInt32 := 0
  deriving DecidableEq

namespace Timer

/-- The same countdown begun again at `now`. -/
def restart (t : Timer) (now : UInt32) : Timer :=
  { t with start := now }

/-- A countdown of `period` milliseconds begun at `now` in place of the one before. -/
def countdown (t : Timer) (now period : UInt32) : Timer :=
  { t with start := now, period := period }

/-- The milliseconds since the start. -/
def elapsed (t : Timer) (now : UInt32) : UInt32 :=
  now - t.start

/-- Whether the countdown is over. -/
def expired (t : Timer) (now : UInt32) : Bool :=
  t.period ≤ t.elapsed now

/-- The milliseconds left, zero once the countdown is over. -/
def remaining (t : Timer) (now : UInt32) : UInt32 :=
  if t.expired now then 0 else t.period - t.elapsed now

end Timer

end Mqtt
