import Mqtt.Client

/-!
# Calls

What an application asks of a client, what it is answered, and what it does when
it is told of an event.
-/

namespace Mqtt

/-- A call on a client. -/
inductive Call where
  | start
  | destroy
  /-- Wait for the thread to end. -/
  | join
  /-- Wait for the thread to end, unless it is alive and would have to be waited for. -/
  | tryJoin
  | reconnect
  | disconnect (notify : Bool)
  | subscribe (filter : String) (qos : Qos)
  /-- Ask the broker for filters in one request. -/
  | subscribeAll (filters : List (String × Qos))
  | unsubscribe (filter : String)
  /-- Ask the broker to drop filters in one request. -/
  | unsubscribeAll (filters : List String)
  | publish (topic : String) (payload : Bytes) (qos : Qos) (retain : Bool)
  /-- Give up a pending transaction. -/
  | discard (awaits : AckKind) (packetId : UInt16)
  /-- Replace some of the settings. -/
  | configure (settings : List Config.Setting)
  /-- Make a will. -/
  | makeWill (topic : String) (payload : Bytes) (qos : Qos) (retain : Bool)
  | setWill (will : Option LastWill)
  | enable (mask : EventMask)
  | disable (mask : EventMask)
  | subscriptions
  | pendingCount
  | phase
  | config
  | summary
  deriving DecidableEq

/-- The answer to a call. -/
inductive Reply where
  | failed (e : Error)
  | done
  | packetId (id : Option UInt16)
  | subscriptions (granted : List (String × Qos))
  | count (n : Nat)
  | phase (p : Phase)
  | config (c : Config)
  | text (s : String)
  /-- The thread is alive, so a call that waits for its end cannot return yet. -/
  | waiting
  deriving DecidableEq

/-- Who makes a call. -/
inductive Caller where
  | application
  /-- A callback on the thread of the client. -/
  | thread
  deriving DecidableEq

/-- What a callback does, one thing after the other, each with an eye on what
came of those before. -/
inductive Plan where
  | finish
  /-- Make a call; `heeded` says whether the application takes note of the answer. -/
  | call (c : Call) (heeded : Bool) (next : Reply → Plan)
  /-- Let so many milliseconds go by, and look at the clock. -/
  | wait (ms : UInt32) (next : UInt32 → Plan)

end Mqtt
