import Mqtt.Proofs.Moments

/-!
# Where an application finds a client

An application meets a client between two inputs, whenever it is told of an event, and after
each call and each wait of a callback, which may lead to events of their own.  `Found` are the
systems that it meets there; calls add their moves to those of the runs, so what moves of calls
keep and what holds at every moment of every run holds wherever an application looks
(`Found.holds`).
-/

namespace Mqtt

variable {σ : Type} [Environment σ] {s s' : System σ}

/-- The system once a callback has made a call, with room for callbacks `depth` levels deep. -/
def System.reacted (s : System σ) (depth : Nat) (caller : Caller) (c : Call) (heeded : Bool) :
    System σ :=
  let answered := (Act.perform (Act.raiseAt depth caller) caller c).run s
  answered.2.note (.reacted caller c heeded answered.1)

/-- The system once a callback has let time go by. -/
def System.waited (s : System σ) (caller : Caller) (ms : UInt32) : System σ :=
  let passed := Environment.wait s.outside ms
  (s.shift passed.2).note (.waited caller ms passed.1)

/-- The systems that an application finds: those that inputs lead to, those in which an event
arises, and those that the calls and the waits of callbacks lead to from there. -/
inductive Found : System σ → Prop
  | reachable {s : System σ} : Reachable s → Found s
  | told {s : System σ} {client : Client} {log : List Entry} (outside : σ) : Found s →
    s.Moment client log → Found ⟨client, outside, log⟩
  | reacted {s : System σ} (depth : Nat) (caller : Caller) (c : Call) (heeded : Bool) :
    Found s → Found (s.reacted depth caller c heeded)
  | waited {s : System σ} (caller : Caller) (ms : UInt32) : Found s → Found (s.waited caller ms)

namespace Found

/-- Whatever a callback does leads to a system that is found, step by step. -/
theorem carryOut (found : Found s) (depth : Nat) (caller : Caller) (plan : Plan) :
    (Act.carryOut (Act.perform (Act.raiseAt depth caller) caller) caller plan).Ends s
      fun _ s' => Found s' := by
  induction plan generalizing s with
  | finish => exact found
  | call c heeded next ih => exact ih _ (found.reacted depth caller c heeded)
  | wait ms next ih => exact ih _ (found.waited caller ms)

variable {P : Client → List Entry → Prop}

omit [Environment σ] in
/-- What held whenever an event had arisen held at each moment before the present. -/
theorem shown_of_moment {client : Client} {log : List Entry} (moment : s.Moment client log)
    (shown : Shown P s.log) : Shown P log := by
  cases moment with
  | now => exact shown
  | before suffixed =>
    exact fun _ _ _ _ earlier => shown _ _ _ _ (earlier.trans suffixed)

/-- What calls keep, and with it that it held whenever an event had arisen. -/
theorem shown_of_calls (kept : ∀ {s s' : System σ}, CallMove s s' → P s.client s.log →
    P s'.client s'.log) (calls : Calls s s') (start : P s.client s.log ∧ Shown P s.log) :
    P s'.client s'.log ∧ Shown P s'.log := by
  induction calls with
  | refl => exact start
  | tail _ move ih => exact ⟨kept move ih.1, ih.2.later move.raises (kept move ih.1)⟩

/-- What holds at every moment of a run and is kept by every move of a call holds wherever an
application finds the client. -/
theorem holds
    (reached : ∀ {s : System σ} {client : Client} {log : List Entry}, Reachable s →
      s.Moment client log → P client log)
    (kept : ∀ {s s' : System σ}, CallMove s s' → P s.client s.log → P s'.client s'.log)
    (found : Found s) : P s.client s.log := by
  suffices P s.client s.log ∧ Shown P s.log from this.1
  induction found with
  | reachable reachable =>
    exact ⟨reached reachable .now, fun _ _ _ _ suffixed => reached reachable (.before suffixed)⟩
  | told outside _ moment ih =>
    exact ⟨moment.holds ih.1 ih.2, shown_of_moment moment ih.2⟩
  | @reacted s depth caller c heeded _ ih =>
    have calls := Act.perform_calls (s := s) (Act.raiseAt_calls depth caller) caller c
    exact shown_of_calls kept (calls.tail (.remarked _ _ trivial)) ih
  | @waited s caller ms _ ih =>
    have passed : Calls s (s.shift (Environment.wait s.outside ms).2) := .single (.outside s _)
    exact shown_of_calls kept (passed.tail (.remarked _ _ trivial)) ih

end Found

end Mqtt
