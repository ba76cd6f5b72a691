import Mqtt.Client.Session

/-!
# Simulated networks

A client on a network, a clock and an application that follow a script.  After
each command the thread of the client runs until it waits for the next.
-/

namespace Mqtt

/-- What a simulated transport does with an offer. -/
inductive Taking where
  | all
  | atMost (count : Nat)
  /-- Lets the whole time for the offer pass first. -/
  | slowly (count : Nat)
  | fail (e : Transport.Error)
  deriving DecidableEq

/-- The answer to an offer that may take `time` milliseconds. -/
def Taking.answer (taking : Taking) (bs : Bytes) (time : Nat) : Transport.Answer :=
  match taking with
  | all => ⟨.accepted bs.length, 0⟩
  | atMost count => ⟨.accepted (bs.take count).length, 0⟩
  | slowly count => ⟨.accepted (bs.take count).length, time⟩
  | fail e => ⟨.failed e, 0⟩

/-- A line of answers for offers to come, and the answer after those. -/
structure Takings where
  ahead : List Taking := []
  otherwise : Taking := .all
  deriving DecidableEq

/-- Makes an offer to a simulated transport. -/
def Takings.offer (t : Takings) (bs : Bytes) (time : Nat) : Transport.Answer × Takings :=
  match t.ahead with
  | [] => (t.otherwise.answer bs time, t)
  | taking :: ahead => (taking.answer bs time, { t with ahead })

/-- Something that a simulated application does in a callback. -/
inductive Deed where
  /-- Make a call, and so many times again; the last answer is the one heeded. -/
  | call (c : Call) (again : Nat)
  /-- Let so many milliseconds go by. -/
  | wait (ms : UInt32)
  deriving DecidableEq

/-- Makes a call, and so many times again, before going on. -/
def Plan.insist (c : Call) (next : Reply → Plan) : (again : Nat) → Plan
  | 0 => .call c true next
  | again + 1 => .call c false fun _ => insist c next again

/-- The plan of deeds that are settled beforehand. -/
def Plan.ofDeeds : List Deed → Plan
  | [] => .finish
  | .call c again :: rest => .insist c (fun _ => ofDeeds rest) again
  | .wait ms :: rest => .wait ms fun _ => ofDeeds rest

/-- What a simulated application does when it is told of events of a kind. -/
structure Rule where
  kind : EventKind
  deeds : Event → List Deed
  /-- How often the rule may still be used; unlimited if not given. -/
  uses : Option Nat := none

/-- Whether a rule answers an event. -/
def Rule.isFor (r : Rule) (event : Event) : Bool :=
  r.kind == event.kind && r.uses != some 0

/-- What the first rule that answers an event does, and the rules after its use. -/
def Rule.pick (event : Event) : List Rule → List Deed × List Rule
  | [] => ([], [])
  | r :: rest =>
    if r.isFor event then (r.deeds event, { r with uses := r.uses.map (· - 1) } :: rest)
    else
      let (deeds, rest) := pick event rest
      (deeds, r :: rest)

/-- A scripted environment. -/
structure Script where
  clock : UInt32 := 0
  /-- Whether the client looks at a clock of its own, which then stands still. -/
  steady : Bool := false
  takings : Takings := {}
  rules : List Rule := []

/-- Lets the clock go on. -/
def Script.advance (s : Script) (ms : UInt32) : Script :=
  { s with clock := s.clock + ms }

/-- More than any script comes to, be it steps of the thread or callbacks inside
the calls of callbacks. -/
def Script.endless : Nat := 4000000000000000000

instance : Environment Script where
  now s := (if s.steady then 0 else s.clock, s)
  offer s bs time :=
    let (answer, takings) := s.takings.offer bs time
    (answer, { s with takings })
  react s _ event :=
    let (deeds, rules) := Rule.pick event s.rules
    (.ofDeeds deeds, { s with rules })
  wait s ms := (s.clock + ms, s.advance ms)
  spawn s := (true, s)
  nesting := Script.endless

/-- A client on a scripted network. -/
structure Simulation where
  system : System Script
  /-- What has arrived and was not read. -/
  inbox : Bytes := []
  /-- How many octets a read returns at most. -/
  chunk : Option Nat := none

namespace Simulation

/-- A step of a script. -/
inductive Command where
  /-- Make a call, and so many times again. -/
  | call (c : Call) (again : Nat)
  | accept
  | refuse (e : Transport.Error)
  /-- Octets arrive, and reads return at most `chunk` of them from now on. -/
  | arrive (bs : Bytes) (chunk : Option Nat)
  /-- The pending read runs out of time at once. -/
  | timeOut
  /-- The pending read runs out of time after all of its time has passed. -/
  | expire
  | endStream
  | failRead (e : Transport.Error)
  | answerOffers (takings : Takings)
  /-- Transports fail to close from now on, or no longer; a client closes them
  all the same. -/
  | failClose (e : Option Transport.Error)
  /-- Let the clock go on. -/
  | advance (ms : UInt32)

/-- What becomes of a step. -/
inductive Response where
  | reply (r : Reply)
  | done
  | clock (reading : UInt32)
  /-- No transport is being opened. -/
  | notConnecting
  /-- Nothing is being read. -/
  | notReading

/-- The client. -/
def client (s : Simulation) : Client :=
  s.system.client

/-- Lets the client act. -/
def act {α : Type} (action : Act Script α) (s : Simulation) : α × Simulation :=
  let (a, system) := action.run s.system
  (a, { s with system })

/-- The read under way. -/
def reader? (s : Simulation) : Option Frame.Reader :=
  match s.client.place with
  | .greeting reader | .listening reader => some reader
  | _ => none

/-- What the thread can do without a further command. -/
def step? (s : Simulation) : Option Simulation :=
  if s.client.isRunnable then some (s.act Act.turn).2
  else match s.reader?, s.client.place with
    | some reader, _ =>
      if s.inbox.isEmpty then none
      else
        let count := match s.chunk with
          | none => reader.wanted
          | some chunk => min chunk reader.wanted
        let s' := (s.act (Act.heard (.ok (s.inbox.take count)) 0)).2
        some { s' with inbox := s.inbox.drop count }
    | none, .idle (some 0) => some (s.act Act.intervalPassed).2
    | none, _ => none

/-- Runs the thread until it waits, for `fuel` steps at most. -/
def run : (fuel : Nat) → Simulation → Simulation
  | 0, s => s
  | fuel + 1, s =>
    match s.step? with
    | none => s
    | some s => run fuel s

/-- Runs the thread until it waits. -/
def settle (s : Simulation) : Simulation :=
  run Script.endless s

/-- Makes a call, and so many times again; the answer is the last. -/
def insist (c : Call) : (again : Nat) → Act Script Reply
  | 0 => Act.call c
  | again + 1 => do
    let _ ← Act.call c
    insist c again

/-- Ends the pending read. -/
def endRead (s : Simulation) (given : Except Transport.Error Bytes)
    (elapsed : Frame.Reader → Nat) : Response × Simulation :=
  match s.reader? with
  | none => (.notReading, s)
  | some reader => (.done, (s.act (Act.heard given (elapsed reader))).2)

/-- Ends the pending attempt to open a transport. -/
def endDial (s : Simulation) (result : Except Transport.Error Unit) : Response × Simulation :=
  match s.client.place with
  | .connecting _ => (.done, (s.act (Act.dialAnswered result)).2)
  | _ => (.notConnecting, s)

/-- Changes the script. -/
def withScript (s : Simulation) (change : Script → Script) : Simulation :=
  { s with system := { s.system with outside := change s.system.outside } }

/-- Carries out a command. -/
def obey (s : Simulation) : Command → Response × Simulation
  | .call c again =>
    let (reply, s) := s.act (insist c again)
    (.reply reply, s)
  | .accept =>
    match s.endDial (.ok ()) with
    | (.done, s) => (.done, { s with inbox := [] })
    | refused => refused
  | .refuse e => s.endDial (.error e)
  | .arrive bs chunk =>
    match s.reader? with
    | none => (.notReading, s)
    | some _ => (.done, { s with inbox := s.inbox ++ bs, chunk })
  | .timeOut => s.endRead (.error .timeout) fun _ => 0
  | .expire => s.endRead (.error .timeout) Frame.Reader.timeout
  | .endStream => s.endRead (.ok []) fun _ => 0
  | .failRead e => s.endRead (.error e) fun _ => 0
  | .answerOffers takings => (.done, s.withScript fun script => { script with takings })
  | .failClose _ => (.done, s)
  | .advance ms =>
    let s := s.withScript fun script => script.advance ms
    (.clock s.system.outside.clock, s)

/-- What is to be seen of a step: what became of it and what happened, in order. -/
structure Report where
  response : Response
  entries : List Entry
  client : Client

/-- Carries out a command and runs the thread until it waits. -/
def step (s : Simulation) (command : Command) : Report × Simulation :=
  let fresh := { s with system := { s.system with log := [] } }
  let (response, s) := fresh.obey command
  let s := s.settle
  (⟨response, s.system.log.reverse, s.client⟩, s)

/-- Carries out commands one after the other. -/
def play (s : Simulation) : List Command → List Report
  | [] => []
  | command :: rest =>
    let (report, s) := s.step command
    report :: s.play rest

/-- A client with given settings on a scripted network. -/
def create (config : Config) (script : Script) : Except SettingsFault Simulation :=
  match Client.create config with
  | .error fault => .error fault
  | .ok client => .ok { system := { client, outside := script } }

end Simulation

end Mqtt
