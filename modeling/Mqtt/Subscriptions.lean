import Mqtt.Qos
import Mqtt.Topic

/-!
# Subscriptions

What a client knows of its topic filters: those that the broker granted, and
those of requests that are still to be answered, in one list in the order of
their coming.
-/

namespace Mqtt

/-- A topic with a guarantee, as a request names it or as the broker granted it.
Its levels are kept at hand. -/
structure Subject where
  topic : String
  qos : Qos
  /-- The request that brought the topic here; none once it is granted. -/
  request : Option UInt16
  levels : List (List Char) := Topic.levels topic
  levels_eq : levels = Topic.levels topic := by rfl
  deriving DecidableEq

namespace Subject

/-- A topic as a request names it. -/
def asked (topic : String) (qos : Qos) (id : UInt16) : Subject :=
  { topic, qos, request := some id }

/-- Whether the broker granted the topic. -/
def isConfirmed (s : Subject) : Bool :=
  s.request.isNone

/-- The topic as the broker granted it. -/
def confirm (s : Subject) (granted : Qos) : Subject :=
  { s with qos := granted, request := none }

/-- Subjects are the same when topic, guarantee and request are. -/
theorem eq_iff {s t : Subject} :
    s = t ↔ s.topic = t.topic ∧ s.qos = t.qos ∧ s.request = t.request := by
  constructor
  · rintro rfl
    exact ⟨rfl, rfl, rfl⟩
  · obtain ⟨topic, qos, request, levels, rfl⟩ := s
    obtain ⟨topic, qos, request, levels, rfl⟩ := t
    rintro ⟨rfl, rfl, rfl⟩
    rfl

end Subject

/-- The topic filters of a client. -/
structure Subscriptions where
  entries : List Subject := []
  deriving DecidableEq

namespace Subscriptions

/-- The number of entries, granted or not. -/
def size (s : Subscriptions) : Nat :=
  s.entries.length

/-- Adds entries at the end. -/
def addAll (s : Subscriptions) (subjects : List Subject) : Subscriptions :=
  ⟨s.entries ++ subjects⟩

/-- Adds an entry at the end. -/
def add (s : Subscriptions) (subject : Subject) : Subscriptions :=
  s.addAll [subject]

/-- The first granted filter that reaches a topic name. -/
def findMatching? (s : Subscriptions) (name : String) : Option Subject :=
  let levels := Topic.levels name
  s.entries.find? fun e => e.isConfirmed && Topic.reaches levels e.levels

theorem findMatching?_eq (s : Subscriptions) (name : String) :
    s.findMatching? name = s.entries.find? fun e => e.isConfirmed && Topic.isMatch name e.topic := by
  simp [findMatching?, Topic.isMatch, Subject.levels_eq]

/-- The first granted filter that is spelled as given. -/
def find? (s : Subscriptions) (topic : String) : Option Subject :=
  s.entries.find? fun e => e.isConfirmed && e.topic == topic

/-- Drops every granted entry of a topic. -/
def dropGranted (s : Subscriptions) (topic : String) : Subscriptions :=
  ⟨s.entries.filter fun e => !(e.isConfirmed && e.topic == topic)⟩

/-- Drops the first granted entry of a topic. -/
def remove (s : Subscriptions) (topic : String) : Subscriptions :=
  ⟨s.entries.eraseP fun e => e.isConfirmed && e.topic == topic⟩

/-- The entries of a request, in their order. -/
def ofRequest (s : Subscriptions) (id : UInt16) : List Subject :=
  s.entries.filter fun e => e.request == some id

/-- Drops the entries of a request. -/
def dropRequest (s : Subscriptions) (id : UInt16) : Subscriptions :=
  ⟨s.entries.filter fun e => e.request != some id⟩

/-- Replaces what was granted for the topic of a request by what is granted now. -/
def grant (s : Subscriptions) (subject : Subject) (granted : Qos) : Subscriptions :=
  (s.dropGranted subject.topic).add (subject.confirm granted)

/-- The granted filters with their guarantees, in their order. -/
def granted (s : Subscriptions) : List (String × Qos) :=
  (s.entries.filter Subject.isConfirmed).map fun e => (e.topic, e.qos)

end Subscriptions

end Mqtt
