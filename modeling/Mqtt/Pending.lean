import Mqtt.Event
import Mqtt.Packet.Publish
import Mqtt.Queue
import Mqtt.Subscriptions
import Mqtt.Timer

/-!
# Pending transactions

Every packet that asks for an acknowledgement is kept until the acknowledgement
comes.  A transaction is staged when it is made and becomes active when the
client next reads from the broker.  Only active transactions are answered, sent
again or given up, so nothing is sent again before it was sent once.
-/

namespace Mqtt

/-- A packet kept to be sent again. -/
inductive Stored where
  /-- A request of this client. -/
  | request (packet : Bytes)
  /-- An acknowledgement, which carries no mark of being sent again. -/
  | acknowledgement (packet : Bytes)
  deriving DecidableEq

namespace Stored

/-- The octets of the packet. -/
def bytes : Stored → Bytes
  | request packet | acknowledgement packet => packet

/-- The packet marked as sent before, if it can be. -/
def markDup : Stored → Stored
  | request packet => request (Packet.markDup packet)
  | acknowledgement packet => acknowledgement packet

end Stored

/-- A transaction that waits for an acknowledgement. -/
structure Transaction where
  awaits : AckKind
  packetId : UInt16
  /-- How often the packet was sent again. -/
  retries : UInt32 := 0
  timer : Timer
  packet : Stored
  /-- What the transaction is about. -/
  subject : Subject
  deriving DecidableEq

/-- What a look at a transaction asks for. -/
inductive Action where
  | resend (kind : AckKind) (packetId : UInt16) (retries : UInt32) (packet : Bytes)
  | warn (kind : AckKind) (packetId : UInt16) (retries : UInt32)
  | expire (transaction : Transaction)
  deriving DecidableEq

namespace Transaction

/-- Whether this is the transaction that a given acknowledgement answers. -/
def isFor (t : Transaction) (kind : AckKind) (id : UInt16) : Bool :=
  t.packetId == id && t.awaits == kind

/-- Whether the transaction holds one of the client's own identifiers. -/
def holds (t : Transaction) (id : UInt16) : Bool :=
  t.packetId == id && t.awaits.isLocal

/-- The transaction as it goes on from a resend at `now`. -/
def again (t : Transaction) (now : UInt32) : Transaction :=
  { t with
    timer := t.timer.restart now
    packet := if t.awaits.isPublish then t.packet.markDup else t.packet }

/-- Whether a look at a transaction at `now` finds something to do.  With `force`
only requests about filters have to be due. -/
def isDue (now : UInt32) (force : Bool) (t : Transaction) : Bool :=
  t.timer.expired now || force && !t.awaits.isRequest

/-- A look at a transaction at `now`: what stays of it and what it asks for.
Requests about filters expire; all others ask to be sent again, or for a warning
once they were sent again `limit` times. -/
def look (now limit : UInt32) (force : Bool) (t : Transaction) :
    Option Transaction × Option Action :=
  if !t.isDue now force then (some t, none)
  else if t.awaits.isRequest then (none, some (.expire t))
  else
    let t := t.again now
    if limit ≤ t.retries then (some t, some (.warn t.awaits t.packetId t.retries))
    else
      let t := { t with retries := t.retries + 1 }
      (some t, some (.resend t.awaits t.packetId t.retries t.packet.bytes))

theorem look_of_not_due {now limit : UInt32} {force : Bool} {t : Transaction}
    (h : t.isDue now force = false) : t.look now limit force = (some t, none) := by
  simp [look, h]

end Transaction

/-- The transactions of a client. -/
structure Pending where
  active : List Transaction := []
  /-- Made since the client last read, latest first. -/
  staged : List Transaction := []
  /-- So many active transactions are worth a warning; zero for none. -/
  threshold : Nat
  deriving DecidableEq

namespace Pending

/-- The number of transactions. -/
def size (p : Pending) : Nat :=
  p.active.length + p.staged.length

/-- Joins a transaction to others: in the place of one that waits for the same, or
behind them all. -/
def join (others : Queue Transaction) (t : Transaction) : Queue Transaction :=
  if others.any (·.isFor t.awaits t.packetId) then
    others.map fun u => if u.isFor t.awaits t.packetId then t else u
  else others.push t

theorem toList_join (others : Queue Transaction) (t : Transaction) :
    (join others t).toList =
      if others.toList.any (·.isFor t.awaits t.packetId) then
        others.toList.map fun u => if u.isFor t.awaits t.packetId then t else u
      else others.toList ++ [t] := by
  rw [join, Queue.any_eq]
  split <;> simp

/-- The count worth a warning when the number of active transactions grows. -/
def warning (p : Pending) (before after : Nat) : Option Nat :=
  if before < p.threshold ∧ p.threshold ≤ after then some p.threshold else none

/-- Makes transactions active, one after the other.  One that waits for the same
as another takes its place.  Hands back the number of active transactions when it
came to the threshold. -/
def activate (p : Pending) (ts : List Transaction) : Option Nat × Pending :=
  let active := (ts.foldl join ⟨p.active, []⟩).toList
  (p.warning p.active.length active.length, { p with active })

/-- Makes a transaction active. -/
def insert (p : Pending) (t : Transaction) : Option Nat × Pending :=
  p.activate [t]

/-- Adds a transaction that becomes active later. -/
def stage (p : Pending) (t : Transaction) : Pending :=
  { p with staged := t :: p.staged }

/-- Makes the staged transactions active, the oldest first. -/
def migrate (p : Pending) : Option Nat × Pending :=
  if p.staged.isEmpty then (none, p) else { p with staged := [] }.activate p.staged.reverse

/-- Takes out the active transaction that an acknowledgement answers. -/
def take (p : Pending) (kind : AckKind) (id : UInt16) : Option Transaction × Pending :=
  (p.active.find? fun t => t.isFor kind id,
    { p with active := p.active.eraseP fun t => t.isFor kind id })

/-- The oldest of some transactions, the latest first, that has a property. -/
def oldest? (p : Transaction → Bool) (ts : List Transaction) : Option Transaction :=
  ts.foldl (fun found t => if p t then some t else found) none

/-- Drops the oldest of some transactions, the latest first, that has a property. -/
def dropOldest (p : Transaction → Bool) : List Transaction → List Transaction
  | [] => []
  | t :: older => if p t && !older.any p then older else t :: dropOldest p older

/-- Takes out a transaction, the oldest staged one if there is one. -/
def remove (p : Pending) (kind : AckKind) (id : UInt16) : Option Transaction × Pending :=
  match oldest? (·.isFor kind id) p.staged with
  | some t => (some t, { p with staged := dropOldest (·.isFor kind id) p.staged })
  | none => p.take kind id

/-- Whether an active transaction waits for an acknowledgement. -/
def contains (p : Pending) (kind : AckKind) (id : UInt16) : Bool :=
  p.active.any fun t => t.isFor kind id

/-- Whether an identifier of the client's own is in use. -/
def idInUse (p : Pending) (id : UInt16) : Bool :=
  p.staged.any (·.holds id) || p.active.any (·.holds id)

/-- Looks at every active transaction, in order.  Most often none is due. -/
def scan (p : Pending) (now limit : UInt32) (force : Bool) : List Action × Pending :=
  if p.active.any (Transaction.isDue now force) then
    let looks := p.active.map (Transaction.look now limit force)
    (looks.filterMap (·.2), { p with active := looks.filterMap (·.1) })
  else ([], p)

/-- Looks that find nothing to do change nothing. -/
theorem looks_of_not_due {now limit : UInt32} {force : Bool} {ts : List Transaction}
    (h : ts.any (Transaction.isDue now force) = false) :
    ts.filterMap (fun t => (t.look now limit force).2) = [] ∧
      ts.filterMap (fun t => (t.look now limit force).1) = ts := by
  induction ts with
  | nil => exact ⟨rfl, rfl⟩
  | cons t ts ih =>
    rw [List.any_cons, Bool.or_eq_false_iff] at h
    obtain ⟨actions, kept⟩ := ih h.2
    rw [List.filterMap_cons, List.filterMap_cons, Transaction.look_of_not_due h.1, actions, kept]
    exact ⟨rfl, rfl⟩

/-- A scan looks at every active transaction, due or not. -/
theorem scan_eq_looks (p : Pending) (now limit : UInt32) (force : Bool) :
    p.scan now limit force =
      (p.active.filterMap fun t => (t.look now limit force).2,
        { p with active := p.active.filterMap fun t => (t.look now limit force).1 }) := by
  unfold scan
  split
  · simp only [List.filterMap_map]
    rfl
  · next h =>
    obtain ⟨actions, kept⟩ := @looks_of_not_due now limit force p.active (Bool.eq_false_iff.2 h)
    rw [actions, kept]

/-- Drops every transaction. -/
def purge (p : Pending) : Pending :=
  { p with active := [], staged := [] }

end Pending

end Mqtt
