/-!
# Queues

What waits in a queue is taken out in the order of its coming.  The view is
`toList`, oldest first; to come and to be taken out costs the same however many
wait.
-/

namespace Mqtt

/-- A queue. -/
structure Queue (α : Type) where
  /-- Those to be taken out first, oldest first. -/
  ahead : List α := []
  /-- Those that came after them, latest first. -/
  behind : List α := []
  deriving DecidableEq

namespace Queue

variable {α : Type}

/-- All that wait, oldest first. -/
def toList (q : Queue α) : List α :=
  q.ahead ++ q.behind.reverse

/-- Whether none wait. -/
def isEmpty (q : Queue α) : Bool :=
  q.ahead.isEmpty && q.behind.isEmpty

/-- Adds one to those that wait. -/
def push (q : Queue α) (a : α) : Queue α :=
  { q with behind := a :: q.behind }

/-- Takes out the oldest. -/
def pop? (q : Queue α) : Option (α × Queue α) :=
  match q.ahead with
  | a :: ahead => some (a, { q with ahead })
  | [] =>
    match q.behind.reverse with
    | a :: ahead => some (a, { ahead })
    | [] => none

/-- Whether one that waits has a property. -/
def any (q : Queue α) (p : α → Bool) : Bool :=
  q.ahead.any p || q.behind.any p

/-- Changes all that wait. -/
def map (q : Queue α) (f : α → α) : Queue α :=
  ⟨q.ahead.map f, q.behind.map f⟩

@[simp]
theorem toList_push (q : Queue α) (a : α) : (q.push a).toList = q.toList ++ [a] := by
  simp [toList, push]

@[simp]
theorem toList_map (q : Queue α) (f : α → α) : (q.map f).toList = q.toList.map f := by
  simp [toList, map]

@[simp]
theorem any_eq (q : Queue α) (p : α → Bool) : q.any p = q.toList.any p := by
  simp [toList, any]

theorem isEmpty_iff {q : Queue α} : q.isEmpty = true ↔ q.toList = [] := by
  simp [isEmpty, toList]

theorem toList_of_pop? {q rest : Queue α} {a : α} (h : q.pop? = some (a, rest)) :
    q.toList = a :: rest.toList := by
  obtain ⟨ahead, behind⟩ := q
  cases ahead with
  | cons b ahead =>
    simp only [pop?, Option.some.injEq, Prod.mk.injEq] at h
    obtain ⟨rfl, rfl⟩ := h
    simp [toList]
  | nil =>
    cases hb : behind.reverse with
    | nil => simp [pop?, hb] at h
    | cons b ahead =>
      simp only [pop?, hb, Option.some.injEq, Prod.mk.injEq] at h
      obtain ⟨rfl, rfl⟩ := h
      simp [toList, hb]

theorem pop?_eq_none_iff {q : Queue α} : q.pop? = none ↔ q.toList = [] := by
  obtain ⟨ahead, behind⟩ := q
  cases ahead with
  | cons b ahead => simp [pop?, toList]
  | nil => cases hb : behind.reverse <;> simp [pop?, toList, hb]

end Queue

end Mqtt
