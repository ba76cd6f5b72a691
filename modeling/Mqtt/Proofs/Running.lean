import Mqtt.Client.Session

/-!
# Running actions

What an action does to a system, said without the action.  `System` has one plain
function for each thing that actions do (`change`, `note`, `announce`, `close`,
`afterSend`), and `Act.Ends action s Q` says that `action`, run from `s`, ends in
an answer and a system for which `Q` holds.  `Writes P s s'` says that all that was written
from `s` to `s'` is of a kind.  One equation for each action that
others are made of takes such a statement apart from the front to the back.
-/

namespace Mqtt

namespace Client

theorem pass_zero (c : Client) : c.pass 0 = c := by
  obtain ⟨config, will, phase, mask, destroyed, nextId, linked, subscriptions, pending, keepAlive,
    controls, parked, place⟩ := c
  cases place with
  | greeting reader => obtain ⟨limit, patience, stage⟩ := reader; cases stage <;> rfl
  | listening reader => obtain ⟨limit, patience, stage⟩ := reader; cases stage <;> rfl
  | _ => rfl

/-- Time that passes changes at most where the thread stands. -/
theorem pass_eq (c : Client) (ms : Nat) : c.pass ms = { c with place := (c.pass ms).place } := by
  unfold pass
  split <;> rfl

section Pass

variable (c : Client) (ms : Nat)

@[simp]
theorem pass_config : (c.pass ms).config = c.config := by rw [pass_eq]

@[simp]
theorem pass_will : (c.pass ms).will = c.will := by rw [pass_eq]

@[simp]
theorem pass_phase : (c.pass ms).phase = c.phase := by rw [pass_eq]

@[simp]
theorem pass_destroyed : (c.pass ms).destroyed = c.destroyed := by rw [pass_eq]

@[simp]
theorem pass_nextId : (c.pass ms).nextId = c.nextId := by rw [pass_eq]

@[simp]
theorem pass_linked : (c.pass ms).linked = c.linked := by rw [pass_eq]

@[simp]
theorem pass_subscriptions : (c.pass ms).subscriptions = c.subscriptions := by rw [pass_eq]

@[simp]
theorem pass_pending : (c.pass ms).pending = c.pending := by rw [pass_eq]

@[simp]
theorem pass_keepAlive : (c.pass ms).keepAlive = c.keepAlive := by rw [pass_eq]

@[simp]
theorem pass_controls : (c.pass ms).controls = c.controls := by rw [pass_eq]

@[simp]
theorem pass_parked : (c.pass ms).parked = c.parked := by rw [pass_eq]

/-- Time leaves the thread where it is, but for the time that a packet under way has left. -/
theorem pass_place :
    (c.pass ms).place =
      match c.place with
      | .greeting reader => .greeting (reader.pass ms)
      | .listening reader => .listening (reader.pass ms)
      | place => place := by
  unfold pass
  split <;> simp_all

end Pass

end Client

namespace System

variable {σ : Type}

/-- The system with its client changed. -/
def change (s : System σ) (f : Client → Client) : System σ :=
  { s with client := f s.client }

/-- The system with its outside gone on. -/
def shift (s : System σ) (outside : σ) : System σ :=
  { s with outside }

/-- The system with an entry added to the log. -/
def note (s : System σ) (e : Entry) : System σ :=
  { s with log := e :: s.log }

/-- The system with an event added to the log, as the client stands. -/
def announce (s : System σ) (event : Event) : System σ :=
  s.note (.raised event s.client (s.client.mask.contains event.kind))

/-- The system with its transport closed. -/
def close (s : System σ) : System σ :=
  if s.client.linked then (s.change fun c => { c with linked := false }).note .closed else s

section Sending

variable [Environment σ]

/-- What comes of sending octets over the open transport. -/
def sending (s : System σ) (bs : Bytes) : Transport.Sent σ :=
  Transport.sendAll Environment.offer bs s.client.config.commandTimeout.toNat s.outside

/-- How sending octets ends. -/
def sendResult (s : System σ) (bs : Bytes) : Except Error Unit :=
  if s.client.linked then
    match (s.sending bs).result with
    | .error e => .error (.transport e)
    | .ok () => .ok ()
  else .error .notConnected

theorem sendResult_of_linked {s : System σ} (linked : s.client.linked = true) (bs : Bytes) :
    (s.sending bs).result = .ok () ∧ s.sendResult bs = .ok () ∨
      ∃ e, (s.sending bs).result = .error e ∧ s.sendResult bs = .error (.transport e) := by
  unfold sendResult
  rw [if_pos linked]
  split
  next e failed => exact Or.inr ⟨e, failed, rfl⟩
  next ended => exact Or.inl ⟨ended, rfl⟩

/-- The system once octets were sent. -/
def afterSend (s : System σ) (bs : Bytes) : System σ :=
  if s.client.linked then
    { client := s.client.pass (s.sending bs).elapsed
      outside := (s.sending bs).line
      log := ((s.sending bs).attempts.map Entry.sent).reverse ++ s.log }
  else s

/-- The offers that are made when octets are sent. -/
def offers (s : System σ) (bs : Bytes) : List Transport.Attempt :=
  if s.client.linked then (s.sending bs).attempts else []

/-- How long sending octets takes. -/
def sendingTime (s : System σ) (bs : Bytes) : Nat :=
  if s.client.linked then (s.sending bs).elapsed else 0

@[simp]
theorem afterSend_client (s : System σ) (bs : Bytes) :
    (s.afterSend bs).client = s.client.pass (s.sendingTime bs) := by
  unfold afterSend sendingTime
  split
  · rfl
  · exact s.client.pass_zero.symm

@[simp]
theorem afterSend_log (s : System σ) (bs : Bytes) :
    (s.afterSend bs).log = ((s.offers bs).map Entry.sent).reverse ++ s.log := by
  unfold afterSend offers
  split <;> rfl

end Sending

@[simp]
theorem change_client (s : System σ) (f : Client → Client) : (s.change f).client = f s.client :=
  rfl

@[simp]
theorem change_log (s : System σ) (f : Client → Client) : (s.change f).log = s.log :=
  rfl

@[simp]
theorem shift_client (s : System σ) (outside : σ) : (s.shift outside).client = s.client :=
  rfl

@[simp]
theorem shift_log (s : System σ) (outside : σ) : (s.shift outside).log = s.log :=
  rfl

@[simp]
theorem note_client (s : System σ) (e : Entry) : (s.note e).client = s.client :=
  rfl

@[simp]
theorem note_log (s : System σ) (e : Entry) : (s.note e).log = e :: s.log :=
  rfl

@[simp]
theorem announce_client (s : System σ) (event : Event) : (s.announce event).client = s.client :=
  rfl

@[simp]
theorem announce_log (s : System σ) (event : Event) :
    (s.announce event).log =
      .raised event s.client (s.client.mask.contains event.kind) :: s.log :=
  rfl

@[simp]
theorem close_client (s : System σ) : s.close.client = { s.client with linked := false } := by
  unfold close
  split
  · rfl
  next closed => rw [← Bool.eq_false_iff.2 closed]

@[simp]
theorem close_log (s : System σ) :
    s.close.log = if s.client.linked then .closed :: s.log else s.log := by
  unfold close
  split <;> rfl

end System

/-! ## What is written -/

variable {σ : Type}

/-- Whether all that was written from one system to another is of a kind. -/
def Writes (P : Entry → Prop) (s s' : System σ) : Prop :=
  ∃ new, s'.log = new ++ s.log ∧ ∀ e ∈ new, P e

namespace Writes

variable {P Q : Entry → Prop} {s s' s'' : System σ}

theorem of_log (log : s'.log = s.log) : Writes P s s' :=
  ⟨[], log, fun _ none => by cases none⟩

theorem of_entry {e : Entry} (log : s'.log = e :: s.log) (own : P e) : Writes P s s' :=
  ⟨[e], log, fun _ member => List.mem_singleton.1 member ▸ own⟩

theorem trans (first : Writes P s s') (later : Writes P s' s'') : Writes P s s'' := by
  obtain ⟨new, log, own⟩ := first
  obtain ⟨newer, log', own'⟩ := later
  exact ⟨newer ++ new, by rw [log', log, List.append_assoc],
    fun e member => (List.mem_append.1 member).elim (own' e) (own e)⟩

theorem imp (h : Writes P s s') (all : ∀ e, P e → Q e) : Writes Q s s' := by
  obtain ⟨new, log, own⟩ := h
  exact ⟨new, log, fun e member => all e (own e member)⟩

theorem suffix (h : Writes P s s') : s.log <:+ s'.log :=
  have ⟨new, log, _⟩ := h
  ⟨new, log.symm⟩

theorem close (s : System σ) (own : P .closed) : Writes P s s.close := by
  by_cases linked : s.client.linked = true
  · exact of_entry (e := .closed) (by rw [System.close_log, if_pos linked]) own
  · exact of_log (by rw [System.close_log, if_neg linked])

/-- What each entry of the kind keeps of a log holds after all that was written. -/
theorem keep {I : List Entry → Prop} (h : Writes P s s')
    (step : ∀ {e : Entry} {log : List Entry}, P e → I log → I (e :: log)) (start : I s.log) :
    I s'.log := by
  obtain ⟨new, log, own⟩ := h
  rw [log]
  clear log
  induction new with
  | nil => exact start
  | cons e new ih =>
    exact step (own e List.mem_cons_self) (ih fun x member => own x (List.mem_cons_of_mem _ member))

end Writes

/-- Whether each entry of a log is right after those before it. -/
def Entry.Each (right : Entry → List Entry → Prop) (log : List Entry) : Prop :=
  ∀ e earlier, e :: earlier <:+ log → right e earlier

namespace Entry.Each

variable {right : Entry → List Entry → Prop} {log : List Entry} {s s' : System σ}

theorem nil : Each right [] :=
  fun _ _ none => by cases List.suffix_nil.1 none

theorem cons (h : Each right log) {e : Entry} (own : right e log) : Each right (e :: log) := by
  intro x earlier suffixed
  rcases List.suffix_cons_iff.1 suffixed with same | suffixed
  · cases same
    exact own
  · exact h x earlier suffixed

theorem later (h : Each right s.log)
    (writes : Writes (fun e => ∀ earlier, right e earlier) s s') : Each right s'.log :=
  writes.keep (fun own h => h.cons (own _)) h

end Entry.Each

namespace Act

variable {α β : Type} {s : System σ}

/-- What an action answers can be read off where answers cannot be compared. -/
theorem ok_of_toOption {ε α : Type} {r : Except ε α} {a : α} (given : r.toOption = some a) :
    r = .ok a := by
  cases r with
  | error e => cases given
  | ok b => exact congrArg _ (Option.some.inj given)

/-- What holds of the answer and of the system when an action has run. -/
def Ends (action : Act σ α) (s : System σ) (Q : α → System σ → Prop) : Prop :=
  Q (action.run s).1 (action.run s).2

theorem Ends.imp {action : Act σ α} {Q R : α → System σ → Prop} (h : action.Ends s Q)
    (weaken : ∀ a s', Q a s' → R a s') : action.Ends s R :=
  weaken _ _ h

theorem Ends.and {action : Act σ α} {Q R : α → System σ → Prop} (h : action.Ends s Q)
    (h' : action.Ends s R) : action.Ends s fun a s' => Q a s' ∧ R a s' :=
  ⟨h, h'⟩

/-! ## Putting actions together -/

@[simp]
theorem ends_pure {a : α} {Q : α → System σ → Prop} : (pure a : Act σ α).Ends s Q ↔ Q a s :=
  Iff.rfl

@[simp]
theorem ends_bind {x : Act σ α} {f : α → Act σ β} {Q : β → System σ → Prop} :
    (x >>= f).Ends s Q ↔ x.Ends s fun a s' => (f a).Ends s' Q :=
  Iff.rfl

/-- What each action for a member of a list keeps they keep together. -/
theorem forM_keep {f : α → Act σ Unit} {I : System σ → Prop} {as : List α}
    (each : ∀ a ∈ as, ∀ s : System σ, I s → Ends (f a) s fun _ s' => I s') (start : I s) :
    Ends (as.forM f) s fun _ s' => I s' := by
  induction as generalizing s with
  | nil => exact start
  | cons a as ih =>
    change Ends (f a >>= fun _ => as.forM f) s _
    rw [ends_bind]
    refine (each a List.mem_cons_self s start).imp fun _ _ kept => ?_
    exact ih (fun b member => each b (List.mem_cons_of_mem a member)) kept

@[simp]
theorem try_pure {a : α} {Q : Except Error α → System σ → Prop} :
    Ends (pure a : Try σ α).run s Q ↔ Q (.ok a) s :=
  Iff.rfl

@[simp]
theorem try_throw {e : Error} {Q : Except Error α → System σ → Prop} :
    Ends (throw e : Try σ α).run s Q ↔ Q (.error e) s :=
  Iff.rfl

@[simp]
theorem try_lift {x : Act σ α} {Q : Except Error α → System σ → Prop} :
    Ends (lift x).run s Q ↔ x.Ends s fun a s' => Q (.ok a) s' :=
  Iff.rfl

/-- After the first action the second runs, unless the first failed. -/
@[simp]
theorem try_bind {x : Try σ α} {f : α → Try σ β} {Q : Except Error β → System σ → Prop} :
    Ends (x >>= f).run s Q ↔
      Ends x.run s fun r s' =>
        match r with
        | .ok a => Ends (f a).run s' Q
        | .error e => Q (.error e) s' := by
  rw [ExceptT.run_bind, ends_bind]
  unfold Ends
  cases (x.run.run s).1 <;> rfl

/-- The handler runs when the action failed. -/
@[simp]
theorem try_tryCatch {x : Try σ α} {handler : Error → Try σ α}
    {Q : Except Error α → System σ → Prop} :
    Ends (tryCatch x handler).run s Q ↔
      Ends x.run s fun r s' =>
        match r with
        | .ok a => Q (.ok a) s'
        | .error e => Ends (handler e).run s' Q := by
  have unfolded : (tryCatch x handler).run.run s = (x.run >>= fun
      | .ok a => pure (.ok a)
      | .error e => (handler e).run).run s := by
    unfold ExceptT.run StateT.run
    simp only [tryCatch, tryCatchThe, MonadExceptOf.tryCatch, ExceptT.tryCatch, ExceptT.mk, bind,
      StateT.bind]
    cases x s with
    | mk r next => cases r <;> rfl
  unfold Ends
  rw [unfolded]
  change Ends (x.run >>= _) s Q ↔ _
  rw [ends_bind]
  unfold Ends
  cases (x.run.run s).1 <;> rfl

@[simp]
theorem try_get {Q : Except Error (System σ) → System σ → Prop} :
    Ends (get : Try σ (System σ)).run s Q ↔ Q (.ok s) s :=
  Iff.rfl

@[simp]
theorem try_set {t : System σ} {Q : Except Error PUnit → System σ → Prop} :
    Ends (set t : Try σ PUnit).run s Q ↔ Q (.ok ()) t :=
  Iff.rfl

/-! ## Single actions -/

@[simp]
theorem ends_client {Q : Client → System σ → Prop} : Ends client s Q ↔ Q s.client s :=
  Iff.rfl

@[simp]
theorem ends_update {f : Client → Client} {Q : Unit → System σ → Prop} :
    Ends (update f) s Q ↔ Q () (s.change f) :=
  Iff.rfl

@[simp]
theorem ends_draw {f : Client → α × Client} {Q : α → System σ → Prop} :
    Ends (draw f) s Q ↔ Q (f s.client).1 (s.change fun c => (f c).2) :=
  Iff.rfl

@[simp]
theorem ends_note {e : Entry} {Q : Unit → System σ → Prop} :
    Ends (Act.note e) s Q ↔ Q () (s.note e) :=
  Iff.rfl

@[simp]
theorem ends_goTo {place : Place} {Q : Unit → System σ → Prop} :
    Ends (goTo place) s Q ↔ Q () (s.change fun c => { c with place }) :=
  Iff.rfl

@[simp]
theorem ends_enter {phase : Phase} {Q : Unit → System σ → Prop} :
    Ends (enter phase) s Q ↔ Q () (s.change fun c => { c with phase }) :=
  Iff.rfl

@[simp]
theorem ends_announce {event : Event} {Q : Bool → System σ → Prop} :
    Ends (announce event) s Q ↔ Q (s.client.mask.contains event.kind) (s.announce event) :=
  Iff.rfl

@[simp]
theorem ends_close {Q : Unit → System σ → Prop} : Ends Act.close s Q ↔ Q () s.close := by
  unfold Act.close System.close
  rw [ends_bind, ends_client]
  split <;> rfl

@[simp]
theorem ends_release {Q : Unit → System σ → Prop} :
    Ends Act.release s Q ↔ Q () (s.close.change Client.release) := by
  rw [Act.release, ends_bind, ends_close, ends_update]

section

variable [Environment σ]

@[simp]
theorem ends_now {Q : UInt32 → System σ → Prop} :
    Ends now s Q ↔ Q (Environment.now s.outside).1 (s.shift (Environment.now s.outside).2) :=
  Iff.rfl

@[simp]
theorem ends_react {event : Event} {Q : Plan → System σ → Prop} :
    Ends (react event) s Q ↔
      Q (Environment.react s.outside s.client event).1
        (s.shift (Environment.react s.outside s.client event).2) :=
  Iff.rfl

@[simp]
theorem ends_wait {ms : UInt32} {Q : UInt32 → System σ → Prop} :
    Ends (wait ms) s Q ↔
      Q (Environment.wait s.outside ms).1 (s.shift (Environment.wait s.outside ms).2) :=
  Iff.rfl

@[simp]
theorem ends_spawn {Q : Bool → System σ → Prop} :
    Ends spawn s Q ↔
      Q (Environment.spawn s.outside).1 (s.shift (Environment.spawn s.outside).2) :=
  Iff.rfl

@[simp]
theorem try_transmit {bs : Bytes} {Q : Except Error Unit → System σ → Prop} :
    Ends (transmit bs).run s Q ↔ Q (s.sendResult bs) (s.afterSend bs) := by
  unfold transmit System.sendResult System.afterSend System.sending
  rw [try_bind, try_get]
  dsimp only
  split
  · rw [try_bind, try_set]
    dsimp only
    split <;> simp_all
  · simp

end

end Act

end Mqtt
