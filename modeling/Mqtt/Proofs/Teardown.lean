import Mqtt.Proofs.Courses
import Mqtt.Proofs.Vacant

/-!
# The end of a client

A client that was never started is torn down in the call that destroys it, any other by its
thread.  Until then no teardown is told of (`Course.standing`), and a client that was not started
holds nothing (`Client.Untouched`).  Once it is torn down nothing is left of it and nothing comes
back (`System.Gone.take`), so the run of any client that has ended splits at its teardown
(`Reachable.torn_down`).
-/

namespace Mqtt

/-- Whether an entry is of the event that tells of a teardown. -/
def Entry.isDestroying : Entry → Bool
  | .raised .destroying _ _ => true
  | _ => false

/-- Whether an entry is of a call to destroy the client that was answered as done. -/
def Entry.Condemns : Entry → Prop
  | .called .destroy .done | .reacted _ .destroy _ .done => True
  | _ => False

theorem Entry.IsRoutine.standing {e : Entry} (h : e.IsRoutine) : e.isDestroying = false := by
  cases e with
  | raised event => cases event <;> first | rfl | exact absurd h id
  | _ => rfl

/-- What is no event tells of no teardown. -/
theorem Entry.isDestroying_of_quiet {e : Entry} (quiet : ¬ e.IsRaised) :
    e.isDestroying = false := by
  cases e <;> first | rfl | exact absurd trivial quiet

variable {σ : Type} {s s' : System σ}

/-- Whether no teardown was told of. -/
def System.Standing (s : System σ) : Prop :=
  ∀ e ∈ s.log, e.isDestroying = false

namespace System.Standing

theorem later (h : s.Standing) (writes : Writes (fun e => e.isDestroying = false) s s') :
    s'.Standing := by
  obtain ⟨new, log, still⟩ := writes
  exact fun e member => (List.mem_append.1 (log ▸ member)).elim (still e) (h e)

theorem of_log (h : s.Standing) (log : s'.log = s.log) : s'.Standing :=
  h.later (.of_log log)

theorem note {e : Entry} (h : s.Standing) (still : e.isDestroying = false) :
    (s.note e).Standing :=
  h.later (.of_entry rfl still)

theorem routine (h : s.Standing) (routine : Routine s s') : s'.Standing :=
  h.later (routine.writes.imp fun _ plain => plain.standing)

theorem afterSend [Environment σ] (h : s.Standing) (packet : Bytes) :
    (s.afterSend packet).Standing :=
  h.later (.afterSend s fun _ _ => rfl)

end System.Standing

/-! ## Clients that were not started -/

/-- Whether a client is as it was made, but for its settings, its will and the connector of a
thread that could not be spawned. -/
structure Client.Untouched (c : Client) : Prop where
  phase : c.phase = .init
  place : c.place = .unstarted
  alive : c.destroyed = false
  active : c.pending.active = []
  staged : c.pending.staged = []
  entries : c.subscriptions.entries = []
  closed : c.linked = false

/-- Nothing is left of a client that is destroyed before it was started. -/
theorem Client.Untouched.vacant {c : Client} (h : c.Untouched) :
    { c with destroyed := true }.Vacant :=
  ⟨rfl, h.active, h.staged, h.entries, h.closed⟩

/-- The system once its client is to be destroyed. -/
def System.doomed (s : System σ) : System σ :=
  s.change fun c => { c with destroyed := true }

/-- Whether a client was started and its thread has not ended. -/
def System.Running (s : System σ) : Prop :=
  s.client.place ≠ .unstarted ∧ s.client.place ≠ .exited

theorem System.Running.alike (h : s.Running) (alike : s.client.place.Alike s'.client.place) :
    s'.Running := by
  refine ⟨fun here => h.1 ?_, fun here => h.2 ?_⟩
  all_goals
    rw [← here]
    exact alike.eq (by rw [here]; rfl)

variable [Environment σ]

namespace Act

theorem subscribe_apart (apart : s.client.phase ≠ .connected) (filters : List (String × Qos)) :
    Ends (subscribe filters).run s fun _ s' => s' = s := by
  unfold subscribe
  cases filters with
  | nil => exact rfl
  | cons first rest =>
    refine after_checkFilters (fun _ => ?_) fun _ _ => rfl
    exact after_ensureConnected (fun _ connected => absurd connected apart) fun _ _ => rfl

theorem unsubscribe_apart (apart : s.client.phase ≠ .connected) (filters : List String) :
    Ends (unsubscribe filters).run s fun _ s' => s' = s := by
  unfold unsubscribe
  cases filters with
  | nil => exact rfl
  | cons first rest =>
    refine after_checkFilters (fun _ => ?_) fun _ _ => rfl
    exact after_ensureConnected (fun _ connected => absurd connected apart) fun _ _ => rfl

theorem publish_apart (apart : s.client.phase ≠ .connected) (topic : String) (payload : Bytes)
    (qos : Qos) (retain : Bool) :
    Ends (publish topic payload qos retain).run s fun _ s' => s' = s := by
  unfold publish
  refine after_checkName ?_ fun _ _ => rfl
  exact after_ensureConnected (fun _ connected => absurd connected apart) fun _ _ => rfl

omit [Environment σ] in
/-- Of a client that was not started there is no thread to wait for. -/
theorem join_untouched (caller : Caller) (h : s.client.Untouched) :
    Ends (join caller) s fun _ s' => s' = s := by
  unfold join
  rw [ends_bind, ends_client, if_pos (by simp [Client.hasHandle, h.place])]
  rfl

/-- Every call but the one that destroys a client leaves one that was not started as it is, or
starts it, and no event arises. -/
theorem perform_untouched (raise : Event → Act σ Unit) (caller : Caller) {c : Call}
    (other : c ≠ .destroy) (h : s.client.Untouched) :
    Ends (perform raise caller c) s fun _ s' =>
      s'.log = s.log ∧ (s'.client.Untouched ∨ s'.Running) := by
  have still : s.log = s.log ∧ (s.client.Untouched ∨ s.Running) := ⟨rfl, Or.inl h⟩
  have apart : s.client.phase ≠ .connected := by rw [h.phase]; exact Phase.noConfusion
  have unchanged {α : Type} {toReply : α → Reply} {action : Try σ α}
      (same : Ends action.run s fun _ s' => s' = s) :
      Ends (answer toReply action) s fun _ s' =>
        s'.log = s.log ∧ (s'.client.Untouched ∨ s'.Running) :=
    ends_answer.2 (same.imp fun _ s' same => by rw [same]; exact still)
  cases c <;> simp only [perform]
  case destroy => exact absurd rfl other
  case start =>
    refine ends_answer.2 (after_ensureAlive (fun _ => ?_) fun _ _ => still)
    simp only [try_bind, try_lift, ends_client]
    split
    · exact still
    · simp only [try_bind, try_lift, ends_spawn]
      split
      · exact ⟨rfl, Or.inr ⟨Place.noConfusion, Place.noConfusion⟩⟩
      · exact ⟨rfl, Or.inl { h with }⟩
  case join => exact (join_untouched caller h).imp fun _ _ same => same ▸ still
  case tryJoin =>
    unfold tryJoin
    simp only [ends_bind, ends_client]
    split
    · exact still
    · exact (join_untouched caller h).imp fun _ _ same => same ▸ still
  case makeWill topic payload qos retain => exact unchanged (makeWill_stays topic payload qos retain)
  case reconnect =>
    refine ends_answer.2 (after_ensureAlive (fun _ => ?_) fun _ _ => still)
    exact after_ensureStarted (fun begun => absurd h.phase begun) fun _ _ => still
  case disconnect notify =>
    refine ends_answer.2 (after_ensureAlive (fun _ => ?_) fun _ _ => still)
    exact after_ensureStarted (fun begun => absurd h.phase begun) fun _ _ => still
  case subscribe filter qos => exact unchanged (subscribe_apart apart _)
  case subscribeAll filters => exact unchanged (subscribe_apart apart filters)
  case unsubscribe filter => exact unchanged (unsubscribe_apart apart _)
  case unsubscribeAll filters => exact unchanged (unsubscribe_apart apart filters)
  case publish topic payload qos retain =>
    exact unchanged (publish_apart apart topic payload qos retain)
  case discard awaits id =>
    have none : (s.client.pending.remove awaits id).1 = none := h.vacant.remove_eq_none awaits id
    have same : (s.change fun c => { c with pending := (c.pending.remove awaits id).2 }) = s :=
      System.change_self (by rw [Pending.remove_of_none none])
    refine unchanged ?_
    unfold discard
    rw [try_bind, try_lift, ends_draw, none, same]
    rfl
  case configure settings =>
    unfold configure
    rw [ends_answer]
    simp only [try_bind, try_lift, ends_client]
    split
    · exact still
    · exact ⟨rfl, Or.inl { h with }⟩
  case setWill will => exact ⟨rfl, Or.inl { h with }⟩
  case enable mask => exact ⟨rfl, Or.inl { h with }⟩
  case disable mask => exact ⟨rfl, Or.inl { h with }⟩
  all_goals exact still

/-- A client that was not started is torn down in the call that destroys it. -/
theorem call_destroy_early (alive : s.client.destroyed = false) (early : s.client.phase = .init) :
    Ends (call .destroy) s fun _ s' =>
      s' = (((raise .application .destroying).run s.doomed).2.close.change Client.release).note
        (.called .destroy .done) := by
  unfold call
  rw [ends_bind]
  simp only [perform]
  unfold destroy ensureAlive
  rw [ends_answer, bind_assoc, try_bind, try_lift, ends_client]
  dsimp only
  rw [if_neg (by rw [alive]; exact Bool.noConfusion)]
  simp only [try_bind, try_pure, try_lift]
  rw [ends_bind, ends_update, ends_bind, ends_client]
  change Ends (if s.client.phase = .init then _ else _) s.doomed _
  rw [if_pos early, ends_bind]
  apply (Ends.imp (Q := fun _ t => t = ((raise .application .destroying).run s.doomed).2) rfl)
  rintro _ t rfl
  rw [ends_release]
  rfl

end Act

/-! ## Clients that are gone -/

/-- Whether a client was torn down. -/
def System.Gone (s : System σ) : Prop :=
  s.client.Vacant ∧ (s.client.place = .unstarted ∨ s.client.place = .exited)

theorem CallMove.gone (move : CallMove s s') (h : s.Gone) : s'.Gone := by
  refine ⟨(move.vacant h.1).1, ?_⟩
  have alive (alive : s.client.destroyed = false) : False :=
    Bool.false_ne_true (alive.symm.trans h.1.destroyed)
  cases move with
  | started living => exact (alive living).elim
  | requested _ _ living | refused _ living | sent _ _ living => exact (alive living).elim
  | released => simpa [Client.release] using h.2
  | _ => exact h.2

theorem Calls.gone (calls : Calls s s') (h : s.Gone) : s'.Gone := by
  induction calls with
  | refl => exact h
  | tail _ move ih => exact move.gone ih

/-- Nothing comes back to a client that is gone, and no event arises for it. -/
theorem System.Gone.take (h : s.Gone) (input : Input σ) :
    (s.take input).Gone ∧ Unraised s (s.take input) := by
  by_cases called : ∃ c, input = .call c
  · obtain ⟨c, rfl⟩ := called
    have calls : Calls s (s.take (.call c)) := Act.call_calls c
    exact ⟨calls.gone h, (calls.vacant h.1).2⟩
  · obtain ⟨client, log⟩ := System.take_away h.2 fun c same => called ⟨c, same⟩
    exact ⟨by rw [System.Gone, client]; exact h, .of_log log⟩

theorem System.Gone.takes (h : s.Gone) (inputs : List (Input σ)) :
    (s.takes inputs).Gone ∧ Unraised s (s.takes inputs) := by
  induction inputs generalizing s with
  | nil => exact ⟨h, .of_log rfl⟩
  | cons input rest ih =>
    obtain ⟨gone, quiet⟩ := h.take input
    obtain ⟨gone', quiet'⟩ := ih gone
    exact ⟨gone', quiet.trans quiet'⟩

/-! ## Tearing down -/

/-- How a client comes to be torn down: in a call if it was never started, else once its
thread turns to the control.  The teardown is told of in the second system. -/
inductive Leaves (s : System σ) : Caller → System σ → Prop
  | early : s.client.destroyed = false → s.client.phase = .init →
    Leaves s .application s.doomed
  | obeyed {controls : Queue Control} : s.client.isRunnable = true →
    s.client.controls.pop? = some (.destroy, controls) →
    Leaves s .thread (s.turned .destroy controls)

/-- An input that tears a client down.  It is told of once, and nothing is told after that
callback has ended. -/
structure TornDown (s : System σ) (input : Input σ) (caller : Caller) (t : System σ) : Prop where
  reachable : Reachable s
  leaves : Leaves s caller t
  gone : (s.take input).Gone
  will : (s.take input).client.will = none
  once : ((Act.raise caller .destroying).run t).2.log.countP Entry.isDestroying = 1
  quiet : Unraised ((Act.raise caller .destroying).run t).2 (s.take input)

/-- Where a client is on its way. -/
inductive Life (s : System σ) : Prop
  | untouched : s.client.Untouched → (∀ e ∈ s.log, ¬ e.IsRaised ∧ ¬ e.Condemns) → Life s
  | running : s.Running → s.Standing → Life s
  | gone {before : System σ} {input : Input σ} {caller : Caller} {t : System σ}
    (later : List (Input σ)) : TornDown before input caller t →
    s = (before.take input).takes later → Life s

omit [Environment σ] in
/-- A teardown that is told of for the first time is told of once. -/
theorem System.Standing.countP_eq_one {t : System σ} (standing : s.Standing)
    (writes : Writes (fun e => e.isDestroying = false) (s.announce .destroying) t) :
    t.log.countP Entry.isDestroying = 1 := by
  have none {entries : List Entry} (still : ∀ e ∈ entries, e.isDestroying = false) :
      entries.countP Entry.isDestroying = 0 :=
    List.countP_eq_zero.2 fun e member => by rw [still e member]; exact Bool.noConfusion
  obtain ⟨new, log, still⟩ := writes
  rw [log, List.countP_append, none still, System.announce_log, List.countP_cons, none standing]
  rfl

theorem Reachable.tornDown_early (reachable : Reachable s) (h : s.client.Untouched)
    (standing : s.Standing) : TornDown s (.call .destroy) .application s.doomed := by
  have took : s.take (.call .destroy) = _ := Act.call_destroy_early h.alive h.phase
  have calls := Act.raise_calls .application s.doomed .destroying
  unfold Act.Ends at calls
  generalize told : ((Act.raise .application .destroying).run s.doomed).2 = t at took calls
  have doomed : (s.doomed.announce .destroying).Gone := ⟨h.vacant, Or.inl h.place⟩
  obtain ⟨vacant, quiet⟩ := calls.vacant doomed.1
  refine ⟨reachable, .early h.alive h.phase, ?_, ?_, ?_, ?_⟩
  · rw [took]
    refine ⟨System.vacant_release vacant.destroyed, ?_⟩
    simpa [Client.release] using (calls.gone doomed).2
  · rw [took]
    rfl
  · rw [told]
    have doomed : s.doomed.Standing := standing
    exact doomed.countP_eq_one (quiet.writes.imp fun _ => Entry.isDestroying_of_quiet)
  · rw [told, took]
    exact .trans (.close t) (.of_entry rfl id)

theorem Reachable.tornDown_left (reachable : Reachable s) {input : Input σ} {t : System σ}
    {controls : Queue Control} (standing : s.Standing) (runnable : s.client.isRunnable = true)
    (popped : s.client.controls.pop? = some (.destroy, controls))
    (told : ((Act.tell .destroying).run (s.turned .destroy controls)).2 = t)
    (routine : Routine ((s.turned .destroy controls).announce .destroying) t)
    (took : s.take input = t.close.change
      fun c => { c.release with phase := .disconnected, place := .exited }) :
    TornDown s input .thread (s.turned .destroy controls) := by
  have exited : (s.take input).client.place = .exited := by rw [took]; rfl
  have turned : (s.turned .destroy controls).Standing := standing.note rfl
  refine ⟨reachable, .obeyed runnable popped, ⟨(Reachable.input input reachable).vacant .now exited,
    Or.inr exited⟩, by rw [took]; rfl, ?_, ?_⟩
  · change ((Act.tell .destroying).run (s.turned .destroy controls)).2.log.countP _ = 1
    rw [told]
    exact turned.countP_eq_one (routine.writes.imp fun _ plain => plain.standing)
  · change Unraised ((Act.tell .destroying).run (s.turned .destroy controls)).2 _
    rw [told, took]
    exact .trans (.close t) (.of_log rfl)

/-- What a call leaves of a client that was not started. -/
theorem Act.call_untouched {c : Call} (other : c ≠ .destroy) (h : s.client.Untouched)
    (plain : ∀ e ∈ s.log, ¬ e.IsRaised ∧ ¬ e.Condemns) : Ends (call c) s fun _ s' => Life s' := by
  unfold call
  rw [ends_bind]
  apply (perform_untouched (raise .application) .application other h).imp
  rintro reply s₁ ⟨log, here⟩
  have later : ∀ e ∈ (s₁.note (.called c reply)).log, ¬ e.IsRaised ∧ ¬ e.Condemns := by
    intro e member
    rw [System.note_log, log] at member
    rcases List.mem_cons.1 member with rfl | old
    · refine ⟨id, fun condemns => other ?_⟩
      cases c <;> first | rfl | exact absurd condemns id
    · exact plain e old
  rcases here with untouched | running
  · exact .untouched untouched later
  · exact .running running fun e member => Entry.isDestroying_of_quiet (later e member).1

/-- No input to a client that runs tells of a teardown but the one that tears it down. -/
theorem Reachable.life_running (reachable : Reachable s) (running : s.Running)
    (standing : s.Standing) (input : Input σ) : Life (s.take input) := by
  have begun : s.Begun := ⟨reachable.good.1.begun running.1, running.1⟩
  have course := reachable.course begun input
  generalize took : s.take input = s' at course
  have present (here : ¬ s'.client.place.IsAway) : s'.Running :=
    ⟨fun unstarted => here (by rw [unstarted]; trivial),
      fun exited => here (by rw [exited]; trivial)⟩
  have recalled {t : System σ} (recalls : Recalls t s') (told : t.Standing) : Life s' := by
    obtain ⟨u, first, later, here, -⟩ := recalls
    exact .running (present (Place.present here)) (((told.routine first).note rfl).routine later)
  have turned {control : Control} {controls : Queue Control} :
      (s.turned control controls).Standing := standing.note rfl
  cases course with
  | kept routine _ alike => exact .running (running.alike alike) (standing.routine routine)
  | went _ routine here => exact .running (present here.present) (standing.routine routine)
  | hailed _ _ routine here =>
    have opened : s.opened.Standing := standing.note rfl
    exact .running (present here.present) ((opened.afterSend _).routine routine)
  | rested => exact .running ⟨Place.noConfusion, Place.noConfusion⟩ standing
  | dialled =>
    exact .running ⟨Place.noConfusion, Place.noConfusion⟩
      ((standing.routine (.close s)).note rfl)
  | parted _ routine here =>
    refine .running (present (Place.present here)) (System.Standing.routine ?_ routine)
    exact turned.of_log rfl
  | recalled _ recalls => exact recalled recalls (turned.of_log rfl)
  | woken _ recalls => exact recalled recalls (standing.of_log rfl)
  | left runnable popped told routine =>
    exact .gone [] (reachable.tornDown_left standing runnable popped told routine took) took.symm

theorem Reachable.life (reachable : Reachable s) : Life s := by
  induction reachable with
  | created outside made =>
    obtain ⟨-, rfl⟩ := create_eq_ok made
    exact .untouched ⟨rfl, rfl, rfl, rfl, rfl, rfl, rfl⟩ fun _ none => (by cases none)
  | @input s input reachable ih =>
    cases ih with
    | untouched h plain =>
      by_cases called : ∃ c, input = .call c
      · obtain ⟨c, rfl⟩ := called
        by_cases destroys : c = .destroy
        · subst destroys
          have standing : s.Standing := fun e member =>
            Entry.isDestroying_of_quiet (plain e member).1
          exact .gone [] (reachable.tornDown_early h standing) rfl
        · exact Act.call_untouched destroys h plain
      · obtain ⟨client, log⟩ := System.take_away (Or.inl h.place) fun c same => called ⟨c, same⟩
        exact .untouched (by rw [client]; exact h) (by rw [log]; exact plain)
    | running running standing => exact reachable.life_running running standing input
    | @gone before first caller t later torn same =>
      refine .gone (later ++ [input]) torn ?_
      rw [same, System.takes, System.takes, List.foldl_append]
      rfl

/-- **Teardown.**  Where a client was destroyed and its thread, if it was started, has ended,
nothing is left of it, whatever comes later: no transaction, no subscription, no open transport;
and no event arises.  It was torn down by one input, at which its will was dropped.  The teardown
was told of once, and nothing was told of since that callback ended. -/
theorem Reachable.torn_down (reachable : Reachable s) (granted : ∃ e ∈ s.log, e.Condemns)
    (ended : s.client.place = .unstarted ∨ s.client.place = .exited) :
    (∀ inputs, (s.takes inputs).client.Vacant ∧ Unraised s (s.takes inputs)) ∧
      s.log.countP Entry.isDestroying = 1 ∧
      ∃ before input caller t later, TornDown before input caller t ∧
        s = (before.take input).takes later ∧
        Unraised ((Act.raise caller .destroying).run t).2 s := by
  obtain ⟨e, member, condemns⟩ := granted
  cases reachable.life with
  | untouched h plain => exact absurd condemns (plain e member).2
  | running running =>
    rcases ended with unstarted | exited
    · exact absurd unstarted running.1
    · exact absurd exited running.2
  | @gone before input caller t later torn same =>
    obtain ⟨gone, quiet⟩ := torn.gone.takes later
    rw [← same] at gone quiet
    have quiet := torn.quiet.trans quiet
    refine ⟨fun inputs => ?_, ?_, before, input, caller, t, later, torn, same, quiet⟩
    · obtain ⟨gone, quiet⟩ := gone.takes inputs
      exact ⟨gone.1, quiet⟩
    · obtain ⟨new, log, still⟩ := quiet
      rw [log, List.countP_append, torn.once, List.countP_eq_zero.2 fun e member => ?_]
      rw [Entry.isDestroying_of_quiet (still e member)]
      exact Bool.noConfusion

/-- A client with a request under way that is destroyed in its session.  When it is told of its
teardown the application gives up the request and asks for another, and it does so once more when
all is over. -/
def leftInSession : System Script :=
  inSession.takes
    [.call (.subscribe "a/b" .exactlyOnce), .call .destroy,
      .outside { rules := [⟨.destroying, fun _ =>
        [.call (.discard .subAck 1) 0, .call (.subscribe "a/b" .exactlyOnce) 0], none⟩] },
      .heard (.error .timeout) 0, .turn, .call (.subscribe "a/b" .exactlyOnce)]

theorem torn_down_leftInSession :
    (leftInSession.log.filterMap fun e =>
      match e with | .raised event _ _ => some event | _ => none) =
      [.discarded .subAck 1 "a/b", .destroying, .connected false] ∧
    leftInSession.log.countP Entry.isDestroying = 1 ∧
    ∀ inputs, (leftInSession.takes inputs).client.Vacant ∧
      Unraised leftInSession (leftInSession.takes inputs) := by
  have reachable : Reachable leftInSession := inSession_reachable.takes _
  have destroyed : .called .destroy .done ∈ leftInSession.log := by decide +kernel
  have exited : leftInSession.client.place = .exited := by decide +kernel
  obtain ⟨vacant, once, -⟩ := reachable.torn_down ⟨_, destroyed, trivial⟩ (Or.inr exited)
  exact ⟨by decide +kernel, once, vacant⟩

end Mqtt
