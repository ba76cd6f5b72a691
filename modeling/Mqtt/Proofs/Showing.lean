import Mqtt.Proofs.Grants
import Mqtt.Proofs.Vacant

/-!
# Granted filters, as they are shown

The application can look at the granted filters whenever it is told of something.  They are
those that the log tells of, but for a filter whose grant it is just being told of: what was
granted for it before is dropped ahead of the event, and the new grant is put in when the
callback is done.  So all through that callback the filter is missing, also one that was
granted before and stays so, and it is the only one that is ever amiss.
-/

namespace Mqtt

namespace Roll

theorem set_set (r : Roll) (topic : String) (entry other : Option Qos) :
    (r.set topic entry).set topic other = r.set topic other := by
  funext name
  unfold set
  split <;> rfl

end Roll

/-- Whether the last outcome that a log tells of is the grant of a filter, and the granted
filters are those of the log without it. -/
def Subscriptions.Lacks (s : Subscriptions) (log : List Entry) : Prop :=
  ∃ topic qos id, (Entry.outcomes log).getLast? = some (.subscribed topic qos id) ∧
    s.Rolls ((Entry.roll log).set topic none)

/-- Whether the granted filters are those of a log, but for one at most. -/
def Subscriptions.Tracks (s : Subscriptions) (log : List Entry) : Prop :=
  s.Rolls (Entry.roll log) ∨ s.Lacks log

namespace Subscriptions.Tracks

variable {s s' : Subscriptions} {log log' : List Entry}

/-- Only what is granted matters, and what became of filters. -/
theorem of_same (h : s.Tracks log) (granted : s'.granted = s.granted)
    (outcomes : Entry.outcomes log' = Entry.outcomes log) : s'.Tracks log' := by
  have roll : Entry.roll log' = Entry.roll log := by
    rw [Entry.roll_eq, outcomes, ← Entry.roll_eq]
  unfold Tracks Lacks
  rw [roll, outcomes]
  exact h.imp (·.of_granted granted)
    fun ⟨topic, qos, id, last, rolls⟩ => ⟨topic, qos, id, last, rolls.of_granted granted⟩

end Subscriptions.Tracks

/-- What is granted when an event arises, going by the log before it.  A filter that an event
says was granted is missing; so it may be when a transaction is given up, which the callback of
such an event may do. -/
def Event.Shows (e : Event) (s : Subscriptions) (earlier : List Entry) : Prop :=
  match e with
  | .subscribed topic _ _ => s.Rolls ((Entry.roll earlier).set topic none)
  | .discarded .. => s.Tracks earlier
  | e => s.Rolls ((Entry.roll earlier).after e)

namespace Event.Shows

variable {e : Event} {s : Subscriptions} {earlier : List Entry}

/-- An event that changes no map arises while what is granted is what the log tells of. -/
theorem of_quiet (quiet : ∀ r : Roll, r.after e = r) (h : s.Rolls (Entry.roll earlier)) :
    e.Shows s earlier := by
  cases e with
  | subscribed topic qos id =>
    have unset : some qos = none := by
      simpa [Roll.after, Roll.set] using congrFun (quiet fun _ => none) topic
    cases unset
  | discarded => exact Or.inl h
  | unsubscribed topic id =>
    have same : (Entry.roll earlier).after (.unsubscribed topic id) = _ := quiet _
    exact (congrArg s.Rolls same).mpr h
  | _ => exact h

theorem tracks (h : e.Shows s earlier) (client : Client) (told : Bool) :
    s.Tracks (.raised e client told :: earlier) := by
  cases e with
  | subscribed topic qos id =>
    refine Or.inr ⟨topic, qos, id, ?_, ?_⟩
    · rw [Entry.outcomes_told rfl, List.getLast?_append]
      rfl
    · change s.Rolls (((Entry.roll earlier).set topic (some qos)).set topic none)
      rw [Roll.set_set]
      exact h
  | discarded => exact Subscriptions.Tracks.of_same h rfl (List.append_nil _)
  | _ => exact Or.inl h

end Event.Shows

/-- What a client shows when the last entry of a log has just been written, if it is of an
event: the filters of the log, none before the client was started, and no event arises once it
is gone. -/
structure Entry.Granted (client : Client) (log : List Entry) : Prop where
  shows : ∀ {e : Event} {told : Bool} {earlier : List Entry},
    log = .raised e client told :: earlier → e.Shows client.subscriptions earlier
  early : client.phase = .init →
    client.subscriptions.granted = [] ∧ client.subscriptions.Rolls (Entry.roll log)
  here : client.place ≠ .exited

variable {σ : Type}

/-- Between two places where the thread waits an event arises as it should if what is granted
is as it should be. -/
theorem Entry.Granted.of_busy {s : System σ} (busy : s.Busy) {e : Event} (told : Bool)
    (shows : e.Shows s.client.subscriptions s.log) :
    Entry.Granted s.client (.raised e s.client told :: s.log) := by
  refine ⟨fun same => ?_, fun init => absurd init busy.2, busy.here⟩
  cases same
  exact shows

variable [Environment σ] {s s' : System σ}

/-! ## Calls -/

/-- What a client shows while calls are made: its granted filters are those of the log but for
one at most, and they were as they should be whenever an event had arisen. -/
structure Showing (client : Client) (log : List Entry) : Prop where
  tracks : client.place ≠ .exited → client.subscriptions.Tracks log
  early : client.phase = .init →
    client.subscriptions.granted = [] ∧ client.subscriptions.Rolls (Entry.roll log)
  gone : client.place = .exited → client.Vacant
  shown : Shown Entry.Granted log

theorem CallMove.showing (move : CallMove s s') (h : Showing s.client s.log) :
    Showing s'.client s'.log := by
  have steady := move.steady fun init => (h.early init).1
  have tracks : s'.client.place ≠ .exited → s'.client.subscriptions.Tracks s'.log :=
    fun here => (h.tracks (move.stands.2 here)).of_same steady.granted steady.outcomes
  have early : s'.client.phase = .init →
      s'.client.subscriptions.granted = [] ∧ s'.client.subscriptions.Rolls (Entry.roll s'.log) := by
    intro init
    obtain ⟨none, rolls⟩ := h.early (move.stands.1 init)
    rw [steady.roll]
    exact ⟨steady.granted.trans none, rolls.of_granted steady.granted⟩
  refine ⟨tracks, early, fun gone => (move.vacant (h.gone (move.exited gone))).1, ?_⟩
  by_cases gone : s.client.place = .exited
  · exact (move.vacant (h.gone gone)).2.shown h.shown
  · have here : s'.client.place ≠ .exited := fun left => gone (move.exited left)
    rcases move.tells with quiet | ⟨e, told, log, which⟩
    · exact quiet.shown h.shown
    · refine Raised.shown ⟨e, told, log⟩ h.shown ⟨fun same => ?_, early, here⟩
      cases log.symm.trans same
      rcases which with ⟨rfl, init⟩ | ⟨awaits, id, topic, rfl⟩
      · exact (h.early init).2.of_granted steady.granted
      · exact (tracks here).of_same rfl steady.outcomes.symm

theorem Calls.showing (calls : Calls s s') (h : Showing s.client s.log) :
    Showing s'.client s'.log := by
  induction calls with
  | refl => exact h
  | tail _ move ih => exact move.showing ih

/-! ## The thread -/

/-- Whether the granted filters are those of the log, and were as they should be whenever an
event had arisen. -/
structure Truthful (s : System σ) : Prop where
  enrolled : Enrolled s
  shown : Shown Entry.Granted s.log

namespace Truthful

omit [Environment σ] in
theorem showing (h : Truthful s) (busy : s.Busy) : Showing s.client s.log :=
  ⟨fun _ => Or.inl h.enrolled, fun init => absurd init busy.2,
    fun gone => absurd gone busy.here, h.shown⟩

theorem calls (h : Truthful s) (busy : s.Busy) (calls : Calls s s') : Truthful s' :=
  ⟨(calls.steady busy).enrolled h.enrolled, (calls.showing (h.showing busy)).shown⟩

end Truthful

namespace Act

/-- An event is told of while what is granted is as it should be, and the calls of callbacks
leave that alone. -/
theorem tell_shown {e : Event} (busy : s.Busy) (shown : Shown Entry.Granted s.log)
    (shows : e.Shows s.client.subscriptions s.log) :
    Ends (tell e) s fun _ s' => Shown Entry.Granted s'.log := by
  have raised : Shown Entry.Granted (s.announce e).log :=
    Raised.shown ⟨e, _, rfl⟩ shown (.of_busy busy _ shows)
  have showing : Showing (s.announce e).client (s.announce e).log :=
    ⟨fun _ => shows.tracks _ _, fun init => absurd init busy.2, fun gone => absurd gone busy.here,
      raised⟩
  exact (tell_calls e).imp fun _ _ calls => (Calls.showing calls showing).shown

theorem tell_truthful {e : Event} (quiet : ∀ r : Roll, r.after e = r) (h : s.Busy ∧ Truthful s) :
    Ends (tell e) s fun _ s' => s'.Busy ∧ Truthful s' :=
  ((tell_enrolled quiet ⟨h.1, h.2.enrolled⟩).and
    (tell_shown h.1 h.2.shown (.of_quiet quiet h.2.enrolled))).imp
      fun _ _ ⟨⟨busy, enrolled⟩, shown⟩ => ⟨busy, enrolled, shown⟩

/-- A filter is granted after its grant was told of, and told of after what was granted for it
before was dropped. -/
theorem settle_truthful (id : UInt16) (subject : Subject) (code : UInt8) (h : s.Busy ∧ Truthful s) :
    Ends (settle id subject code) s fun _ s' => s'.Busy ∧ Truthful s' := by
  have shown : Ends (settle id subject code) s fun _ s' => Shown Entry.Granted s'.log := by
    unfold settle
    cases Qos.ofByte? code with
    | none => exact tell_shown h.1 h.2.shown (.of_quiet (fun _ => rfl) h.2.enrolled)
    | some qos =>
      rw [ends_bind, ends_update, ends_bind]
      let t := s.change fun c =>
        { c with subscriptions := c.subscriptions.dropGranted subject.topic }
      exact tell_shown (s := t) h.1 h.2.shown (h.2.enrolled.dropGranted subject.topic)
  exact ((settle_enrolled id subject code ⟨h.1, h.2.enrolled⟩).and shown).imp
    fun _ _ ⟨⟨busy, enrolled⟩, shown⟩ => ⟨busy, enrolled, shown⟩

/-- A filter is dropped before the application is told so. -/
theorem remove_truthful (id : UInt16) (topic : String) (h : s.Busy ∧ Truthful s) :
    Ends (do
      update fun c => { c with subscriptions := c.subscriptions.remove topic }
      tell (.unsubscribed topic id)) s fun _ s' => s'.Busy ∧ Truthful s' := by
  have shown : Ends (do
      update fun c => { c with subscriptions := c.subscriptions.remove topic }
      tell (.unsubscribed topic id)) s fun _ s' => Shown Entry.Granted s'.log := by
    rw [ends_bind, ends_update]
    let t := s.change fun c => { c with subscriptions := c.subscriptions.remove topic }
    exact tell_shown (s := t) h.1 h.2.shown (h.2.enrolled.remove topic)
  exact ((remove_enrolled id topic ⟨h.1, h.2.enrolled⟩).and shown).imp
    fun _ _ ⟨⟨busy, enrolled⟩, shown⟩ => ⟨busy, enrolled, shown⟩

end Act

theorem Truthful.keptByAnswers :
    KeptByAnswers (fun _ => True) fun s : System σ => s.Busy ∧ Truthful s where
  told quiet h := Act.tell_truthful quiet h
  dropped id h :=
    ⟨h.1, h.2.enrolled.of_granted (Subscriptions.granted_dropRequest id), h.2.shown⟩
  sent packet h := ⟨h.1.afterSend packet, (Steady.afterSend _ packet).enrolled h.2.enrolled,
    (Unraised.afterSend _ packet).shown h.2.shown⟩
  looked _ _ h := ⟨h.1, h.2.enrolled, h.2.shown⟩
  listed _ _ _ := trivial
  taken _ _ h := ⟨h.1, h.2.enrolled, h.2.shown⟩
  settled id code _ h := Act.settle_truthful id _ code h
  removed id topic h := Act.remove_truthful id topic h

theorem QuietMove.truthful (move : QuietMove s s') (busy : s.Busy) (h : Truthful s) :
    Truthful s' := by
  refine ⟨(move.steady busy).enrolled h.enrolled, ?_⟩
  cases move with
  | call move => exact (move.showing (h.showing busy)).shown
  | @told e plain quiet =>
    refine Raised.shown ⟨_, _, rfl⟩ h.shown (.of_busy busy _ (.of_quiet (fun r => ?_) h.enrolled))
    cases e <;> first | rfl | cases quiet
  | pulsed | migrated => exact h.shown
  | pinged => exact (Unraised.afterSend s _).shown h.shown

theorem Warned.truthful (warned : Warned s s') (busy : s.Busy) (h : Truthful s) : Truthful s' := by
  rcases warned with rfl | ⟨count, calls⟩
  · exact h
  · have quiet := Event.Shows.of_quiet (e := .pendingWarning count) (fun _ => rfl) h.enrolled
    have told : Truthful (s.announce (.pendingWarning count)) :=
      ⟨h.enrolled, Raised.shown ⟨_, _, rfl⟩ h.shown (.of_busy busy _ quiet)⟩
    exact told.calls busy calls

/-- What is done with a packet that answers no request. -/
theorem TurnMove.truthful {p : Inbound} (move : TurnMove (some p) s s') (other : ¬ p.IsVerdict)
    (busy : s.Busy) (h : Truthful s) : Truthful s' := by
  refine ⟨(move.steady other busy).enrolled h.enrolled, ?_⟩
  have told {e : Event} {t : System σ} (same : t.client.subscriptions = s.client.subscriptions)
      (log : t.log = s.log) (busy : t.Busy) (quiet : ∀ r : Roll, r.after e = r) :
      Shown Entry.Granted (t.announce e).log := by
    refine Raised.shown (s := t) ⟨e, _, rfl⟩ (log ▸ h.shown) (.of_busy busy _ ?_)
    exact .of_quiet quiet (by rw [same, log]; exact h.enrolled)
  cases move with
  | call move => exact (move.showing (h.showing busy)).shown
  | @told _ _ e plain outcome =>
    refine told rfl rfl busy fun r => ?_
    cases e <;> first | rfl | exact absurd (outcome rfl p rfl) other
  | delivered _ _ which => rcases which with rfl | rfl <;> exact told rfl rfl busy fun _ => rfl
  | @completed _ _ awaits id =>
    exact told (t := s.change (·.without awaits id)) rfl rfl busy fun _ => rfl
  | replied => exact (Unraised.afterSend s _).shown h.shown
  | _ => exact h.shown

theorem Truthful.afterDispatch {p : Inbound} (h : Truthful s) (busy : s.Busy) (ordered : Ordered s)
    (sane : s.client.pending.Sane) : Truthful (s.afterDispatch p) := by
  have acted := (afterDispatch_busy busy sane p).1
  refine (Truthful.keptByAnswers.afterDispatch (fun other => ⟨acted, ?_⟩) ⟨busy, h⟩).2
  refine (afterDispatch_hold (I := Truthful) (J := Truthful)
    (fun _ _ busy move => move.truthful other busy) (fun _ _ _ _ _ h => ?_)
    (fun _ h => h) busy ordered sane h).2
  exact ⟨((Steady.afterSend _ _).trans (.close _)).enrolled h.enrolled,
    (Unraised.trans (.afterSend _ _) (.close _)).shown h.shown⟩

/-! ## All runs -/

/-- What a client shows that has not yet been started, that runs, or that is gone. -/
structure Overt (s : System σ) : Prop where
  rostered : Rostered s
  early : s.client.phase = .init → Enrolled s
  gone : s.client.place = .exited → s.client.Vacant
  shown : Shown Entry.Granted s.log

omit [Environment σ] in
theorem Overt.showing (h : Overt s) : Showing s.client s.log :=
  ⟨fun here => Or.inl (h.rostered.enrolled here),
    fun init => ⟨h.rostered.early init, h.early init⟩, h.gone, h.shown⟩

theorem Step.overt (step : Step s s') (ordered : Ordered s) (sane : s.client.pending.Sane)
    (h : Overt s) : Overt s' := by
  have rostered := step.rostered ordered sane h.rostered
  have gone := (step.keep Keeps.vacant ordered sane h.gone).2
  cases step with
  | call move =>
    have showing := move.showing h.showing
    exact ⟨rostered, fun init => (showing.early init).2, gone, showing.shown⟩
  | thread pace =>
    cases pace with
    | move move =>
      refine ⟨rostered, fun init => absurd init (move.stands ordered).2, gone, ?_⟩
      rcases move.tells with quiet | ⟨busy, move⟩
      · exact quiet.shown h.shown
      · exact (move.truthful busy ⟨h.rostered.enrolled busy.here, h.shown⟩).shown
    | @looked failure force busy run turns =>
      have truthful : Truthful s := ⟨h.rostered.enrolled busy.here, h.shown⟩
      have looked := Truthful.keptByAnswers.scan force ⟨busy, truthful⟩
      unfold Act.Ends at looked
      rw [run] at looked
      exact ⟨rostered, fun init => absurd init looked.1.2, gone, looked.2.shown⟩
  | @attended s₁ reader p here warned =>
    have accepted := accept_busy ordered here p
    have away : s.client.place ≠ .exited := by
      rw [here]
      exact Place.noConfusion
    have read : Unraised s (s.accept p) := .of_entry rfl id
    have truthful : Truthful (s.accept p) := ⟨h.rostered.enrolled away, read.shown h.shown⟩
    obtain ⟨busy, ordered', sane'⟩ := warned.good ordered sane here
    have acted := (afterDispatch_busy busy sane' p).1
    exact ⟨rostered, fun init => absurd init acted.2, gone,
      ((warned.truthful accepted truthful).afterDispatch busy ordered' sane').shown⟩

theorem Reachable.overt (reachable : Reachable s) : Overt s :=
  reachable.induct
    (fun _ _ => ⟨⟨fun _ => ⟨List.nodup_nil, rfl⟩, fun _ => rfl⟩, fun _ => ⟨List.nodup_nil, rfl⟩,
      fun gone => (by cases gone), fun _ _ _ _ none => by cases List.suffix_nil.1 none⟩)
    fun _ _ ordered sane step => step.overt ordered sane

/-- **Events and granted filters.**  Between two inputs the granted filters are those that the
log tells of, each of them once.  So they are whenever an event arises, save that a filter is
missing when its grant is told of, if it had been granted before or not: what was granted for it
before is dropped, and the new grant is put in once the callback is done.  A filter that an event
says was dropped is gone by then.  Wherever an application finds the client, inside callbacks
too, at most that one filter is missing, the last whose grant it was told of. -/
theorem Found.grants_shown (found : Found s) :
    (Reachable s → s.client.place ≠ .exited → s.client.subscriptions.Rolls (Entry.roll s.log)) ∧
      (s.client.place ≠ .exited → s.client.subscriptions.Tracks s.log) ∧
      ∀ e client told earlier, .raised e client told :: earlier <:+ s.log →
        e.Shows client.subscriptions earlier := by
  have showing : Showing s.client s.log := found.holds (P := Showing)
    (fun reachable moment => ?_) fun move => move.showing
  · exact ⟨fun reachable => reachable.enrolled, showing.tracks,
      fun _ _ _ _ suffixed => (showing.shown _ _ _ _ suffixed).shows rfl⟩
  have overt := reachable.overt
  cases moment with
  | now => exact overt.showing
  | before suffixed =>
    have granted := overt.shown _ _ _ _ suffixed
    exact ⟨fun _ => (granted.shows rfl).tracks _ _, granted.early,
      fun gone => absurd gone granted.here,
      fun _ _ _ _ earlier => overt.shown _ _ _ _ (earlier.trans suffixed)⟩

/-- The filter that `regranted` was granted before is missing when its last grant is told of,
and is back once that is done. -/
theorem grants_shown_regranted :
    ∃ client earlier,
      regranted.log = .raised (.subscribed "a/b" .atMostOnce 2) client true :: earlier ∧
      Entry.roll earlier "a/b" = some .atLeastOnce ∧
      client.subscriptions.Rolls ((Entry.roll earlier).set "a/b" none) ∧
      regranted.client.subscriptions.Rolls (Entry.roll regranted.log) := by
  let client : Client := { regranted.client with subscriptions := {} }
  have log : regranted.log =
      .raised (.subscribed "a/b" .atMostOnce 2) client true :: regranted.log.tail := by
    decide +kernel
  have told : .raised (.subscribed "a/b" .atMostOnce 2) client true :: regranted.log.tail <:+
      regranted.log := log ▸ List.suffix_rfl
  have reachable : Reachable regranted := inSession_reachable.takes _
  obtain ⟨now, -, shown⟩ := Found.grants_shown (.reachable reachable)
  have missing := shown _ _ _ _ told
  exact ⟨client, _, log, by decide +kernel, missing, now reachable (by decide +kernel)⟩

end Mqtt
