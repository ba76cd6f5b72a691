import Mqtt.Proofs.Discipline

/-!
# What an input can come to

Of all that one input leads to, only a few things bear on whether another attempt to connect
is made and on what it is made with.  All else that is written is a matter of routine
(`Routine`): it neither begins an attempt nor says what leads to one or to none.  `Course` lists
what an input to a client that was started can come to, with the routine cut out
(`Reachable.course`).
-/

namespace Mqtt

/-! ## Routine -/

/-- Whether an entry neither begins an attempt to connect nor says what leads to one or to
none. -/
def Entry.IsRoutine : Entry → Prop
  | .dialled .. | .obeyed _ | .raised .reconnecting _ _ | .raised .destroying _ _ => False
  | .sent a => Packet.kind? a.whole ≠ some .connect
  | _ => True

theorem Entry.Within.isRoutine {c : Client} {e : Entry} (h : e.Within c) : e.IsRoutine := by
  cases e with
  | dialled | obeyed => exact absurd h id
  | sent a =>
    obtain ⟨-, -, inner⟩ := h
    obtain ⟨kind, named, free⟩ := inner.kind?
    intro connect
    cases named.symm.trans connect
    exact absurd free (by decide)
  | raised event => cases event <;> first | exact trivial | exact absurd trivial h
  | _ => trivial

variable {σ : Type} {s s' s'' : System σ}

/-- A stretch of a run of which all that was written is routine. -/
structure Routine (s s' : System σ) : Prop where
  parked : s'.client.parked = s.client.parked
  entries : ∃ new, s'.log = new ++ s.log ∧ (∀ e ∈ new, e.IsRoutine) ∧
    s'.client.terms = Entry.amends new s.client.terms

namespace Routine

theorem of_log (parked : s'.client.parked = s.client.parked)
    (terms : s'.client.terms = s.client.terms) (log : s'.log = s.log) : Routine s s' :=
  ⟨parked, [], log, fun _ none => (by cases none), terms⟩

theorem refl (s : System σ) : Routine s s :=
  of_log rfl rfl rfl

theorem writes (h : Routine s s') : Writes Entry.IsRoutine s s' := by
  obtain ⟨new, log, routine, -⟩ := h.entries
  exact ⟨new, log, routine⟩

/-- Entries that amend nothing. -/
theorem of_entries {new : List Entry} (parked : s'.client.parked = s.client.parked)
    (terms : s'.client.terms = s.client.terms) (log : s'.log = new ++ s.log)
    (routine : ∀ e ∈ new, e.IsRoutine) (same : ∀ e ∈ new, e.replaced = [] ∧ e.bequeathed = none) :
    Routine s s' :=
  ⟨parked, new, log, routine, by rw [terms, Entry.amends_of_same _ same]⟩

theorem note (s : System σ) {e : Entry} (routine : e.IsRoutine)
    (same : e.replaced = [] ∧ e.bequeathed = none) : Routine s (s.note e) :=
  of_entries rfl rfl (List.singleton_append (x := e)).symm
    (fun _ member => List.mem_singleton.1 member ▸ routine)
    fun _ member => List.mem_singleton.1 member ▸ same

theorem change (s : System σ) {f : Client → Client}
    (parked : (f s.client).parked = s.client.parked)
    (terms : (f s.client).terms = s.client.terms) : Routine s (s.change f) :=
  of_log parked terms rfl

theorem trans (first : Routine s s') (later : Routine s' s'') : Routine s s'' := by
  obtain ⟨new, log, routine, terms⟩ := first.entries
  obtain ⟨newer, log', routine', terms'⟩ := later.entries
  refine ⟨later.parked.trans first.parked, newer ++ new, by rw [log', log, List.append_assoc],
    fun e member => (List.mem_append.1 member).elim (routine' e) (routine e), ?_⟩
  rw [terms', terms]
  exact (List.foldr_append ..).symm

theorem close (s : System σ) : Routine s s.close := by
  unfold System.close
  split
  · exact (change s rfl rfl).trans (note _ trivial ⟨rfl, rfl⟩)
  · exact refl s

theorem afterSend [Environment σ] (s : System σ) {packet : Bytes}
    (other : Packet.kind? packet ≠ some .connect) : Routine s (s.afterSend packet) := by
  obtain ⟨new, log, offers⟩ := s.afterSend_entries packet
  refine of_entries (by simp) (by simp [Client.terms]) log (fun e member => ?_) fun e member => ?_
  · obtain ⟨a, rfl, own⟩ := offers e member
    exact fun connect => other (own ▸ connect)
  · obtain ⟨a, rfl, -⟩ := offers e member
    exact ⟨rfl, rfl⟩

end Routine

theorem Still.routine (h : Still s s') : Routine s s' := by
  obtain ⟨new, log, within, terms⟩ := h.entries
  exact ⟨h.parked, new, log, fun e member => (within e member).isRoutine, terms⟩

/-! ## Courses -/

/-- Whether the thread is in an attempt to connect or in a session. -/
def System.Engaged (s : System σ) : Prop :=
  (∃ config, s.client.place = .connecting config) ∨
    (∃ reader, s.client.place = .greeting reader) ∨
      s.client.phase = .connected ∧ s.client.place ≠ .exited

/-- Whether the thread reads, or is between two things to do with no attempt to make. -/
inductive Client.Returned (c : Client) : Prop
  | between : c.place = .running → c.phase = .connected ∨ c.phase = .disconnected → Returned c
  | greeting (reader : Frame.Reader) : c.place = .greeting reader → Returned c
  | listening (reader : Frame.Reader) : c.place = .listening reader → Returned c

/-- The system once the thread turned to a control. -/
def System.turned (s : System σ) (control : Control) (controls : Queue Control) : System σ :=
  (s.change fun c => { c with controls, place := .running }).note (.obeyed control)

variable [Environment σ]

/-- The thread tells that it will connect again, and makes ready for it. -/
def Recalls (s s' : System σ) : Prop :=
  ∃ t, Routine s t ∧ Routine (t.announce .reconnecting) s' ∧ s'.client.place = .running ∧
    s'.client.phase = .reconnecting

/-- What one input to a client that was started comes to. -/
inductive Course : System σ → System σ → Prop
  /-- The thread stays where it is. -/
  | kept {s s' : System σ} : Routine s s' → s'.client.phase = s.client.phase →
    s.client.place.Alike s'.client.place → Course s s'
  /-- An attempt or a session goes on, or ends by itself. -/
  | went {s s' : System σ} : s.Engaged → Routine s s' → s'.client.Returned → Course s s'
  /-- A transport was opened, and CONNECT goes over it. -/
  | hailed {s s' : System σ} {config : Config} {packet : Bytes} :
    s.client.place = .connecting config →
    Packet.encode (Act.connectPacket config s.client.will).put = .ok packet →
    Routine (s.opened.afterSend packet) s' → s'.client.Returned → Course s s'
  /-- The thread waits, and to connect again only if it may. -/
  | rested {s : System σ} {interval : Option UInt32} : s.client.place = .running →
    s.client.phase = .disconnected →
    (∀ ms, interval = some ms → s.client.parked = false ∧ s.client.config.autoReconnect = true) →
    Course s (s.change fun c => { c with place := .idle interval })
  | dialled {s : System σ} : s.client.place = .running → s.client.phase ≠ .connected →
    s.client.phase ≠ .disconnected →
    Course s ((s.close.note (.dialled s.client.config.host s.client.config.tcpPort
      s.client.config.connectTimeout)).change
        fun c => { c with place := .connecting s.client.config })
  /-- The application ended the session. -/
  | parted {s s' : System σ} {notify : Bool} {controls : Queue Control} :
    s.client.isRunnable = true →
    Routine ((s.turned (.disconnect notify) controls).change
      fun c => { c with parked := true }) s' →
    s'.client.place = .running → s'.client.phase = .disconnected → Course s s'
  /-- The application asked for another attempt. -/
  | recalled {s s' : System σ} {controls : Queue Control} : s.client.isRunnable = true →
    Recalls ((s.turned .reconnect controls).change fun c => { c with parked := false }) s' →
    Course s s'
  /-- The interval before another attempt has passed. -/
  | woken {s s' : System σ} {interval : UInt32} : s.client.place = .idle (some interval) →
    Recalls (s.change fun c => { c with place := .running }) s' → Course s s'
  /-- The client is torn down by its thread. -/
  | left {s t : System σ} {controls : Queue Control} : s.client.isRunnable = true →
    s.client.controls.pop? = some (.destroy, controls) →
    ((Act.tell .destroying).run (s.turned .destroy controls)).2 = t →
    Routine ((s.turned .destroy controls).announce .destroying) t →
    Course s (t.close.change
      fun c => { c.release with phase := .disconnected, place := .exited })

omit [Environment σ] in
theorem Place.present {p : Place} (here : p = .running) : ¬ p.IsAway := by
  rw [here]
  exact id

omit [Environment σ] in
theorem Client.Returned.present {c : Client} (h : c.Returned) : ¬ c.place.IsAway := by
  rcases h with ⟨here, -⟩ | ⟨_, here⟩ | ⟨_, here⟩ <;> rw [here] <;> exact id

/-- Where the thread can be after an input. -/
theorem Course.place (course : Course s s') :
    s.client.place.Alike s'.client.place ∨ ¬ s'.client.place.IsAway ∨
      (∃ interval, s'.client.place = .idle interval ∧ ∀ ms, interval = some ms →
        s.client.parked = false ∧ s.client.config.autoReconnect = true) ∨
      s'.client.place = .connecting s.client.config ∨ s'.client.place = .exited := by
  cases course with
  | kept _ _ alike => exact Or.inl alike
  | went _ _ here => exact Or.inr (Or.inl here.present)
  | hailed _ _ _ here => exact Or.inr (Or.inl here.present)
  | rested _ _ may => exact Or.inr (Or.inr (Or.inl ⟨_, rfl, may⟩))
  | dialled => exact Or.inr (Or.inr (Or.inr (Or.inl rfl)))
  | parted _ _ here => exact Or.inr (Or.inl (Place.present here))
  | recalled _ recalls =>
    obtain ⟨_, _, _, here, -⟩ := recalls
    exact Or.inr (Or.inl (Place.present here))
  | woken _ recalls =>
    obtain ⟨_, _, _, here, -⟩ := recalls
    exact Or.inr (Or.inl (Place.present here))
  | left => exact Or.inr (Or.inr (Or.inr (Or.inr rfl)))

theorem Interlude.routine (interlude : Interlude s s') : Routine s s' :=
  interlude.still.routine

namespace Routine

omit [Environment σ] in
theorem shut (s : System σ) : Routine s s.shut :=
  (close s).trans (.change _ rfl rfl)

theorem revived (s : System σ) (p : Inbound) : Routine s (s.revived p) := by
  obtain ⟨_, client⟩ := s.revived_client p
  exact .of_log (by rw [client]) (by rw [client]; rfl) (by simp)

theorem polled (s : System σ) : Routine s s.polled :=
  .of_log rfl rfl rfl

/-- The application is told of an event that is a matter of routine. -/
theorem told (awake : s.Awake) {event : Event}
    (routine : (Entry.raised event s.client (s.client.mask.contains event.kind)).IsRoutine) :
    Routine s (s.told event) :=
  (note s routine ⟨rfl, rfl⟩).trans (awake.tells event).routine

end Routine

/-! ## Chores -/

/-- A stretch of routine after which the thread is back. -/
def Returns (s s' : System σ) : Prop :=
  Routine s s' ∧ s'.client.Returned

/-- A stretch of routine after which the thread is back with no session. -/
def Parts (s s' : System σ) : Prop :=
  Routine s s' ∧ s'.client.place = .running ∧ s'.client.phase = .disconnected

omit [Environment σ] in
theorem Parts.returns (h : Parts s s') : Returns s s' :=
  ⟨h.1, .between h.2.1 (Or.inr h.2.2)⟩

omit [Environment σ] in
theorem Returns.after (later : Returns s' s'') (first : Routine s s') : Returns s s'' :=
  ⟨first.trans later.1, later.2⟩

omit [Environment σ] in
theorem Parts.after (later : Parts s' s'') (first : Routine s s') : Parts s s'' :=
  ⟨first.trans later.1, later.2⟩

omit [Environment σ] in
theorem Recalls.after (later : Recalls s' s'') (first : Routine s s') : Recalls s s'' := by
  obtain ⟨t, routine, rest⟩ := later
  exact ⟨t, first.trans routine, rest⟩

/-- What a chore comes to until the thread waits. -/
def Chore.Comes : Chore → System σ → System σ → Prop
  | .rests, s, s' => s' = s
  | .ends _, s, s' => Parts s s'
  | .obeys .destroy, s, s' => ∃ t, (s.note (.obeyed .destroy)).told .destroying = t ∧
      Routine ((s.note (.obeyed .destroy)).announce .destroying) t ∧
      s' = t.close.change fun c => { c.release with phase := .disconnected, place := .exited }
  | .obeys .reconnect, s, s' => Recalls (s.obeying .reconnect false) s'
  | .obeys (.disconnect notify), s, s' => Parts (s.obeying (.disconnect notify) true) s'
  | .recalls, s, s' => Recalls s s'
  | .hails config, s, s' => Returns s s' ∨
      ∃ packet, Packet.encode (Act.connectPacket config s.client.will).put = .ok packet ∧
        Returns (s.afterSend packet) s'
  | _, s, s' => Returns s s'

variable {input : Input σ} {chore next : Chore} {t : System σ}

theorem Goes.comes (goes : Goes chore s next t) (ready : chore.Ready s) (later : next.Comes t s') :
    chore.Comes s s' := by
  cases goes with
  | ended =>
    obtain rfl := later
    exact ⟨(Routine.shut s).trans (.told ready.shut trivial),
      (ready.shut.tells _).after.busy.1, (ready.shut.tells _).phase⟩
  | left =>
    have awake := ready.1.noted (.obeyed .destroy)
    exact ⟨_, rfl, (awake.tells .destroying).routine, later⟩
  | quit =>
    have closed := (ready.1.obeying .reconnect false).close
    exact Recalls.after later ((Routine.close _).trans (.told closed trivial))
  | freed => exact Recalls.after later (.close _)
  | recalled =>
    obtain rfl := later
    have tells := ready.tells .reconnecting
    exact ⟨s, .refl s, tells.routine.trans (.change _ rfl rfl), tells.after.busy.1, rfl⟩
  | parted => exact Parts.after later (.afterSend _ (by decide))
  | dropped => exact later
  | parked =>
    obtain rfl := later
    exact ⟨.shut _, (ready.1.obeying _ _).shut.busy.1, rfl⟩
  | unwritten => exact Or.inl (Parts.returns later)
  | unsent _ written => exact Or.inr ⟨_, written, Parts.returns later⟩
  | hailed _ written =>
    obtain rfl := later
    exact Or.inr ⟨_, written, .change _ rfl rfl, .greeting _ rfl⟩
  | refused => exact Parts.returns later
  | accepted => exact later
  | opened =>
    have opening : Routine s s.opening := .of_log rfl rfl rfl
    exact Returns.after later (opening.trans ready.toAwake.opening.migrates.routine)
  | failed looked | cut looked =>
    exact (Parts.returns later).after (ready.scans looked).routine
  | resumed looked | tended looked => exact Returns.after later (ready.scans looked).routine
  | kept =>
    obtain rfl := later
    have tells := ready.toAwake.tells (.connected true)
    exact ⟨.told ready.toAwake trivial,
      .between tells.after.busy.1 (Or.inl (tells.phase.trans ready.connected))⟩
  | renewed =>
    obtain rfl := later
    have tells := ready.toAwake.tells (.connected false)
    have renews := tells.after.renews
    have told : Routine s (s.told (.connected false)) := .told ready.toAwake trivial
    have connected := (tells.trans renews).phase.trans ready.connected
    exact ⟨told.trans renews.routine, .between renews.after.busy.1 (Or.inl connected)⟩
  | acted dispatched =>
    exact Returns.after later ((Routine.revived _ _).trans (ready.dispatches dispatched).routine)
  | broke dispatched =>
    exact (Parts.returns later).after
      ((Routine.revived _ _).trans (ready.dispatches dispatched).routine)
  | unpaced =>
    obtain rfl := later
    exact ⟨.refl _, .between ready.busy.1 (Or.inl ready.connected)⟩
  | quiet =>
    obtain rfl := later
    exact ⟨.polled _, .between ready.polled.busy.1 (Or.inl ready.polled.connected)⟩
  | pinged =>
    obtain rfl := later
    have serving := ready.polled.afterSend Packet.pingReq
    exact ⟨(Routine.polled _).trans (.afterSend _ (by decide)),
      .between serving.busy.1 (Or.inl serving.connected)⟩
  | unpinged =>
    exact (Parts.returns later).after ((Routine.polled _).trans (.afterSend _ (by decide)))
  | dead => exact (Parts.returns later).after (.polled _)

theorem Starts.course (starts : Starts s input chore t) (ordered : Ordered s)
    (sane : s.client.pending.Sane) (begun : s.Begun) (later : chore.Comes t s') : Course s s' := by
  have ended (away : s.client.place ≠ .unstarted) : Routine s s.unread :=
    (Routine.change s rfl rfl).trans (ordered.reads sane away).routine
  have read (away : s.client.place ≠ .unstarted) (p : Inbound) : Routine s (s.reading p) :=
    have noted : Routine s (s.note (.received p)) := .note s trivial ⟨rfl, rfl⟩
    noted.trans ((Routine.change _ rfl rfl).trans (ordered.readsPacket sane away p).routine)
  have went (engaged : s.Engaged) (back : Returns s s') : Course s s' := .went engaged back.1 back.2
  have greeting {reader : Frame.Reader} (here : s.client.place = .greeting reader) : s.Engaged :=
    Or.inr (Or.inl ⟨reader, here⟩)
  have session {place : Place} (connected : s.client.phase = .connected)
      (here : s.client.place = place) (there : place ≠ .exited) : s.Engaged :=
    Or.inr (Or.inr ⟨connected, here ▸ there⟩)
  cases starts with
  | called c =>
    obtain rfl := later
    have lapse : Lapse s ((Act.call c).run s).2 := Act.call_lapses c
    have still := lapse.still begun
    exact .kept still.routine still.phase still.place
  | went =>
    obtain rfl := later
    exact .kept (.of_log rfl rfl rfl) rfl (.same _)
  | stray =>
    obtain rfl := later
    exact .kept (.refl _) rfl (.same _)
  | @turned control controls runnable popped =>
    cases control with
    | destroy =>
      obtain ⟨t, told, routine, rfl⟩ := later
      exact .left runnable popped told routine
    | reconnect => exact .recalled runnable later
    | disconnect notify => exact .parted runnable later.1 later.2.1 later.2.2
  | listened here connected =>
    obtain rfl := later
    exact .went (session connected here Place.noConfusion) (.change s rfl rfl) (.listening _ rfl)
  | deserted here connected =>
    exact went (session connected here Place.noConfusion) (Parts.returns later)
  | rested here lost interval =>
    obtain rfl := later
    exact .rested here lost fun ms waits => Client.of_interval?_eq_some (interval.trans waits)
  | dialled here up down =>
    obtain rfl := later
    exact .dialled here up down
  | unopened here =>
    exact went (Or.inl ⟨_, here⟩) ((Parts.returns later).after (.change s rfl rfl))
  | opened here =>
    have opened : Routine s s.opened :=
      (Routine.change s rfl rfl).trans (.note _ trivial ⟨rfl, rfl⟩)
    rcases later with back | ⟨packet, written, back⟩
    · exact went (Or.inl ⟨_, here⟩) (back.after opened)
    · exact .hailed here written back.1 back.2
  | greetedOn here =>
    obtain rfl := later
    exact .kept (.change s rfl rfl) rfl (by rw [here]; exact .greeting _ _)
  | greeted here =>
    exact went (greeting here) (Returns.after later (read (here.trans_ne Place.noConfusion) _))
  | unanswered here | misread here =>
    exact went (greeting here)
      ((Parts.returns later).after (ended (here.trans_ne Place.noConfusion)))
  | readOn here =>
    obtain rfl := later
    exact .kept (.change s rfl rfl) rfl (by rw [here]; exact .listening _ _)
  | attended here =>
    exact went (session (ordered.listening _ here).2 here Place.noConfusion)
      (Returns.after later (read (here.trans_ne Place.noConfusion) _))
  | idled here =>
    exact went (session (ordered.listening _ here).2 here Place.noConfusion)
      (Returns.after later (ended (here.trans_ne Place.noConfusion)))
  | lost here =>
    exact went (session (ordered.listening _ here).2 here Place.noConfusion)
      ((Parts.returns later).after (ended (here.trans_ne Place.noConfusion)))
  | woke here => exact .woken here later

/-- **Courses.**  What an input to a client that was started comes to. -/
theorem Reachable.course (reachable : Reachable s) (begun : s.Begun) (input : Input σ) :
    Course s (s.take input) := by
  obtain ⟨ordered, sane⟩ := reachable.good
  obtain ⟨chore, t, starts, route⟩ := s.take_route input
  exact starts.course ordered sane begun
    (route.comes (P := Chore.Comes) (fun _ => rfl) Goes.comes (starts.ready ordered sane))

/-- Where no thread runs only calls do anything. -/
theorem System.take_away (here : s.client.place = .unstarted ∨ s.client.place = .exited)
    {input : Input σ} (uncalled : ∀ c, input ≠ .call c) :
    (s.take input).client = s.client ∧ (s.take input).log = s.log := by
  have absurdly {place : Place} {P : Prop} (there : s.client.place = place)
      (thread : place ≠ .unstarted ∧ place ≠ .exited) : P :=
    absurd (here.imp there.symm.trans there.symm.trans) (not_or.2 thread)
  obtain ⟨chore, t, starts, route⟩ := s.take_route input
  cases starts with
  | called c => exact absurd rfl (uncalled c)
  | went | stray =>
    rw [route.eq_of_rests]
    exact ⟨rfl, rfl⟩
  | turned runnable =>
    rcases Client.isRunnable_cases runnable with there | ⟨_, there⟩ <;>
      exact absurdly there ⟨Place.noConfusion, Place.noConfusion⟩
  | listened there | deserted there | rested there | dialled there | unopened there | opened there
  | greetedOn there | greeted there | unanswered there | misread there | readOn there
  | attended there | idled there | lost there | woke there =>
    exact absurdly there ⟨Place.noConfusion, Place.noConfusion⟩

end Mqtt
