import Mqtt.Proofs.Discipline
import Mqtt.Proofs.Found

/-!
# What the phase says of the session

Where the thread waits, the phase of a session means that one stands: a transport is open, and
the broker accepted a session on it (`Client.Seated`).  An application may look in between,
whenever it is told of an event.  There the phase says so too, but for one stretch: a client that
is told to connect again closes the transport of its session first and leaves the phase last, so
all that it tells of meanwhile finds the phase of a session that is gone (`Client.Unseated`).
-/

namespace Mqtt

/-- Whether a client has an open transport on which the broker accepted a session. -/
def Client.Seated (c : Client) (log : List Entry) : Prop :=
  c.linked = true ∧ Line.read? log = some .standing

/-- Whether an entry is of what the application is told or does. -/
def Entry.IsTalk (e : Entry) : Prop :=
  e.IsRaised ∨ e.IsRemark

/-- Whether the transport of a session was closed for the sake of another attempt, and nothing else
passed since but words with the application. -/
def Entry.Unseats (log : List Entry) : Prop :=
  ∃ talk earlier, log = talk ++ .closed :: .obeyed .reconnect :: earlier ∧
    Line.read? earlier = some .standing ∧ ∀ e ∈ talk, e.IsTalk

/-- Whether a client has no transport since it closed that of its session to connect again. -/
def Client.Unseated (c : Client) (log : List Entry) : Prop :=
  c.linked = false ∧ Entry.Unseats log

/-- Whether the phase of a session means that one stands, or was closed to connect again. -/
def Client.Sight (c : Client) (log : List Entry) : Prop :=
  c.phase = .connected → c.Seated log ∨ c.Unseated log

/-- Whether an event tells of the end of a session or of an attempt, or that another is to come. -/
def Event.IsParting : Event → Prop
  | .disconnected _ | .reconnecting => True
  | _ => False

/-- Whether an event arose when the phase said of the session what it may, and without a transport
if the event tells of an end. -/
def Entry.Sighted : Entry → List Entry → Prop
  | .raised event c told, earlier =>
    c.Sight (.raised event c told :: earlier) ∧ (event.IsParting → c.linked = false)
  | _, _ => True

/-- Whether the phase says of the session what it may, now and whenever an event arose. -/
structure Client.Watched (c : Client) (log : List Entry) : Prop where
  now : c.Sight log
  told : Entry.Each Entry.Sighted log

/-! ## Entries -/

theorem Entry.IsTalk.after? {e : Entry} (h : e.IsTalk) (line : Line) :
    line.after? e = some line := by
  rcases h with h | h <;> cases e <;> first | rfl | exact absurd h id

theorem Entry.sighted_of_quiet {e : Entry} (quiet : ¬ e.IsRaised) (earlier : List Entry) :
    e.Sighted earlier := by
  cases e <;> first | exact trivial | exact absurd trivial quiet

namespace Client.Sight

variable {c c' : Client} {log : List Entry} {e : Entry}

theorem of_apart (apart : c.phase ≠ .connected) : c.Sight log :=
  fun connected => absurd connected apart

/-- An entry that leaves a session where it stands, and is talk where none does. -/
theorem cons (h : c.Sight log) (standing : Line.standing.after? e = some .standing)
    (spoken : c.linked = false → e.IsTalk) : c.Sight (e :: log) := by
  intro connected
  rcases h connected with ⟨linked, read⟩ | ⟨unlinked, talk, earlier, rfl, read, all⟩
  · exact Or.inl ⟨linked, Line.read?_cons read standing⟩
  · exact Or.inr ⟨unlinked, e :: talk, earlier, rfl, read,
      List.forall_mem_cons.2 ⟨spoken unlinked, all⟩⟩

theorem within (h : c.Sight log) (within : e.Within c) : c.Sight (e :: log) :=
  h.cons (Entry.Within.standing within) fun unlinked => by
    cases e with
    | sent => exact absurd within.2.1 (by rw [unlinked]; exact Bool.noConfusion)
    | raised => exact Or.inl trivial
    | dialled | opened | closed | received | obeyed => cases within
    | _ => exact Or.inr trivial

theorem talk (h : c.Sight log) (spoken : e.IsTalk) : c.Sight (e :: log) :=
  h.cons (spoken.after? _) fun _ => spoken

end Client.Sight

/-! ## Moves -/

variable {σ : Type} {s s' : System σ} {line : Line} {bond : Bond}

/-- Where a session may go on, nothing else than in a lapse is written. -/
theorem Client.Sight.later (h : s.client.Sight s.log)
    (step : s'.client.phase = .connected → s.client.phase = .connected ∧
      s'.client.linked = s.client.linked ∧ Writes (·.Within s.client) s s') :
    s'.client.Sight s'.log := by
  intro connected
  obtain ⟨before, linked, writes⟩ := step connected
  have kept : s.client.Sight s'.log := writes.keep (fun own h => h.within own) h
  exact (kept before).imp (fun ⟨up, read⟩ => ⟨linked.trans up, read⟩)
    fun ⟨down, unseats⟩ => ⟨linked.trans down, unseats⟩

theorem Unraised.sighted (h : Unraised s s') (told : Entry.Each Entry.Sighted s.log) :
    Entry.Each Entry.Sighted s'.log :=
  told.later (h.writes.imp fun _ quiet => Entry.sighted_of_quiet quiet)

namespace Client.Watched

theorem of_apart (told : Entry.Each Entry.Sighted s.log) (apart : s.client.phase ≠ .connected) :
    s.client.Watched s.log :=
  ⟨.of_apart apart, told⟩

/-- The client may change where transport and phase stay. -/
theorem of_eq (h : s.client.Watched s.log) (log : s'.log = s.log)
    (linked : s'.client.linked = s.client.linked) (phase : s'.client.phase = s.client.phase) :
    s'.client.Watched s'.log :=
  ⟨h.now.later fun connected => ⟨phase ▸ connected, linked, .of_log log⟩, log ▸ h.told⟩

/-- An event arises. -/
theorem announce (h : s.client.Watched s.log) {event : Event}
    (parting : event.IsParting → s.client.linked = false) :
    (s.announce event).client.Watched (s.announce event).log :=
  have arisen : (Entry.raised event s.client (s.client.mask.contains event.kind)).IsTalk :=
    Or.inl trivial
  ⟨h.now.talk arisen, h.told.cons ⟨h.now.talk arisen, parting⟩⟩

/-- A step that raises no event, or one that tells of no end. -/
theorem step (h : s.client.Watched s.log) (now : s'.client.Sight s'.log)
    (tells : Unraised s s' ∨ ∃ event told,
      s'.log = .raised event s'.client told :: s.log ∧ ¬ event.IsParting) :
    s'.client.Watched s'.log := by
  refine ⟨now, ?_⟩
  rcases tells with quiet | ⟨event, told, log, inner⟩
  · exact quiet.sighted h.told
  · rw [log] at now ⊢
    exact h.told.cons ⟨now, fun parting => absurd parting inner⟩

end Client.Watched

/-- Where the thread waits, the phase of a session means that one stands. -/
theorem System.Settled.seated (h : s.Settled) (connected : s.client.phase = .connected) :
    s.client.Seated s.log := by
  obtain ⟨line, bond, stands, fits⟩ := h
  rw [connected] at fits
  generalize s.client.place = place at fits
  cases fits with
  | within | listening => exact ⟨stands.linked.2 Line.noConfusion, stands.transport⟩
  | between apart | connecting _ apart | greeting _ _ apart => exact absurd rfl apart

variable [Environment σ]

theorem CallMove.sight (move : CallMove s s') (h : s.client.Sight s.log) :
    s'.client.Sight s'.log := by
  refine h.later fun connected => ?_
  have sending {f : Client → Client} {packet : Bytes} (before : s.client.phase = .connected)
      (phase : (f s.client).phase = s.client.phase) (linked : (f s.client).linked = s.client.linked)
      (requested : Requested packet) :
      s.client.phase = .connected ∧
        ((s.change f).afterSend packet).client.linked = s.client.linked ∧
        Writes (·.Within s.client) s ((s.change f).afterSend packet) := by
    refine ⟨before, by simpa using linked, _, (s.change f).afterSend_log packet, ?_⟩
    intro e member
    obtain ⟨a, offered, rfl⟩ := List.mem_map.1 (List.mem_reverse.1 member)
    have within := System.within_of_mem_offers (s := s.change f) (phase.trans before)
      requested.isInner offered
    exact within.of_eq phase.symm linked.symm
  cases move with
  | remarked e remark => exact ⟨connected, rfl, .of_entry rfl (remark.within _)⟩
  | started => cases connected
  | undone _ init => cases init.symm.trans connected
  | released _ init =>
    have same : (s.close.change Client.release).client.phase = s.client.phase := by
      simp [Client.release]
    cases init.symm.trans (same.symm.trans connected)
  | discarded => exact ⟨connected, rfl, .of_entry rfl id⟩
  | requested _ issued _ before _ written => exact sending before rfl rfl (.request issued written)
  | refused issued _ before _ written => exact sending before rfl rfl (.request issued written)
  | sent level first _ before written =>
    exact sending (f := id) before rfl rfl (.message level first written)
  | _ => exact ⟨connected, rfl, .of_log rfl⟩

theorem CallMove.watched (move : CallMove s s') (h : s.client.Watched s.log) :
    s'.client.Watched s'.log := by
  refine h.step (move.sight h.now) (move.tells.imp_right ?_)
  rintro ⟨event, told, log, ⟨rfl, -⟩ | ⟨awaits, id, topic, rfl⟩⟩
  · exact ⟨_, told, log, fun parting => parting⟩
  · exact ⟨_, told, log, fun parting => parting⟩

theorem Calls.watched (calls : Calls s s') (h : s.client.Watched s.log) :
    s'.client.Watched s'.log := by
  induction calls with
  | refl => exact h
  | tail _ move ih => exact move.watched ih

theorem LapseMove.tells (move : LapseMove s s') :
    Unraised s s' ∨ ∃ event told,
      s'.log = .raised event s'.client told :: s.log ∧ ¬ event.IsParting := by
  have quiet {e : Entry} (remark : e.IsRemark) : ¬ e.IsRaised := by
    cases e <;> first | exact id | exact absurd remark id
  cases move with
  | @told event inner =>
    refine Or.inr ⟨event, _, rfl, fun parting => inner ?_⟩
    cases event <;> first | exact trivial | exact absurd parting id
  | undone => exact Or.inr ⟨_, _, rfl, id⟩
  | remarked remark => exact Or.inl (.of_entry rfl (quiet remark))
  | settled remark => exact Or.inl (.of_entry rfl (quiet remark))
  | willed remark => exact Or.inl (.of_entry rfl (quiet remark))
  | sent => exact Or.inl (.afterSend _ _)
  | released => exact Or.inl (.close s)
  | _ => exact Or.inl (.of_log rfl)

theorem Client.Watched.lapse (h : s.client.Watched s.log) (lapse : Lapse s s') (begun : s.Begun) :
    s'.client.Watched s'.log := by
  induction lapse with
  | refl => exact h
  | tail earlier move ih =>
    have still := move.still ((Lapse.still earlier begun).begun begun)
    obtain ⟨new, log, within, -⟩ := still.entries
    refine ih.step (ih.now.later fun connected => ?_) move.tells
    exact ⟨still.phase.symm.trans connected, still.linked, new, log, within⟩

theorem Client.Watched.interlude (h : s.client.Watched s.log) (interlude : Interlude s s') :
    s'.client.Watched s'.log :=
  h.lapse interlude.lapse interlude.before.busy.begun

/-- The application is told of an event. -/
theorem Client.Watched.tells (h : s.client.Watched s.log) (awake : s.Awake) (event : Event)
    (parting : event.IsParting → s.client.linked = false) :
    (s.told event).client.Watched (s.told event).log :=
  (h.announce parting).interlude (awake.tells event)

omit [Environment σ] in
theorem At.watched (stands : At s .standing bond) (told : Entry.Each Entry.Sighted s.log) :
    s.client.Watched s.log :=
  ⟨fun _ => Or.inl ⟨stands.linked.2 Line.noConfusion, stands.transport⟩, told⟩

omit [Environment σ] in
theorem At.unlinked (stands : At s .shut bond) : s.client.linked = false :=
  Bool.eq_false_iff.2 fun linked => stands.linked.1 linked rfl

/-! ## Chores -/

/-- Whether events arose when the phase said what it may.  Where the thread is to tell that it
connects again, the phase still does. -/
def Chore.Sights (chore : Chore) (s : System σ) : Prop :=
  Entry.Each Entry.Sighted s.log ∧ (chore = .recalls → s.client.Sight s.log)

omit [Environment σ] in
/-- The transport of a session is closed to connect again. -/
theorem unseated_close (stands : At s .standing bond) :
    (s.obeying .reconnect false).close.client.Unseated (s.obeying .reconnect false).close.log := by
  have linked : s.client.linked = true := stands.linked.2 Line.noConfusion
  have closed : (s.obeying .reconnect false).close.log =
      .closed :: .obeyed .reconnect :: s.log := by
    rw [System.close_log]
    exact if_pos linked
  refine ⟨by simp, [], s.log, closed, stands.transport, fun _ none => by cases none⟩

variable {input : Input σ} {chore next : Chore} {t : System σ}

theorem Goes.sights (goes : Goes chore s next t) (ready : chore.Ready s) (stands : chore.Stands s)
    (sights : chore.Sights s) : next.Sights t := by
  obtain ⟨told, now⟩ := sights
  cases goes with
  | ended reason =>
    have shut : s.shut.client.Watched s.shut.log :=
      .of_apart ((Unraised.close s).sighted told) Phase.noConfusion
    have closed : s.shut.client.linked = false := by simp [System.shut]
    exact ⟨(shut.tells ready.shut _ fun _ => closed).told, nofun⟩
  | left =>
    have awake := ready.1.noted (.obeyed .destroy)
    have noted : (s.note (.obeyed .destroy)).client.Watched (s.note (.obeyed .destroy)).log := by
      refine ⟨fun connected => ?_, told.cons trivial⟩
      obtain ⟨-, stands⟩ := stands.resolve_right fun ⟨apart, _⟩ => apart connected
      exact Or.inl ⟨stands.linked.2 Line.noConfusion, Line.read?_cons stands.transport rfl⟩
    have ended := noted.tells awake .destroying fun parting => absurd parting id
    exact ⟨(Unraised.close _).sighted ended.told, nofun⟩
  | quit connected =>
    obtain ⟨-, stands⟩ := stands.resolve_right fun ⟨apart, _⟩ => apart connected
    have unseated := unseated_close stands
    have freed : (s.obeying .reconnect false).close.client.Watched
        (s.obeying .reconnect false).close.log :=
      ⟨fun _ => Or.inr unseated, (Unraised.close _).sighted (told.cons trivial)⟩
    have parted := freed.tells (ready.1.obeying _ _).close (.disconnected .userRequested)
      fun _ => unseated.1
    exact ⟨parted.told, fun _ => parted.now⟩
  | freed apart =>
    refine ⟨(Unraised.close _).sighted (told.cons trivial), fun _ => .of_apart ?_⟩
    simpa [System.obeying] using apart
  | recalled =>
    have watched : s.client.Watched s.log := ⟨now rfl, told⟩
    exact ⟨(watched.tells ready _ fun _ => At.unlinked stands).told, nofun⟩
  | parted => exact ⟨(Unraised.afterSend _ _).sighted (told.cons trivial), nofun⟩
  | dropped => exact ⟨told.cons trivial, nofun⟩
  | parked => exact ⟨(Unraised.close _).sighted (told.cons trivial), nofun⟩
  | unwritten | refused | accepted | unpaced | quiet | dead => exact ⟨told, nofun⟩
  | unsent | hailed => exact ⟨(Unraised.afterSend _ _).sighted told, nofun⟩
  | pinged | unpinged => exact ⟨(Unraised.afterSend s.polled _).sighted told, nofun⟩
  | opened =>
    have begun : s.opening.client.Watched s.opening.log :=
      ⟨fun _ => Or.inl ⟨ready.linked, stands.transport⟩, told⟩
    exact ⟨(begun.interlude ready.toAwake.opening.migrates).told, nofun⟩
  | failed looked | resumed looked | cut looked | tended looked =>
    exact ⟨((At.watched stands told).interlude (ready.scans looked)).told, nofun⟩
  | kept =>
    have welcomed := (At.watched stands told).tells ready.toAwake (.connected true)
      fun parting => absurd parting id
    exact ⟨welcomed.told, nofun⟩
  | renewed =>
    have welcomed := (At.watched stands told).tells ready.toAwake (.connected false)
      fun parting => absurd parting id
    exact ⟨(welcomed.interlude (ready.toAwake.tells _).after.renews).told, nofun⟩
  | @acted _ _ p _ dispatched | @broke _ _ p _ dispatched =>
    have revived := (At.revived stands p).watched ((s.revived_log p).symm ▸ told)
    exact ⟨(revived.interlude (ready.dispatches dispatched)).told, nofun⟩

theorem Starts.sights (starts : Starts s input chore t) (ordered : Ordered s)
    (sane : s.client.pending.Sane) (settled : s.Settled) (watched : s.client.Watched s.log) :
    chore.Sights t := by
  have stopped : (s.change fun c => { c with place := .running }).client.Watched s.log :=
    watched.of_eq rfl rfl rfl
  have heard (p : Inbound) : Entry.Each Entry.Sighted (s.note (.received p)).log :=
    watched.told.cons trivial
  cases starts with
  | called c =>
    have calls : Calls s ((Act.call c).run s).2 := Act.call_calls c
    exact ⟨(calls.watched watched).told, nofun⟩
  | went | stray | turned | listened | deserted | rested | unopened | greetedOn | readOn =>
    exact ⟨watched.told, nofun⟩
  | dialled => exact ⟨((Unraised.close s).sighted watched.told).cons trivial, nofun⟩
  | opened => exact ⟨watched.told.cons trivial, nofun⟩
  | @greeted reader given elapsed p here =>
    have apart := (ordered.greeting reader here).2.1
    have read := ordered.readsPacket sane (here.trans_ne Place.noConfusion) p
    have stopped : Client.Watched _ _ :=
      .of_apart (s := (s.note (.received p)).change fun c => { c with place := .running })
        (heard p) apart
    exact ⟨(stopped.interlude read).told, nofun⟩
  | @attended reader given elapsed p here =>
    have stands : At (s.note (.received p)) .standing .bound :=
      (settled.listening here).note rfl rfl
    have read := ordered.readsPacket sane (here.trans_ne Place.noConfusion) p
    exact ⟨((stands.stopped.watched (heard p)).interlude read).told, nofun⟩
  | unanswered here | misread here | idled here | lost here =>
    have read := ordered.reads sane (here.trans_ne Place.noConfusion)
    exact ⟨(stopped.interlude read).told, nofun⟩
  | woke => exact ⟨watched.told, fun _ => stopped.now⟩

/-! ## A session left for another -/

omit [Environment σ] in
/-- Whether the application was told of an event by a client without a transport in the phase of a
session. -/
def System.Misled (event : Event) (s s' : System σ) : Prop :=
  ∃ c told earlier, .raised event c told :: earlier <:+ s'.log ∧ s.log <:+ earlier ∧
    c.phase = .connected ∧ c.linked = false

/-- What the application is told of is in the log. -/
theorem System.Awake.arises (awake : s.Awake) (event : Event) :
    (s.announce event).log <:+ (s.told event).log := by
  obtain ⟨new, log, -⟩ := (awake.tells event).still.entries
  exact ⟨new, log.symm⟩

/-- A client in a session that is told to connect again says so before it leaves the phase. -/
theorem Route.misleads (route : Route (.obeys .reconnect) s s') (awake : s.Awake)
    (connected : s.client.phase = .connected) :
    System.Misled (.disconnected .userRequested) s s' ∧ System.Misled .reconnecting s s' := by
  obtain _ | ⟨goes, recalls⟩ := route
  cases goes with
  | freed apart => exact absurd connected apart
  | quit =>
    obtain _ | ⟨goes, rests⟩ := recalls
    cases goes
    obtain rfl := rests.eq_of_rests
    let freed := (s.obeying .reconnect false).close
    have ready : freed.Awake := (awake.obeying _ _).close
    have tells := ready.tells (.disconnected .userRequested)
    have closed : freed.client.linked = false := by simp [freed]
    have phase : freed.client.phase = .connected := by
      simpa [freed, System.obeying] using connected
    have later : s.log <:+ freed.log :=
      (List.suffix_cons _ _).trans (Unraised.close (s.obeying .reconnect false)).writes.suffix
    have parted := ready.arises (.disconnected .userRequested)
    have recalled := tells.after.arises .reconnecting
    have told := (List.suffix_cons _ _).trans recalled
    refine ⟨⟨freed.client, _, freed.log, parted.trans told, later, phase, closed⟩, ?_⟩
    exact ⟨_, _, _, recalled, later.trans ((List.suffix_cons _ _).trans parted),
      tells.phase.trans phase, tells.linked.trans closed⟩

/-! ## Every run -/

theorem Reachable.watched (h : Reachable s) : s.client.Watched s.log := by
  suffices Entry.Each Entry.Sighted s.log from
    ⟨fun connected => Or.inl (h.settled.seated connected), this⟩
  induction h with
  | created => exact .nil
  | @input s input reachable told =>
    have settled := reachable.settled
    obtain ⟨ordered, sane⟩ := reachable.good
    obtain ⟨chore, t, starts, route⟩ := s.take_route input
    have watched : s.client.Watched s.log :=
      ⟨fun connected => Or.inl (settled.seated connected), told⟩
    have sighted := route.hold (I := fun chore s => chore.Stands s ∧ chore.Sights s)
      (fun goes ready ⟨stands, sights⟩ =>
        ⟨goes.stands ready stands, goes.sights ready stands sights⟩)
      (starts.ready ordered sane)
      ⟨starts.stands settled ordered sane, starts.sights ordered sane settled watched⟩
    exact sighted.2.1

theorem Found.watched (found : Found s) : s.client.Watched s.log := by
  refine found.holds (P := Client.Watched) (fun reachable moment => ?_) CallMove.watched
  have watched := reachable.watched
  cases moment with
  | now => exact watched
  | before suffixed =>
    exact ⟨(watched.told _ _ suffixed).1,
      fun e earlier later => watched.told e earlier (later.trans suffixed)⟩

/-- **What the phase says.**  Between inputs the phase of a session means that one stands: over an
open transport, on which the broker accepted it.  Wherever else an application looks it means so
too, unless the client has just closed the transport of its session to connect again.  No transport
is open when the end of a session or of an attempt is told of, or that another is to come; so if the
phase of a session is found then, the session was closed to connect again.  And that is found
whenever a client in a session obeys the call to connect again. -/
theorem Found.phase_connected :
    (∀ {s : System σ}, Reachable s → s.client.phase = .connected → s.client.Seated s.log) ∧
    (∀ {s : System σ}, Found s → s.client.phase = .connected →
      s.client.Seated s.log ∨ s.client.Unseated s.log) ∧
    (∀ {s : System σ}, Found s → ∀ event c told earlier,
      .raised event c told :: earlier <:+ s.log → event.IsParting →
      c.linked = false ∧
        (c.phase = .connected → Entry.Unseats (.raised event c told :: earlier))) ∧
    ∀ {s : System σ} {controls : Queue Control}, Reachable s → s.client.isRunnable = true →
      s.client.controls.pop? = some (.reconnect, controls) → s.client.phase = .connected →
      System.Misled (.disconnected .userRequested) s (s.take .turn) ∧
        System.Misled .reconnecting s (s.take .turn) := by
  refine ⟨fun reachable => reachable.settled.seated, fun found => found.watched.now, ?_, ?_⟩
  · intro s found event c told earlier suffixed parting
    obtain ⟨sight, closed⟩ := found.watched.told _ _ suffixed
    refine ⟨closed parting, fun connected => ?_⟩
    rcases sight connected with ⟨linked, -⟩ | ⟨-, unseats⟩
    · cases linked.symm.trans (closed parting)
    · exact unseats
  · intro s controls reachable runnable popped connected
    obtain ⟨ordered, sane⟩ := reachable.good
    have ready := (Starts.turned runnable popped).ready ordered sane
    exact (obeyed_route runnable popped).misleads ready.1 connected

/-- A client in its session that was told to connect again. -/
def recalled : System Script :=
  inSession.takes [.call .reconnect, .heard (.error .timeout) 0]

theorem recalled_reachable : Reachable recalled :=
  inSession_reachable.takes _

theorem Found.phase_connected_recalled :
    recalled.client.Seated recalled.log ∧
      System.Misled (.disconnected .userRequested) recalled (recalled.take .turn) ∧
      System.Misled .reconnecting recalled (recalled.take .turn) := by
  obtain ⟨seated, -, -, misled⟩ := Found.phase_connected (σ := Script)
  have connected : recalled.client.phase = .connected := by decide +kernel
  have popped : recalled.client.controls.pop? = some (.reconnect, {}) := by decide +kernel
  exact ⟨seated recalled_reachable connected,
    misled recalled_reachable (by decide +kernel) popped connected⟩

end Mqtt
