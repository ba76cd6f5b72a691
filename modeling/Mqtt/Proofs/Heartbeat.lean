import Mqtt.Proofs.Discipline
import Mqtt.Proofs.ExactlyOnce
import Mqtt.Proofs.Tuned

/-!
# The heartbeat of a client

A timed run is a run with the pulses of its inputs (`Timed`).  Every action of the thread
sustains the rhythm that its client keeps, so each pulse of a timed run goes by the settings,
and by what CONNECT said as long as the setting stayed (`Timed.rhythm`).  A setting replaced
during a session takes hold at the next beat: then the broker gets PINGREQs that it was not
told of (`rhythm_replacing`).
-/

namespace Mqtt

variable {σ : Type} [Environment σ]

/-! ## The pulses of inputs -/

/-- What the thread does in a session, once reading has ended, before it looks at the
heartbeat. -/
def Act.duties : Option Inbound → Act σ Unit
  | none => do
    let _ ← scan false
  | some p => do
    let _ ← (dispatch p).run
    let _ ← scan false

/-- The packet that an input completes. -/
def System.read? (s : System σ) : Input σ → Option Inbound
  | .heard given elapsed =>
    match s.client.place with
    | .greeting reader | .listening reader =>
      match reader.receive given elapsed with
      | .packet p => some p
      | _ => none
    | _ => none
  | _ => none

/-- What a packet is to the heartbeat, if the thread takes note of it at this time. -/
def Place.pulse? (place : Place) (p : Inbound) (time : Nat) : Option Pulse :=
  match place with
  | .greeting _ => (Act.greetingStatus p).toOption.map fun _ => .opened time
  | .listening _ => if p.kind = .pingResp then some (.answered time) else none
  | _ => none

/-- The pulses between two systems, if the heartbeat was last looked at at this time. -/
def System.pulsesTo (s s' : System σ) (time : Nat) : List Pulse :=
  (s'.log.take (s'.log.length - s.log.length)).filterMap (Entry.pulse? time)

/-- The pulses of an input.  The thread takes note of a packet as it reads the clock next, and
looks at the heartbeat as it reads it after its duties. -/
def System.pulses (clock : Clock σ) (s : System σ) (input : Input σ) : List Pulse :=
  match s.read? input with
  | none => s.pulsesTo (s.take input) (clock.next ((Act.duties none).run (Act.readEnded.run s).2).2)
  | some p =>
    let read := s.reading p
    let beat := clock.next ((Act.duties (some p)).run read).2
    read.pulsesTo (s.take input) beat ++
      ((s.client.place.pulse? p (clock.next read)).toList ++ s.pulsesTo read beat)

/-- Whether time does not go back with what is outside. -/
def Input.Onward (clock : Clock σ) (s : System σ) : Input σ → Prop
  | .outside later => clock.time s.outside ≤ clock.time later
  | _ => True

/-- The runs of a client made with the given settings, with their pulses. -/
inductive Timed (clock : Clock σ) (config : Config) : System σ → List Pulse → Prop
  | created {client : Client} (outside : σ) : Client.create config = .ok client →
    Timed clock config ⟨client, outside, []⟩ []
  | input {s : System σ} {pulses : List Pulse} (input : Input σ) : Timed clock config s pulses →
    input.Onward clock s → Timed clock config (s.take input) (s.pulses clock input ++ pulses)

variable {clock : Clock σ} {s s' : System σ} {r : Rhythm} {time : Nat}

theorem Timed.reachable {config : Config} {pulses : List Pulse}
    (run : Timed clock config s pulses) : Reachable s := by
  induction run with
  | created outside made => exact .created outside made
  | input input _ _ ih => exact .input input ih

theorem Sustains.leadsTo (h : Sustains clock time r s.log s') :
    r.LeadsTo clock (s.pulsesTo s' time) s' := by
  obtain ⟨new, log, leads⟩ := h
  unfold System.pulsesTo
  rw [log, List.length_append, Nat.add_sub_cancel, List.take_left]
  exact leads

/-! ## Chores -/

/-- What a chore heeds of the rhythm, if the heartbeat is looked at at this time. -/
def Chore.Heeds (clock : Clock σ) (time : Nat) (r : Rhythm) : Chore → System σ → Prop
  | .ends reason, s =>
    Tuned clock s.close r ∧ (reason = .keepAliveTimeout → r.Allows (.expired time))
  | .hails config, s => Tuned clock s.close r ∧ config.keepAlive = r.due ∧
      Tuned clock s (r.after (.announced config.keepAlive))
  | .greets p, s => ∃ earlier, Tuned clock s earlier ∧ r = earlier.along
      ((Act.greetingStatus p).toOption.map fun _ => Pulse.opened (clock.next s)).toList
  | .opens _, s => ∃ earlier, Tuned clock s earlier ∧ r = earlier.after (.opened (clock.next s))
  | .attends p, s =>
    Tuned clock (s.revived p) r ∧ time = clock.next ((Act.duties (some p)).run s).2
  | .tends, s => Tuned clock s r ∧ time = clock.next ((Act.duties none).run s).2
  | .beats, s => Tuned clock s r ∧ time = clock.next s
  | _, s => Tuned clock s r

variable {input : Input σ} {chore next : Chore} {t : System σ}

/-- Any end of a session but that for want of answers may be told at any time. -/
theorem Tuned.closes (tuned : Tuned clock s r) {reason : DisconnectReason}
    (other : reason ≠ .keepAliveTimeout) : (Chore.ends reason).Heeds clock time r s :=
  ⟨tuned.drift (.close s), fun expired => absurd expired other⟩

/-- The application is told of an event that is no pulse. -/
theorem Tuned.told (tuned : Tuned clock s r) (awake : s.Awake) (event : Event)
    (silent : ∀ time,
      (Entry.raised event s.client (s.client.mask.contains event.kind)).pulse? time = none) :
    Sustains clock time r s.log (s.told event) :=
  .of_silent (.of_entry silent s.log)
    ((awake.tells event).lapse.sustains (tuned.drift (.note s silent)))

theorem Drift.obeying (s : System σ) (control : Control)
    (parked : Bool) : Drift clock s (s.obeying control parked) :=
  (Drift.note s fun _ => rfl).trans (.frame _ rfl rfl rfl rfl rfl)

theorem Drift.shut (s : System σ) : Drift clock s s.shut :=
  (Drift.close s).trans (.enter _ Phase.noConfusion)

/-- A session begins with the beats that its setting asks for. -/
theorem Tuned.opening (tuned : Tuned clock s r) :
    Tuned clock s.opening (r.after (.opened (clock.next s))) := by
  refine ⟨tuned.setting, tuned.connecting, tuned.linked, fun _ => ⟨_, rfl, ?_⟩⟩
  have shown := Beats.shown_fresh s.client.config.keepAlive (clock.next s)
  rw [tuned.setting] at shown
  change (Beats.fresh r.setting (clock.next s)).Shown (.fresh (Environment.now s.outside).1
    (s.client.config.keepAlive.toUInt32 * 1000)) _
  rw [clock.reads]
  exact tuned.setting ▸ shown

/-- PINGREQ and the end of a session come when the beats say so. -/
theorem Tuned.polled (tuned : Tuned clock s r) (connected : s.client.phase = .connected)
    (on : s.client.config.keepAlive ≠ 0) :
    (s.beat = .quiet → Tuned clock s.polled r) ∧
    (s.beat = .dead → Tuned clock s.polled r ∧ r.Allows (.expired (clock.next s))) ∧
    (s.beat = .ping → Tuned clock s.polled (r.after (.asked (clock.next s))) ∧
      r.Allows (.asked (clock.next s))) := by
  obtain ⟨b, session, shown⟩ := tuned.session connected
  have set : r.setting ≠ 0 := tuned.setting ▸ on
  have polled : s.client.keepAlive.poll (Environment.now s.outside).1 =
      (s.beat, s.polled.client.keepAlive) := rfl
  rw [clock.reads] at polled
  have same (kept : s.polled.client.keepAlive = s.client.keepAlive) : Tuned clock s.polled r :=
    ⟨tuned.setting, tuned.connecting, tuned.linked,
      fun _ => ⟨b, session, kept ▸ shown.later (clock.le_next s)⟩⟩
  rcases shown.poll (clock.le_next s) with quiet | ⟨dead, may⟩ | ⟨k, ping, may, asked⟩
  · obtain ⟨beat, kept⟩ := Prod.mk.inj (polled.symm.trans quiet)
    rw [beat]
    exact ⟨fun _ => same kept, nofun, nofun⟩
  · obtain ⟨beat, kept⟩ := Prod.mk.inj (polled.symm.trans dead)
    rw [beat]
    exact ⟨nofun, fun _ => ⟨same kept, set, b, session, may⟩, nofun⟩
  · obtain ⟨beat, counted⟩ := Prod.mk.inj (polled.symm.trans ping)
    rw [beat]
    refine ⟨nofun, nofun, fun _ => ⟨⟨tuned.setting, tuned.connecting, tuned.linked, fun _ =>
      ⟨_, ?_, counted ▸ asked⟩⟩, set, b, session, may⟩⟩
    exact congrArg (Option.map (·.ask (clock.next s))) session

/-- An answer from the broker sets the beats back. -/
theorem Tuned.revived (tuned : Tuned clock s r) (connected : s.client.phase = .connected)
    (p : Inbound) (reader : Frame.Reader) :
    Tuned clock (s.revived p)
      (r.along ((Place.listening reader).pulse? p (clock.next s)).toList) := by
  unfold System.revived
  change Tuned clock _ (r.along
    (if p.kind = .pingResp then some (.answered (clock.next s)) else none).toList)
  split
  · obtain ⟨b, session, shown⟩ := tuned.session connected
    refine ⟨tuned.setting, tuned.connecting, tuned.linked, fun _ => ?_⟩
    refine ⟨b.answer (clock.next s), ?_, ?_⟩
    · exact congrArg (Option.map (·.answer (clock.next s))) session
    · change (b.answer _).Shown (s.client.keepAlive.pong (Environment.now s.outside).1) _
      rw [clock.reads]
      exact shown.answer (clock.le_next s)
  · exact tuned

/-- Sending a packet that is a pulse, while there is time for it. -/
theorem Tuned.sends {pulse : Pulse} (after : Tuned clock s (r.after pulse))
    (allowed : r.Allows pulse) {packet : Bytes} (own : Packet.pulse? time packet = some pulse)
    (more : packet ≠ []) (linked : s.client.linked = true)
    (valid : s.client.config.validate = .ok ()) :
    Sustains clock time r s.log (s.afterSend packet) := by
  obtain ⟨new, log, pulses⟩ := s.pulses_afterSend more linked valid time
  refine ⟨new, log, ?_⟩
  rw [pulses, own]
  exact ⟨⟨trivial, allowed⟩, after.glide (.afterSend s packet)⟩

/-- CONNECT says what the setting was when the transport was asked for. -/
theorem Tuned.salutes {config : Config} {packet : Bytes}
    (announced : Tuned clock s (r.after (.announced config.keepAlive)))
    (due : config.keepAlive = r.due)
    (written : Packet.encode (Act.connectPacket config s.client.will).put = .ok packet)
    (linked : s.client.linked = true) (valid : s.client.config.validate = .ok ()) :
    Sustains clock time r s.log (s.afterSend packet) := by
  obtain ⟨body, whole⟩ := Packet.Connect.parse?_put written
  exact announced.sends due (Packet.Connect.pulse?_put written time)
    (Packet.ne_nil_of_parse? whole) linked valid

theorem Tuned.asks (next : Tuned clock s (r.after (.asked time))) (allowed : r.Allows (.asked time))
    (serving : s.Serving) : Sustains clock time r s.log (s.afterSend Packet.pingReq) :=
  next.sends allowed rfl (by decide) serving.linked serving.valid

/-- The application is told why no session stands, and of all the reasons only one is a pulse. -/
theorem Tuned.ends {reason : DisconnectReason} (closed : Tuned clock s.close r)
    (allowed : reason = .keepAliveTimeout → r.Allows (.expired time)) (awake : s.Awake) :
    Sustains clock time r s.log (s.shut.told (.disconnected reason)) := by
  have shut : Drift clock s s.shut := .shut s
  have parted : Tuned clock s.shut r := closed.drift (.enter s.close Phase.noConfusion)
  by_cases expired : reason = .keepAliveTimeout
  · subst expired
    have told : Sustains clock time r s.shut.log
        (s.shut.announce (.disconnected .keepAliveTimeout)) :=
      ⟨[_], rfl, ⟨trivial, allowed rfl⟩, parted.setting, parted.connecting, parted.linked,
        parted.session⟩
    exact .of_silent shut.silent
      (told.trans fun _ tuned => (awake.shut.tells _).lapse.sustains tuned)
  · refine .of_silent shut.silent (parted.told awake.shut (.disconnected reason) fun time => ?_)
    cases reason <;> first
      | rfl
      | exact absurd rfl expired

/-- The thread ends. -/
theorem Tuned.leaves (tuned : Tuned clock s r) (awake : s.Awake) :
    Sustains clock time r s.log (((s.note (.obeyed .destroy)).told .destroying).close.change
      fun c => { c.release with phase := .disconnected, place := .exited }) := by
  have noted : Drift clock s (s.note (.obeyed .destroy)) := .note s fun _ => rfl
  have told : Sustains clock time r _ ((s.note (.obeyed .destroy)).told .destroying) :=
    (tuned.drift noted).told (awake.noted _) .destroying fun _ => rfl
  refine (Sustains.of_silent noted.silent told).trans fun _ tuned => .drift tuned ?_
  exact (Drift.close _).trans (.change _ rfl (fun _ => Place.noConfusion) id Phase.noConfusion)

/-- After a stretch any end of a session but that for want of answers may be told. -/
theorem Sustains.ends {log : List Entry} {reason : DisconnectReason}
    (first : Sustains clock time r log s) (other : reason ≠ .keepAliveTimeout)
    (later : ∀ r, (Chore.ends reason).Heeds clock time r s → Sustains clock time r s.log s') :
    Sustains clock time r log s' :=
  first.trans fun r tuned => later r (tuned.closes other)

/-- Every way sustains the rhythm that its chore heeds, if the next chore does. -/
theorem Goes.sustains {s' : System σ} (goes : Goes chore s next t) (ready : chore.Ready s)
    (later : ∀ r, next.Heeds clock time r t → Sustains clock time r t.log s') (r : Rhythm)
    (heeds : chore.Heeds clock time r s) : Sustains clock time r s.log s' := by
  cases goes with
  | ended => exact (heeds.1.ends heeds.2 ready).trans later
  | left => exact (Tuned.leaves heeds ready.1).trans later
  | quit =>
    have freed : Drift clock s (s.obeying .reconnect false).close :=
      (Drift.obeying s _ _).trans (.close _)
    have awake := (ready.1.obeying .reconnect false).close
    refine (Sustains.of_silent freed.silent ?_).trans later
    exact (Tuned.drift heeds freed).told awake (.disconnected .userRequested) fun _ => rfl
  | freed => exact (Sustains.drift heeds ((Drift.obeying s _ _).trans (.close _))).trans later
  | recalled =>
    refine ((Tuned.told heeds ready .reconnecting fun _ => rfl).trans fun _ tuned => ?_).trans later
    exact .drift tuned (.enter _ Phase.noConfusion)
  | parted =>
    have sent : Drift clock s ((s.obeying (.disconnect true) true).afterSend Packet.disconnect) :=
      (Drift.obeying s _ _).trans (.afterSend _ fun _ => rfl)
    exact (Sustains.drift heeds sent).ends DisconnectReason.noConfusion later
  | dropped =>
    exact (Sustains.drift heeds (.obeying s _ _)).ends DisconnectReason.noConfusion later
  | parked =>
    exact (Sustains.drift heeds ((Drift.obeying s _ _).trans (.shut _))).trans later
  | unwritten => exact later r ⟨heeds.1, DisconnectReason.noConfusion⟩
  | unsent linked written =>
    obtain ⟨-, due, announced⟩ := heeds
    exact (announced.salutes due written linked ready.valid).ends DisconnectReason.noConfusion later
  | hailed linked written =>
    obtain ⟨-, due, announced⟩ := heeds
    refine ((announced.salutes due written linked ready.valid).trans fun r tuned => ?_).trans later
    exact .drift tuned (.goTo _ fun _ => Place.noConfusion)
  | refused status =>
    obtain ⟨earlier, tuned, rfl⟩ := heeds
    rw [status]
    exact later _ (tuned.closes DisconnectReason.noConfusion)
  | accepted status =>
    obtain ⟨earlier, tuned, rfl⟩ := heeds
    rw [status]
    exact later _ ⟨earlier, tuned, rfl⟩
  | opened =>
    obtain ⟨earlier, tuned, rfl⟩ := heeds
    have migrated := ready.toAwake.opening.migrates
    exact (migrated.lapse.sustains tuned.opening).trans later
  | failed looked =>
    exact ((ready.scans looked).lapse.sustains heeds).ends DisconnectReason.noConfusion later
  | resumed looked => exact ((ready.scans looked).lapse.sustains heeds).trans later
  | kept =>
    exact (Tuned.told heeds ready.toAwake (.connected true) fun _ => rfl).trans later
  | renewed =>
    have told : Sustains clock time r s.log (s.told (.connected false)) :=
      Tuned.told heeds ready.toAwake (.connected false) fun _ => rfl
    have renews := (ready.toAwake.tells (.connected false)).after.renews
    exact (told.trans fun _ tuned => renews.lapse.sustains tuned).trans later
  | @acted _ _ p result dispatched =>
    obtain ⟨tuned, rfl⟩ := heeds
    rw [← s.revived_log]
    have duties : ((Act.duties (some p)).run s).2 = ((Act.duties none).run t).2 := by
      change ((Act.duties none).run ((Act.dispatch p).run.run s).2).2 = _
      rw [dispatched]
    exact ((ready.dispatches dispatched).lapse.sustains tuned).trans fun r tuned =>
      later r ⟨tuned, congrArg clock.next duties⟩
  | broke dispatched =>
    rw [← s.revived_log]
    have interlude := ready.dispatches dispatched
    exact (interlude.lapse.sustains heeds.1).ends DisconnectReason.noConfusion later
  | cut looked =>
    exact ((ready.scans looked).lapse.sustains heeds.1).ends DisconnectReason.noConfusion later
  | tended looked =>
    obtain ⟨tuned, rfl⟩ := heeds
    have duties : ((Act.duties none).run s).2 = t := congrArg Prod.snd looked
    exact ((ready.scans looked).lapse.sustains tuned).trans fun r tuned =>
      later r ⟨tuned, congrArg clock.next duties⟩
  | unpaced => exact later r heeds.1
  | quiet on quiet => exact later r ((heeds.1.polled ready.connected on).1 quiet)
  | pinged on ping =>
    obtain ⟨tuned, rfl⟩ := heeds
    obtain ⟨next, allowed⟩ := (tuned.polled ready.connected on).2.2 ping
    exact (next.asks allowed ready.polled).trans later
  | unpinged on ping =>
    obtain ⟨tuned, rfl⟩ := heeds
    obtain ⟨next, allowed⟩ := (tuned.polled ready.connected on).2.2 ping
    exact (next.asks allowed ready.polled).ends DisconnectReason.noConfusion later
  | dead on dead =>
    obtain ⟨tuned, rfl⟩ := heeds
    obtain ⟨next, allowed⟩ := (tuned.polled ready.connected on).2.1 dead
    exact later r ⟨next.drift (.close _), fun _ => allowed⟩

/-- What came before the thread took note of a packet, what the packet is and what came of it
are the pulses of the input that completed it. -/
theorem leadsTo_of_read {input : Input σ} {p : Inbound} (read : s.read? input = some p)
    (first : ∀ time, Sustains clock time r s.log (s.reading p))
    (later : ∀ r time, Tuned clock (s.reading p) r →
      time = clock.next ((Act.duties (some p)).run (s.reading p)).2 →
      ∀ sign, (s.client.place.pulse? p (clock.next (s.reading p))).toList = sign →
        r.Lawful sign ∧ Sustains clock time (r.along sign) (s.reading p).log (s.take input)) :
    r.LeadsTo clock (s.pulses clock input) (s.take input) := by
  unfold System.pulses
  rw [read]
  obtain ⟨lawful, tuned⟩ := (first _).leadsTo
  obtain ⟨allowed, next⟩ := later _ _ tuned rfl _ rfl
  refine .append (lawful.append allowed) ?_
  rw [Rhythm.along_append]
  exact next.leadsTo


/-- What is done from a chore on sustains the rhythm. -/
theorem Route.sustains (route : Route chore s s') (ready : chore.Ready s)
    (heeds : chore.Heeds clock time r s) : Sustains clock time r s.log s' :=
  route.comes (P := fun chore s s' => ∀ r, chore.Heeds clock time r s →
      Sustains clock time r s.log s')
    (fun _ _ tuned => .refl tuned) (fun goes => goes.sustains) ready r heeds

/-- Reading has ended, and the thread goes on. -/
theorem Tuned.reads (tuned : Tuned clock s r) (ordered : Ordered s)
    (sane : s.client.pending.Sane) (started : s.client.place ≠ .unstarted) :
    Sustains clock time r s.log s.unread :=
  have stopped : Drift clock s (s.change fun c => { c with place := .running }) :=
    .goTo s fun _ => Place.noConfusion
  .of_silent stopped.silent ((ordered.reads sane started).lapse.sustains (tuned.drift stopped))

/-- A packet was read, and the thread turns to it. -/
theorem Tuned.readsPacket (tuned : Tuned clock s r) (ordered : Ordered s)
    (sane : s.client.pending.Sane) (started : s.client.place ≠ .unstarted) (p : Inbound) :
    Sustains clock time r s.log (s.reading p) :=
  have noted : Drift clock s (s.note (.received p)) := .note s fun _ => rfl
  have stopped : Drift clock s
      ((s.note (.received p)).change fun c => { c with place := .running }) :=
    noted.trans (.goTo _ fun _ => Place.noConfusion)
  .of_silent stopped.silent
    ((ordered.readsPacket sane started p).lapse.sustains (tuned.drift stopped))

/-- An attempt to connect begins under the settings as they stand. -/
theorem Tuned.dials (tuned : Tuned clock s r) (apart : s.client.phase ≠ .connected) :
    Sustains clock time r s.log s.dialling := by
  have begun : Tuned clock s.dialling (r.after .dialled) := by
    refine ⟨(tuned.drift (.close s)).setting, fun config here => ?_, fun linked => ?_,
      fun connected => ?_⟩
    · cases here
      exact tuned.setting
    · change s.close.client.linked = true at linked
      rw [System.close_client] at linked
      cases linked
    · change s.close.client.phase = .connected at connected
      rw [System.close_client] at connected
      exact absurd connected apart
  have shut : Drift clock s s.close := .close s
  exact .of_silent shut.silent ⟨[_], rfl, ⟨trivial, trivial⟩, begun⟩

/-- With its transport just opened a client is tuned once that is closed, or CONNECT was
offered. -/
theorem Tuned.opened (tuned : Tuned clock s r) {config : Config}
    (here : s.client.place = .connecting config) :
    (Chore.hails config).Heeds clock time r s.opened := by
  have due : config.keepAlive = r.due := tuned.connecting config here
  refine ⟨?_, due, tuned.setting, fun _ here => Place.noConfusion here, fun _ => congrArg some due,
    tuned.session⟩
  change Tuned clock ((s.opened.change fun c => { c with linked := false }).note .closed) r
  exact ⟨tuned.setting, fun _ here => Place.noConfusion here,
    fun open_ => Bool.noConfusion open_, tuned.session⟩

/-- What an input without a packet leaves to be done. -/
theorem Starts.sustains (starts : Starts s input chore t) (tuned : Tuned clock s r)
    (ordered : Ordered s) (sane : s.client.pending.Sane) (onward : input.Onward clock s)
    (unread : s.read? input = none)
    (timed : time = clock.next ((Act.duties none).run s.unread).2)
    (later : ∀ r, chore.Heeds clock time r t → Sustains clock time r t.log s') :
    Sustains clock time r s.log s' := by
  have stays {place : Place} (there : ∀ config, place ≠ .connecting config) :
      Sustains clock time r s.log (s.change fun c => { c with place }) :=
    .drift tuned (.goTo s there)
  cases starts with
  | called c =>
    have lapse : Lapse s ((Act.call c).run s).2 := Act.call_lapses c
    exact (lapse.sustains tuned).trans later
  | went => exact (Sustains.drift tuned (.shift s onward)).trans later
  | stray => exact later r tuned
  | turned =>
    refine (Sustains.drift tuned ?_).trans later
    exact .change s rfl (fun _ here => Place.noConfusion here) id fun up => ⟨up, rfl⟩
  | listened | rested | greetedOn | readOn | woke =>
    exact (stays fun _ => Place.noConfusion).trans later
  | deserted => exact later r (tuned.closes DisconnectReason.noConfusion)
  | dialled here up => exact (tuned.dials up).trans later
  | unopened =>
    exact (stays fun _ => Place.noConfusion).ends DisconnectReason.noConfusion later
  | opened here =>
    have silent : Silent s.log s.opened.log := .of_entry (fun _ => rfl) s.log
    exact .of_silent silent (later r (tuned.opened here))
  | greeted here read | attended here read =>
    rw [System.read?, here] at unread
    simp [read] at unread
  | unanswered here | misread here =>
    have begun : s.client.place ≠ .unstarted := here.trans_ne Place.noConfusion
    exact (tuned.reads ordered sane begun).ends DisconnectReason.noConfusion later
  | idled here =>
    exact (tuned.reads ordered sane (here.trans_ne Place.noConfusion)).trans fun r tuned =>
      later r ⟨tuned, timed⟩
  | lost here failed =>
    refine (tuned.reads ordered sane (here.trans_ne Place.noConfusion)).trans fun r tuned =>
      later r (tuned.closes ?_)
    rcases Frame.Reader.ofReading_of_receive failed with rfl | rfl <;>
      exact DisconnectReason.noConfusion

section Read

variable (tuned : Tuned clock s r) (ordered : Ordered s) (sane : s.client.pending.Sane)
  {reader : Frame.Reader} {given : Except Transport.Error Bytes} {elapsed : Nat} {p : Inbound}
  (read : reader.receive given elapsed = .packet p)

include tuned ordered sane read

/-- The first packet of the broker may begin a session. -/
theorem greeted_leadsTo (here : s.client.place = .greeting reader) :
    r.LeadsTo clock (s.pulses clock (.heard given elapsed)) (s.take (.heard given elapsed)) := by
  have whole : s.read? (.heard given elapsed) = some p := by simp [System.read?, here, read]
  have started : s.client.place ≠ .unstarted := here.trans_ne Place.noConfusion
  have ready := (Starts.greeted here read).ready ordered sane
  refine leadsTo_of_read whole (fun _ => tuned.readsPacket ordered sane started p) ?_
  intro r time tuned _ sign signed
  rw [here] at signed
  subst signed
  refine ⟨?_, (greeted_route here read).sustains ready ⟨r, tuned, rfl⟩⟩
  rw [Place.pulse?]
  cases Act.greetingStatus p with
  | error status => trivial
  | ok sessionPresent => exact ⟨trivial, tuned.linked ready.linked⟩

/-- A packet of the session may be an answer to the heartbeat. -/
theorem attended_leadsTo (here : s.client.place = .listening reader) :
    r.LeadsTo clock (s.pulses clock (.heard given elapsed)) (s.take (.heard given elapsed)) := by
  have whole : s.read? (.heard given elapsed) = some p := by simp [System.read?, here, read]
  have started : s.client.place ≠ .unstarted := here.trans_ne Place.noConfusion
  have ready := (Starts.attended here read).ready ordered sane
  refine leadsTo_of_read whole (fun _ => tuned.readsPacket ordered sane started p) ?_
  intro r time tuned timed sign signed
  rw [here] at signed
  subst signed
  have revived := tuned.revived ready.connected p reader
  refine ⟨?_, (attended_route here read).sustains ready ⟨revived, timed⟩⟩
  rw [Place.pulse?]
  split <;> trivial

end Read

theorem take_leadsTo (tuned : Tuned clock s r) (reachable : Reachable s) (input : Input σ)
    (onward : input.Onward clock s) :
    r.LeadsTo clock (s.pulses clock input) (s.take input) := by
  obtain ⟨ordered, sane⟩ := reachable.good
  cases whole : s.read? input with
  | none =>
    obtain ⟨chore, t, starts, route⟩ := s.take_route input
    have ready := starts.ready ordered sane
    unfold System.pulses
    rw [whole]
    exact (starts.sustains tuned ordered sane onward whole rfl
      fun r => route.sustains ready).leadsTo
  | some p =>
    unfold System.read? at whole
    split at whole
    next given elapsed =>
      split at whole
      next reader here =>
        split at whole
        next read =>
          cases whole
          exact greeted_leadsTo tuned ordered sane read here
        · cases whole
      next reader here =>
        split at whole
        next read =>
          cases whole
          exact attended_leadsTo tuned ordered sane read here
        · cases whole
      · cases whole
    · cases whole

theorem Timed.leadsTo {config : Config} {pulses : List Pulse} (run : Timed clock config s pulses) :
    (Rhythm.fresh config.keepAlive).LeadsTo clock pulses s := by
  induction run with
  | created outside made =>
    obtain ⟨-, rfl⟩ := create_eq_ok made
    exact ⟨trivial, rfl, fun _ here => Place.noConfusion here,
      fun linked => Bool.noConfusion linked, fun connected => Phase.noConfusion connected⟩
  | input input run onward ih =>
    exact .append ih.1 (take_leadsTo ih.2 run.reachable input onward)

/-- **Heartbeat.**  Each pulse of a run goes by the settings: PINGREQ comes no sooner than the
period that was set when the session began after its beginning, the last PINGREQ and the last
answer, the session is held to be dead only after five PINGREQs and six periods without an
answer, and neither comes while the setting is zero.  As long as the setting has stayed what
it was when the attempt to connect began, this is what CONNECT said. -/
theorem Timed.rhythm {config : Config} {pulses earlier : List Pulse} {pulse : Pulse}
    (run : Timed clock config s pulses) (heard : pulse :: earlier <:+ pulses) :
    ((Rhythm.fresh config.keepAlive).along earlier).Allows pulse ∧
      (((Rhythm.fresh config.keepAlive).along earlier).steady = true →
        ((Rhythm.fresh config.keepAlive).along earlier).Honours pulse) :=
  run.leadsTo.1.honours heard

/-! ## A setting replaced in a session -/

/-- The pulses of inputs one after the other. -/
def System.pulsesOf (clock : Clock σ) (s : System σ) : List (Input σ) → List Pulse
  | [] => []
  | input :: rest => (s.take input).pulsesOf clock rest ++ s.pulses clock input

theorem Timed.takes {config : Config} {pulses : List Pulse} (run : Timed clock config s pulses)
    (inputs : List (Input σ)) (onward : ∀ input ∈ inputs, ∀ s, input.Onward clock s) :
    Timed clock config (s.takes inputs) (s.pulsesOf clock inputs ++ pulses) := by
  induction inputs generalizing s pulses with
  | nil => exact run
  | cons first rest ih =>
    obtain ⟨here, later⟩ := List.forall_mem_cons.1 onward
    rw [System.pulsesOf, List.append_assoc]
    exact ih (.input first run (here s)) later

theorem Timed.of_eq {config : Config} {pulses pulses' : List Pulse}
    (run : Timed clock config s pulses) (same : pulses = pulses') : Timed clock config s pulses' :=
  same ▸ run

/-- An environment in which the network takes all that it is offered and time stands still between
the waits; `time` is in milliseconds. -/
structure Calm where
  time : Nat

namespace Calm

instance : Environment Calm where
  now o := (.ofNat o.time, o)
  offer o bs _ := (⟨.accepted bs.length, 0⟩, o)
  react o _ _ := (.finish, o)
  wait o ms := (.ofNat (o.time + ms.toNat), ⟨o.time + ms.toNat⟩)
  spawn o := (true, o)
  nesting := 0

def watch : Clock Calm where
  time := Calm.time
  reads _ := rfl
  onward use := by
    cases use with
    | wait => exact Nat.le_add_right _ _
    | _ => exact Nat.le_refl _

def config (seconds : UInt16) : Config :=
  { host := "broker", clientId := "dev", keepAlive := seconds }

/-- A client just made. -/
def client (seconds : UInt16) : System Calm :=
  ⟨Client.fresh (config seconds), ⟨0⟩, []⟩

/-- A session is opened, and the client reads. -/
def opening : List (Input Calm) :=
  [.call .start, .turn, .dialled (.ok ()), .heard (.ok [0x20, 2]) 0, .heard (.ok [0, 0]) 0, .turn]

/-- In a session with no heartbeat the setting is replaced, and nothing comes to be read. -/
def replacing : System Calm :=
  (client 0).takes (opening ++ [.call (.configure [.keepAlive 60]), .heard (.error .timeout) 0])

/-- In a session with a heartbeat its period goes by, and nothing comes to be read. -/
def keeping : System Calm :=
  ((client 60).takes opening).takes [.outside ⟨60000⟩, .heard (.error .timeout) 0]

theorem timed_replacing :
    Timed watch (config 0) replacing [.asked 0, .set 60, .opened 0, .announced 0, .dialled] := by
  have made : Timed watch (config 0) (client 0) [] := .created (Calm.mk 0) rfl
  have run : Timed watch (config 0) replacing _ :=
    made.takes _ (by simp [opening, Input.Onward])
  exact run.of_eq (by decide +kernel)

theorem timed_keeping :
    Timed watch (config 60) keeping [.asked 60000, .opened 0, .announced 60, .dialled] := by
  have made : Timed watch (config 60) (client 60) [] := .created (Calm.mk 0) rfl
  have opened := made.takes opening (by simp [opening, Input.Onward])
  have later : watch.time ((client 60).takes opening).outside ≤ 60000 := by decide +kernel
  have run : Timed watch (config 60) keeping _ :=
    (opened.input (.outside (Calm.mk 60000)) later).input (.heard (.error .timeout) 0) trivial
  exact run.of_eq (by decide +kernel)

end Calm

/-- A heartbeat of which the broker was told nothing begins when the setting is replaced, and
one of which it was told goes on as it should. -/
theorem rhythm_replacing :
    (((Rhythm.fresh 0).along [.set 60, .opened 0, .announced 0, .dialled]).Allows (.asked 0) ∧
      ¬ ((Rhythm.fresh 0).along [.set 60, .opened 0, .announced 0, .dialled]).Honours (.asked 0)) ∧
    ((Rhythm.fresh 60).along [.opened 0, .announced 60, .dialled]).Honours (.asked 60000) := by
  have replaced := Calm.timed_replacing.rhythm (List.suffix_refl _)
  have kept := Calm.timed_keeping.rhythm (List.suffix_refl _)
  refine ⟨⟨replaced.1, ?_⟩, kept.2 rfl⟩
  rintro ⟨seconds, b, announced, some, -⟩
  cases announced
  exact some rfl

end Mqtt
