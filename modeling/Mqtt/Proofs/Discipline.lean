import Mqtt.Proofs.Lines

/-!
# Transports and sessions of a client

Wherever the thread of a client waits, its log reads as it should and ends where the place
of the thread says (`System.Settled`).  Each action of the thread goes from one such place to
the next, so the readings of the log of a reachable client never fail: that is the
discipline of its transports (`Reachable.transports`) and of what it tells of its sessions
(`Reachable.sessions`).
-/

namespace Mqtt

/-- Where transport and attempts stand while the thread is at a place, in a phase. -/
inductive Place.Fits : Place → Phase → Line → Bond → Prop
  | unstarted : Fits .unstarted .init .shut .apart
  /-- Between two things to do, with no session. -/
  | between {phase : Phase} : phase ≠ .connected → phase ≠ .init → Fits .running phase .shut .apart
  /-- Between two things to do, in a session. -/
  | within : Fits .running .connected .standing .bound
  | connecting (config : Config) {phase : Phase} : phase ≠ .connected → phase ≠ .init →
    Fits (.connecting config) phase .shut .trying
  | greeting (reader : Frame.Reader) {phase : Phase} (connect : Bytes) : phase ≠ .connected →
    phase ≠ .init → Fits (.greeting reader) phase (.greeting connect) .trying
  | listening (reader : Frame.Reader) : Fits (.listening reader) .connected .standing .bound
  | idle (interval : Option UInt32) : Fits (.idle interval) .disconnected .shut .apart
  | exited {bond : Bond} : bond ≠ .trying → Fits .exited .disconnected .shut bond

theorem Place.Fits.alike {p q : Place} {phase : Phase} {line : Line} {bond : Bond}
    (h : p.Fits phase line bond) (alike : p.Alike q) : q.Fits phase line bond := by
  cases alike with
  | same => exact h
  | greeting reader reader' =>
    cases h with
    | greeting _ connect apart begun => exact .greeting reader' connect apart begun
  | listening reader reader' =>
    cases h with
    | listening => exact .listening reader'

variable {σ : Type} {s s' : System σ} {line : Line} {bond : Bond}

/-- Whether a client stands where the place of its thread says. -/
def System.Settled (s : System σ) : Prop :=
  ∃ line bond, At s line bond ∧ s.client.place.Fits s.client.phase line bond

/-- Whether a session stands, or none does and nothing is under way. -/
def System.Rests (s : System σ) : Prop :=
  s.client.phase = .connected ∧ At s .standing .bound ∨
    s.client.phase ≠ .connected ∧ At s .shut .apart

theorem System.Rests.settled (h : s.Rests) (busy : s.Busy) : s.Settled := by
  unfold Settled
  rw [busy.1]
  rcases h with ⟨connected, stands⟩ | ⟨apart, stands⟩
  · exact ⟨_, _, stands, connected ▸ .within⟩
  · exact ⟨_, _, stands, .between apart busy.2⟩

theorem System.Settled.rests (h : s.Settled)
    (here : s.client.place = .running ∨ ∃ interval, s.client.place = .idle interval) :
    s.Rests ∧ s.client.phase ≠ .init := by
  obtain ⟨line, bond, stands, fits⟩ := h
  rcases here with here | ⟨interval, here⟩
  all_goals
    rw [here] at fits
    generalize phase : s.client.phase = phase at fits
    cases fits
  case between apart begun => exact ⟨Or.inr ⟨phase ▸ apart, stands⟩, begun⟩
  case within => exact ⟨Or.inl ⟨phase, stands⟩, Phase.noConfusion⟩
  case idle =>
    exact ⟨Or.inr ⟨by rw [phase]; exact Phase.noConfusion, stands⟩, Phase.noConfusion⟩

/-- While the thread waits between sessions, none stands and no transport is open. -/
theorem System.Settled.idle (h : s.Settled) {interval : Option UInt32}
    (here : s.client.place = .idle interval) :
    s.client.phase = .disconnected ∧ At s .shut .apart := by
  obtain ⟨line, bond, stands, fits⟩ := h
  rw [here] at fits
  generalize phase : s.client.phase = phase at fits
  cases fits
  exact ⟨rfl, stands⟩

/-- While a transport is asked for, an attempt is under way. -/
theorem System.Settled.connecting (h : s.Settled) {config : Config}
    (here : s.client.place = .connecting config) : At s .shut .trying := by
  obtain ⟨line, bond, stands, fits⟩ := h
  rw [here] at fits
  cases fits
  exact stands

/-- While the answer to CONNECT is read, an attempt is under way. -/
theorem System.Settled.greeting (h : s.Settled) {reader : Frame.Reader}
    (here : s.client.place = .greeting reader) : ∃ connect, At s (.greeting connect) .trying := by
  obtain ⟨line, bond, stands, fits⟩ := h
  rw [here] at fits
  cases fits
  exact ⟨_, stands⟩

/-- While a packet of the session is read, the session stands. -/
theorem System.Settled.listening (h : s.Settled) {reader : Frame.Reader}
    (here : s.client.place = .listening reader) : At s .standing .bound := by
  obtain ⟨line, bond, stands, fits⟩ := h
  rw [here] at fits
  generalize s.client.phase = phase at fits
  cases fits
  exact stands

/-- The thread may go where it fits. -/
theorem At.goTo (stands : At s line bond) {place : Place}
    (fits : place.Fits s.client.phase line bond) :
    (s.change fun c => { c with place }).Settled :=
  ⟨_, _, stands.of_eq rfl rfl rfl, fits⟩

theorem At.stopped (stands : At s line bond) :
    At (s.change fun c => { c with place := .running }) line bond :=
  stands.of_eq rfl rfl rfl

/-- The thread obeys a control where it stands. -/
theorem At.obeying (stands : At s line bond) (control : Control) (parked : Bool) :
    At (s.obeying control parked) line bond :=
  (stands.note rfl rfl : At (s.note (.obeyed control)) line bond).of_eq rfl rfl rfl

/-- The client may change where neither transport nor phase nor log do. -/
theorem System.Rests.of_eq (h : s.Rests) (log : s'.log = s.log)
    (linked : s'.client.linked = s.client.linked) (phase : s'.client.phase = s.client.phase) :
    s'.Rests :=
  h.imp (fun ⟨connected, stands⟩ => ⟨phase.trans connected, stands.of_eq log linked phase⟩)
    fun ⟨apart, stands⟩ => ⟨phase ▸ apart, stands.of_eq log linked phase⟩

variable [Environment σ]

theorem At.interlude (h : At s line bond) (interlude : Interlude s s') : At s' line bond :=
  h.lapse interlude.lapse interlude.before.busy.begun

theorem At.revived (h : At s line bond) (p : Inbound) : At (s.revived p) line bond :=
  h.of_eq (by simp) (by simp) (by simp)

/-- After an interlude the client is where it was. -/
theorem Interlude.settled (interlude : Interlude s s') (rests : s.Rests) : s'.Settled := by
  refine System.Rests.settled (rests.imp ?_ ?_) interlude.after.busy
  · exact fun ⟨connected, stands⟩ =>
      ⟨interlude.phase.trans connected, stands.interlude interlude⟩
  · exact fun ⟨apart, stands⟩ =>
      ⟨fun connected => apart (interlude.phase.symm.trans connected), stands.interlude interlude⟩

/-! ## Reasons -/

/-- The reasons for which reading fails. -/
def DisconnectReason.OfReading (reason : DisconnectReason) : Prop :=
  reason = .networkFailure ∨ reason = .protocolError

theorem DisconnectReason.OfReading.ends {reason : DisconnectReason} (h : reason.OfReading) :
    Bond.bound.Ends reason := by
  rcases h with rfl | rfl <;> trivial

namespace Frame.Reader

variable {r : Frame.Reader} {reason : DisconnectReason}

theorem ofReading_of_goOn (failed : r.goOn = .failed reason) : reason.OfReading := by
  unfold goOn at failed
  split at failed <;> cases failed
  exact Or.inl rfl

theorem ofReading_of_fill {header : Packet.Header} {got bs : Bytes} {missing : Nat}
    (failed : r.fill header got missing bs = .failed reason) : reason.OfReading := by
  unfold fill at failed
  split at failed
  · exact ofReading_of_goOn failed
  · cases failed

theorem ofReading_of_parse {got : Bytes} (failed : r.parse got = .failed reason) :
    reason.OfReading := by
  unfold parse at failed
  split at failed
  · cases failed; exact Or.inr rfl
  · split at failed
    · exact ofReading_of_goOn failed
    · cases failed; exact Or.inr rfl
  · split at failed
    · cases failed; exact Or.inr rfl
    · exact ofReading_of_fill failed

theorem ofReading_of_receive {given : Except Transport.Error Bytes} {elapsed : Nat}
    (failed : r.receive given elapsed = .failed reason) : reason.OfReading := by
  unfold receive at failed
  dsimp only at failed
  split at failed
  · cases failed; exact Or.inl rfl
  · exact ofReading_of_parse failed
  · split at failed <;> cases failed
    exact Or.inl rfl
  · exact ofReading_of_parse failed
  · exact ofReading_of_fill failed
  all_goals
    split at failed
    · exact ofReading_of_goOn failed
    · cases failed; exact Or.inl rfl

end Frame.Reader

/-! ## Calls -/

omit [Environment σ] in
/-- Whether a client was not started, or was and its thread did nothing yet. -/
def System.Early (s : System σ) : Prop :=
  At s .shut .apart ∧ (s.client.place = .unstarted ∧ s.client.phase = .init ∨
    s.client.place = .running ∧ s.client.phase = .start)

/-- With no session calls send nothing. -/
theorem CallMove.early (move : CallMove s s') (h : s.Early) : s'.Early := by
  obtain ⟨stands, here⟩ := h
  have apart : s.client.phase ≠ .connected := by
    rcases here with ⟨-, phase⟩ | ⟨-, phase⟩ <;> rw [phase] <;> exact Phase.noConfusion
  cases move with
  | remarked e remark =>
    refine ⟨stands.note ?_ ?_, here⟩
    all_goals cases e <;> first | rfl | exact absurd remark id
  | started => exact ⟨⟨stands.transport, stands.attempt, stands.linked, Phase.noConfusion⟩,
      Or.inr ⟨rfl, rfl⟩⟩
  | undone | discarded =>
    exact ⟨(stands.of_eq rfl rfl rfl : At (s.change _) _ _).note rfl rfl, here⟩
  | released =>
    refine ⟨stands.close.of_eq rfl rfl rfl, ?_⟩
    simpa [Client.release] using here
  | requested _ _ _ connected | refused _ _ connected | sent _ _ _ connected =>
    exact absurd connected apart
  | _ => exact ⟨stands.of_eq rfl rfl rfl, here⟩

omit [Environment σ] in
theorem System.Early.settled (h : s.Early) : s.Settled := by
  obtain ⟨stands, ⟨place, phase⟩ | ⟨place, phase⟩⟩ := h
  · refine ⟨_, _, stands, ?_⟩
    rw [place, phase]
    exact .unstarted
  · refine ⟨_, _, stands, ?_⟩
    rw [place, phase]
    exact .between Phase.noConfusion Phase.noConfusion

theorem Act.call_settled (settled : s.Settled) (c : Call) :
    Ends (call c) s fun _ s' => s'.Settled := by
  obtain ⟨line, bond, stands, fits⟩ := settled
  by_cases unstarted : s.client.place = .unstarted
  · have early : s.Early := by
      rw [unstarted] at fits
      generalize phase : s.client.phase = before at fits
      cases fits
      exact ⟨stands, Or.inl ⟨unstarted, phase⟩⟩
    apply (call_calls c).imp
    intro _ s' calls
    refine System.Early.settled ?_
    induction calls with
    | refl => exact early
    | tail _ move ih => exact move.early ih
  · have begun : s.client.phase ≠ .init := by
      intro init
      rw [init] at fits
      generalize s.client.place = place at fits unstarted
      cases fits <;> contradiction
    have started : s.Begun := ⟨begun, unstarted⟩
    apply (call_lapses c).imp
    intro _ s' lapse
    have still := lapse.still started
    exact ⟨line, bond, stands.lapse lapse started, still.phase ▸ fits.alike still.place⟩

/-! ## Chores -/

omit [Environment σ] in
/-- The answer to CONNECT accepts the session, or refuses it. -/
theorem received_at {connect : Bytes} (stands : At s (.greeting connect) .trying)
    (apart : s.client.phase ≠ .connected) (p : Inbound) :
    ∃ line', At (s.note (.received p)) line' .trying ∧
      ∀ present, Act.greetingStatus p = .ok present → line' = .standing := by
  obtain ⟨line', heard, accepted, opened⟩ : ∃ line',
      (Line.greeting connect).heard? p = some line' ∧
      (∀ present, Act.greetingStatus p = .ok present → line' = .standing) ∧ line' ≠ .shut := by
    cases greeting : Act.greetingStatus p with
    | error e => exact ⟨.refused, by simp [Line.heard?, greeting], nofun, Line.noConfusion⟩
    | ok present =>
      exact ⟨.standing, by simp [Line.heard?, greeting], fun _ _ => rfl, Line.noConfusion⟩
  exact ⟨line', ⟨Line.read?_cons stands.transport heard, Bond.read?_cons stands.attempt rfl,
    ⟨fun _ => opened, fun _ => stands.linked.2 Line.noConfusion⟩,
    fun connected => absurd connected apart⟩, accepted⟩

/-- Where transport and attempts stand when the thread turns to a chore. -/
def Chore.Stands : Chore → System σ → Prop
  | .rests, s => s.Settled
  | .ends reason, s => ∃ bond, At s.close .shut bond ∧ bond.Ends reason
  | .obeys _, s => s.Rests
  | .recalls, s => At s .shut .apart
  | .hails _, s => At s .fresh .trying
  | .greets p, s => ∃ line, At s line .trying ∧
      ∀ present, Act.greetingStatus p = .ok present → line = .standing
  | .opens _, s | .resumes _, s | .welcomes _, s => At s .standing .trying
  | .attends _, s | .tends, s | .beats, s => At s .standing .bound

variable {input : Input σ} {chore next : Chore} {t : System σ}

theorem Starts.stands (starts : Starts s input chore t) (settled : s.Settled) (ordered : Ordered s)
    (sane : s.client.pending.Sane) : chore.Stands t := by
  have within (here : s.client.place = .running) (connected : s.client.phase = .connected) :
      At s .standing .bound :=
    ((settled.rests (Or.inl here)).1.resolve_right fun ⟨apart, _⟩ => apart connected).2
  have between (here : s.client.place = .running) (apart : s.client.phase ≠ .connected) :
      At s .shut .apart :=
    ((settled.rests (Or.inl here)).1.resolve_left fun ⟨connected, _⟩ => apart connected).2
  cases starts with
  | called c => exact Act.call_settled settled c
  | went =>
    obtain ⟨line, bond, stands, fits⟩ := settled
    exact ⟨line, bond, stands.of_eq rfl rfl rfl, fits⟩
  | stray => exact settled
  | turned runnable =>
    exact (settled.rests (Client.isRunnable_cases runnable)).1.of_eq rfl rfl rfl
  | listened here connected => exact (within here connected).goTo (connected ▸ .listening _)
  | deserted here connected unlinked =>
    cases ((within here connected).linked.2 Line.noConfusion).symm.trans unlinked
  | rested here lost =>
    exact (between here (by rw [lost]; exact Phase.noConfusion)).goTo (lost ▸ .idle _)
  | dialled here up =>
    have dialled : At (s.close.note (.dialled s.client.config.host s.client.config.tcpPort
        s.client.config.connectTimeout)) .shut .trying := (between here up).close.note rfl rfl
    refine dialled.goTo (.connecting _ ?_ ?_)
    · simpa using up
    · simpa using ordered.begun (here.trans_ne Place.noConfusion)
  | unopened here => exact ⟨_, (settled.connecting here).stopped.close, trivial⟩
  | opened here =>
    have stands := settled.connecting here
    exact ⟨Line.read?_cons stands.transport rfl, Bond.read?_cons stands.attempt rfl,
      ⟨fun _ => Line.noConfusion, fun _ => rfl⟩,
      fun connected => absurd connected (ordered.connecting _ here)⟩
  | greetedOn here =>
    obtain ⟨line, bond, stands, fits⟩ := settled
    exact ⟨line, bond, stands.of_eq rfl rfl rfl, fits.alike (here ▸ .greeting _ _)⟩
  | readOn here =>
    obtain ⟨line, bond, stands, fits⟩ := settled
    exact ⟨line, bond, stands.of_eq rfl rfl rfl, fits.alike (here ▸ .listening _ _)⟩
  | @greeted reader given elapsed p here =>
    obtain ⟨connect, stands⟩ := settled.greeting here
    obtain ⟨line, heard, accepted⟩ := received_at stands (ordered.greeting reader here).2.1 p
    exact ⟨line, heard.stopped.interlude
      (ordered.readsPacket sane (here.trans_ne Place.noConfusion) p), accepted⟩
  | unanswered here | misread here =>
    obtain ⟨connect, stands⟩ := settled.greeting here
    have ended := stands.stopped.interlude
      (ordered.reads sane (here.trans_ne Place.noConfusion))
    exact ⟨_, ended.close, trivial⟩
  | @attended reader given elapsed p here =>
    have read : At (s.note (.received p)) .standing .bound :=
      (settled.listening here).note rfl rfl
    exact read.stopped.interlude
      (ordered.readsPacket sane (here.trans_ne Place.noConfusion) p)
  | idled here =>
    exact (settled.listening here).stopped.interlude
      (ordered.reads sane (here.trans_ne Place.noConfusion))
  | lost here failed =>
    have ended := (settled.listening here).stopped.interlude
      (ordered.reads sane (here.trans_ne Place.noConfusion))
    exact ⟨_, ended.close, (Frame.Reader.ofReading_of_receive failed).ends⟩
  | woke here => exact (settled.idle here).2.stopped

theorem Goes.stands (goes : Goes chore s next t) (ready : chore.Ready s) (held : chore.Stands s) :
    next.Stands t := by
  cases goes with
  | ended =>
    obtain ⟨bond, closed, ends⟩ := held
    have parted : At s.shut .shut bond := closed.enter rfl Phase.noConfusion
    exact (ready.shut.tells _).settled (Or.inr ⟨Phase.noConfusion, parted.told ends⟩)
  | left =>
    obtain ⟨line, bond, stands, untried⟩ : ∃ line bond, At s line bond ∧ bond ≠ .trying := by
      rcases held with ⟨-, stands⟩ | ⟨-, stands⟩ <;> exact ⟨_, _, stands, Bond.noConfusion⟩
    have noted : At (s.note (.obeyed .destroy)) line bond := stands.note rfl rfl
    have awake := ready.1.noted (.obeyed .destroy)
    have told : At ((s.note (.obeyed .destroy)).announce .destroying) line bond :=
      noted.note rfl rfl
    have closed := (told.interlude (awake.tells _)).close
    exact ⟨.shut, bond, ⟨closed.transport, closed.attempt, closed.linked, fun _ => Or.inl rfl⟩,
      .exited untried⟩
  | quit connected =>
    obtain ⟨-, stands⟩ := held.resolve_right fun ⟨apart, _⟩ => apart connected
    have ends : Bond.bound.Ends .userRequested := trivial
    exact ((stands.obeying _ _).close.told ends).interlude ((ready.1.obeying _ _).close.tells _)
  | freed apart =>
    obtain ⟨-, stands⟩ := held.resolve_left fun ⟨connected, _⟩ => apart connected
    exact (stands.obeying _ _).close
  | recalled =>
    have told : At (s.announce .reconnecting) .shut .apart := At.note held rfl rfl
    have tells := ready.tells .reconnecting
    exact System.Rests.settled
      (Or.inr ⟨Phase.noConfusion, (told.interlude tells).enter rfl Phase.noConfusion⟩)
      ⟨tells.after.busy.1, Phase.noConfusion⟩
  | parted connected =>
    obtain ⟨-, stands⟩ := held.resolve_right fun ⟨apart, _⟩ => apart connected
    exact ⟨_, (stands.obeying _ _).part, trivial⟩
  | dropped connected =>
    obtain ⟨-, stands⟩ := held.resolve_right fun ⟨apart, _⟩ => apart connected
    exact ⟨_, (stands.obeying _ _).close, trivial⟩
  | parked apart =>
    obtain ⟨-, stands⟩ := held.resolve_left fun ⟨connected, _⟩ => apart connected
    exact System.Rests.settled
      (Or.inr ⟨Phase.noConfusion, (stands.obeying _ _).close.enter rfl Phase.noConfusion⟩)
      (ready.1.obeying _ _).shut.busy
  | unwritten => exact ⟨_, At.close held, trivial⟩
  | unsent _ written =>
    rcases At.salute held ready.apart written with ⟨-, stands⟩ | stands
    · exact ⟨_, stands.close, trivial⟩
    · exact ⟨_, stands.close, trivial⟩
  | hailed _ written sent =>
    have greets := (At.salute held ready.apart written).resolve_left
      fun ⟨⟨_, broken⟩, _⟩ => by cases broken.symm.trans sent
    refine greets.goTo (.greeting _ _ ?_ ?_)
    · simpa using ready.apart
    · simpa using ready.busy.2
  | refused =>
    obtain ⟨line, stands, -⟩ := held
    exact ⟨_, stands.close, trivial⟩
  | accepted status =>
    obtain ⟨line, stands, accepted⟩ := held
    rw [accepted _ status] at stands
    exact stands
  | opened =>
    have begun : At s.opening .standing .trying :=
      ⟨held.transport, held.attempt, held.linked, fun _ => Or.inr rfl⟩
    exact begun.interlude ready.toAwake.opening.migrates
  | failed looked | cut looked => exact ⟨_, (At.interlude held (ready.scans looked)).close, trivial⟩
  | resumed looked | tended looked => exact At.interlude held (ready.scans looked)
  | kept =>
    exact (ready.toAwake.tells _).settled (Or.inl ⟨ready.connected, At.note held rfl rfl⟩)
  | renewed =>
    have told := ready.toAwake.tells (.connected false)
    exact (told.trans told.after.renews).settled
      (Or.inl ⟨ready.connected, At.note held rfl rfl⟩)
  | acted dispatched => exact (At.revived held _).interlude (ready.dispatches dispatched)
  | broke dispatched =>
    exact ⟨_, ((At.revived held _).interlude (ready.dispatches dispatched)).close, trivial⟩
  | unpaced => exact System.Rests.settled (Or.inl ⟨ready.connected, held⟩) ready.busy
  | quiet =>
    exact System.Rests.settled (Or.inl ⟨ready.connected, At.of_eq held rfl rfl rfl⟩)
      ready.polled.busy
  | pinged =>
    have polled : At s.polled .standing .bound := At.of_eq held rfl rfl rfl
    have serving := ready.polled.afterSend Packet.pingReq
    exact System.Rests.settled (Or.inl ⟨serving.connected, polled.ping⟩) serving.busy
  | unpinged =>
    have polled : At s.polled .standing .bound := At.of_eq held rfl rfl rfl
    exact ⟨_, polled.ping.close, trivial⟩
  | dead =>
    have polled : At s.polled .standing .bound := At.of_eq held rfl rfl rfl
    exact ⟨_, polled.close, trivial⟩

/-! ## Every run -/

theorem Reachable.settled (h : Reachable s) : s.Settled := by
  induction h with
  | created outside made =>
    obtain ⟨-, rfl⟩ := create_eq_ok made
    exact ⟨.shut, .apart, ⟨rfl, rfl, ⟨Bool.noConfusion, fun differ => absurd rfl differ⟩,
      Phase.noConfusion⟩, .unstarted⟩
  | @input s input reachable settled =>
    obtain ⟨ordered, sane⟩ := reachable.good
    obtain ⟨chore, t, starts, route⟩ := s.take_route input
    exact route.hold (I := Chore.Stands) Goes.stands (starts.ready ordered sane)
      (starts.stands settled ordered sane)

/-- Whether the thread waits for something other than the broker. -/
def Place.IsAway : Place → Prop
  | .unstarted | .connecting _ | .idle _ | .exited => True
  | _ => False

/-- **Transports.**  In every run transports are opened one at a time, and what passes over
each of them is in order: CONNECT alone at first, other packets once the session was
accepted, and nothing after DISCONNECT.  The line that is open at the end is the one that
the client holds, and there is none while a transport is being opened, while the thread
waits with no session and when it has ended. -/
theorem Reachable.transports (h : Reachable s) :
    ∃ line, Line.read? s.log = some line ∧ (s.client.linked = true ↔ line ≠ .shut) ∧
      (s.client.place.IsAway → line = .shut) := by
  obtain ⟨line, bond, stands, fits⟩ := h.settled
  refine ⟨line, stands.transport, stands.linked, fun away => ?_⟩
  generalize s.client.place = place at fits away
  generalize s.client.phase = phase at fits
  cases fits <;> first
    | rfl
    | cases away

/-- A client that sends a message in its session, is told to end the session and does, and
then waits. -/
def endedByCall : System Script :=
  inSession.takes
    [.call (.publish "a/b" [1] .atMostOnce false), .call (.disconnect true),
      .heard (.error .timeout) 0, .turn, .turn]

theorem endedByCall_reachable : Reachable endedByCall :=
  inSession_reachable.takes _

theorem transports_endedByCall :
    Line.read? endedByCall.log = some .shut ∧ (endedByCall.log.filterMap fun e =>
      match e with | .sent a => Packet.kind? a.whole | _ => none) =
        [.disconnect, .publish, .connect] := by
  have here : endedByCall.client.place = .idle none := by decide +kernel
  obtain ⟨line, read, -, away⟩ := endedByCall_reachable.transports
  rw [here] at away
  exact ⟨away trivial ▸ read, by decide +kernel⟩

/-- **Sessions.**  In every run each attempt to connect is told of once, as a session or as
the lack of one, and the end of each session is told once before the next attempt, never as
a failure to connect; nothing else is told as an end.  An attempt is under way just while
the thread waits for it, and a session is told of just while it stands, or when the thread
ended during it. -/
theorem Reachable.sessions (h : Reachable s) :
    ∃ bond, Bond.read? s.log = some bond ∧
      (bond = .trying ↔ (∃ config, s.client.place = .connecting config) ∨
        ∃ reader, s.client.place = .greeting reader) ∧
      (s.client.place ≠ .exited → (bond = .bound ↔ s.client.phase = .connected)) := by
  obtain ⟨line, bond, stands, fits⟩ := h.settled
  refine ⟨bond, stands.attempt, ?_, fun here => ?_⟩
  · generalize s.client.place = place at fits
    generalize s.client.phase = phase at fits
    cases fits <;> simp [*]
  · generalize s.client.place = place at fits here
    generalize s.client.phase = phase at fits
    cases fits <;> simp_all

theorem sessions_endedByCall :
    Bond.read? endedByCall.log = some .apart ∧ (endedByCall.log.filterMap fun e =>
      match e with | .raised event _ _ => some event | _ => none) =
        [.disconnected .userRequested, .connected false] := by
  have here : endedByCall.client.place = .idle none := by decide +kernel
  have phase : endedByCall.client.phase = .disconnected := by decide +kernel
  obtain ⟨bond, read, trying, bound⟩ := endedByCall_reachable.sessions
  rw [here] at trying bound
  rw [phase] at bound
  refine ⟨?_, by decide +kernel⟩
  cases bond with
  | apart => exact read
  | trying => simp at trying
  | bound => simp at bound

end Mqtt
