import Mqtt.Proofs.Moves

/-!
# The chores of the thread

An input has the thread do one thing after the other until it waits again.  What it has still to
do is its chore.  `Starts` says what an input leaves to be done, `Goes` is one way from a chore to
the next, and a `Route` is all that is done until the thread waits.  Here the functions of the
thread are followed, each once (`System.take_route`); what every input keeps is shown of the ways
that `Starts` and `Goes` list.
-/

namespace Mqtt

/-! ## Inputs -/

/-- What comes to a client from outside. -/
inductive Input (σ : Type) where
  | call (c : Call)
  | turn
  /-- The transport was opened, or could not be. -/
  | dialled (result : Except Transport.Error Unit)
  /-- The transport gave octets, or failed, after so many milliseconds. -/
  | heard (given : Except Transport.Error Bytes) (elapsed : Nat)
  | intervalPassed
  /-- What is outside went on. -/
  | outside (outside : σ)

variable {σ : Type}

/-- Whether an input is for the thread, and the thread does not wait for it. -/
def Input.Stray (c : Client) : Input σ → Prop
  | .turn => c.isRunnable = false
  | .dialled _ => ∀ config, c.place ≠ .connecting config
  | .heard .. => (∀ reader, c.place ≠ .greeting reader) ∧ ∀ reader, c.place ≠ .listening reader
  | .intervalPassed => ∀ interval, c.place ≠ .idle (some interval)
  | .call _ | .outside _ => False

/-- The thread takes its turn between two things to do, or out of its rest. -/
theorem Client.isRunnable_cases {c : Client} (runnable : c.isRunnable = true) :
    c.place = .running ∨ ∃ interval, c.place = .idle interval := by
  unfold isRunnable at runnable
  split at runnable
  next here => exact Or.inl here
  next interval here => exact Or.inr ⟨interval, here⟩
  · cases runnable

/-- Out of its rest the thread takes its turn for a control only. -/
theorem Client.running_of_pop? {c : Client} (runnable : c.isRunnable = true)
    (none : c.controls.pop? = none) : c.place = .running := by
  unfold isRunnable at runnable
  split at runnable
  next here => exact here
  · rw [Queue.isEmpty_iff.2 (Queue.pop?_eq_none_iff.1 none)] at runnable
    cases runnable
  · cases runnable

/-! ## Where the thread stands -/

/-- A reader of a packet that may take `timeout` milliseconds to begin. -/
def Client.newReader (c : Client) (timeout : UInt32) : Frame.Reader :=
  .start c.config.maxPacketSize c.config.commandTimeout.toNat timeout.toNat

/-- The interval after which the thread connects again without being asked to. -/
def Client.interval? (c : Client) : Option UInt32 :=
  if c.parked || !c.config.autoReconnect then none else some c.config.reconnectInterval

theorem Client.of_interval?_eq_some {c : Client} {interval : UInt32}
    (waits : c.interval? = some interval) : c.parked = false ∧ c.config.autoReconnect = true := by
  unfold interval? at waits
  split at waits
  · cases waits
  next may => simpa using may

namespace System

/-- The system with its transport closed and its session left. -/
def shut (s : System σ) : System σ :=
  s.close.change fun c => { c with phase := .disconnected }

/-- The system as the thread does what it was asked to, and waits for the application to connect
again or not. -/
def obeying (s : System σ) (control : Control) (parked : Bool) : System σ :=
  (s.note (.obeyed control)).change fun c => { c with parked }

/-- The system once a transport was opened. -/
def opened (s : System σ) : System σ :=
  (s.change fun c => { c with place := .running, linked := true }).note .opened

/-- The system as a transport is asked for. -/
def dialling (s : System σ) : System σ :=
  (s.close.note (.dialled s.client.config.host s.client.config.tcpPort
    s.client.config.connectTimeout)).change fun c => { c with place := .connecting s.client.config }

variable [Environment σ]

/-- The system after an input. -/
def take (s : System σ) : Input σ → System σ
  | .call c => ((Act.call c).run s).2
  | .turn => (Act.turn.run s).2
  | .dialled result => ((Act.dialAnswered result).run s).2
  | .heard given elapsed => ((Act.heard given elapsed).run s).2
  | .intervalPassed => (Act.intervalPassed.run s).2
  | .outside outside => s.shift outside

/-- The system after some inputs. -/
def takes (s : System σ) (inputs : List (Input σ)) : System σ :=
  inputs.foldl take s

/-- The system once the application was told of an event. -/
def told (s : System σ) (event : Event) : System σ :=
  ((Act.tell event).run s).2

/-- The system once reading has ended. -/
def unread (s : System σ) : System σ :=
  (Act.readEnded.run s).2

/-- The system as the thread turns to a packet of the session that it read. -/
def reading (s : System σ) (p : Inbound) : System σ :=
  (Act.readEnded.run (s.note (.received p))).2

/-- The system once the thread takes a session for open. -/
def opening (s : System σ) : System σ :=
  let (opened, outside) := Environment.now s.outside
  (s.shift outside).change fun c =>
    { c with
      keepAlive := .fresh opened (s.client.config.keepAlive.toUInt32 * 1000)
      phase := .connected }

/-- What the heartbeat asks for. -/
def beat (s : System σ) : KeepAlive.Beat :=
  (s.client.keepAlive.poll (Environment.now s.outside).1).1

/-- The system once the heartbeat was looked at. -/
def polled (s : System σ) : System σ :=
  (s.shift (Environment.now s.outside).2).change fun c =>
    { c with keepAlive := (c.keepAlive.poll (Environment.now s.outside).1).2 }

end System

/-! ## Chores -/

/-- What the thread has still to do before it waits. -/
inductive Chore where
  | rests
  /-- Close the transport and tell why no session stands. -/
  | ends (reason : DisconnectReason)
  | obeys (control : Control)
  /-- Tell that it connects again. -/
  | recalls
  /-- Send CONNECT over the transport just opened. -/
  | hails (config : Config)
  /-- Act on the first packet of the broker. -/
  | greets (p : Inbound)
  | opens (sessionPresent : Bool)
  /-- Send what is pending from earlier sessions. -/
  | resumes (sessionPresent : Bool)
  /-- Tell that a session stands. -/
  | welcomes (sessionPresent : Bool)
  /-- Act on a packet of the session. -/
  | attends (p : Inbound)
  /-- Look after what is due. -/
  | tends
  /-- Keep the session alive. -/
  | beats

variable [Environment σ]

/-- The ways from a chore to the next. -/
inductive Goes : Chore → System σ → Chore → System σ → Prop
  | ended (s : System σ) (reason : DisconnectReason) :
    Goes (.ends reason) s .rests (s.shut.told (.disconnected reason))
  /-- The thread ends, and nothing of the client is left. -/
  | left (s : System σ) :
    Goes (.obeys .destroy) s .rests
      (((s.note (.obeyed .destroy)).told .destroying).close.change
        fun c => { c.release with phase := .disconnected, place := .exited })
  /-- A session is given up for another. -/
  | quit {s : System σ} : s.client.phase = .connected →
    Goes (.obeys .reconnect) s .recalls
      ((s.obeying .reconnect false).close.told (.disconnected .userRequested))
  | freed {s : System σ} : s.client.phase ≠ .connected →
    Goes (.obeys .reconnect) s .recalls (s.obeying .reconnect false).close
  | recalled (s : System σ) :
    Goes .recalls s .rests
      ((s.told .reconnecting).change fun c => { c with phase := .reconnecting })
  /-- A session ends, and the broker hears of it. -/
  | parted {s : System σ} : s.client.phase = .connected →
    Goes (.obeys (.disconnect true)) s (.ends .userRequested)
      ((s.obeying (.disconnect true) true).afterSend Packet.disconnect)
  | dropped {s : System σ} : s.client.phase = .connected →
    Goes (.obeys (.disconnect false)) s (.ends .userRequested) (s.obeying (.disconnect false) true)
  | parked {s : System σ} {notify : Bool} : s.client.phase ≠ .connected →
    Goes (.obeys (.disconnect notify)) s .rests (s.obeying (.disconnect notify) true).shut
  /-- CONNECT cannot be written. -/
  | unwritten {s : System σ} {config : Config} :
    s.client.linked = false ∨
      (∃ e, Packet.encode (Act.connectPacket config s.client.will).put = .error e) →
    Goes (.hails config) s (.ends (.connectFailed .sendFailed)) s
  | unsent {s : System σ} {config : Config} {packet : Bytes} {e : Error} :
    s.client.linked = true →
    Packet.encode (Act.connectPacket config s.client.will).put = .ok packet →
    s.sendResult packet = .error e →
    Goes (.hails config) s (.ends (.connectFailed .sendFailed)) (s.afterSend packet)
  | hailed {s : System σ} {config : Config} {packet : Bytes} : s.client.linked = true →
    Packet.encode (Act.connectPacket config s.client.will).put = .ok packet →
    s.sendResult packet = .ok () →
    Goes (.hails config) s .rests
      ((s.afterSend packet).change
        fun c => { c with place := .greeting (c.newReader config.connectTimeout) })
  | refused {s : System σ} {p : Inbound} {status : ConnectStatus} :
    Act.greetingStatus p = .error status →
    Goes (.greets p) s (.ends (.connectFailed status)) s
  | accepted {s : System σ} {p : Inbound} {sessionPresent : Bool} :
    Act.greetingStatus p = .ok sessionPresent → Goes (.greets p) s (.opens sessionPresent) s
  | opened (s : System σ) (sessionPresent : Bool) :
    Goes (.opens sessionPresent) s (.resumes sessionPresent) (Act.migrate.run s.opening).2
  /-- What was pending could not be sent. -/
  | failed {s t : System σ} {sessionPresent : Bool} {e : Error} :
    (Act.scan true).run s = (some e, t) →
    Goes (.resumes sessionPresent) s (.ends .networkFailure) t
  | resumed {s t : System σ} {sessionPresent : Bool} : (Act.scan true).run s = (none, t) →
    Goes (.resumes sessionPresent) s (.welcomes sessionPresent) t
  | kept (s : System σ) : Goes (.welcomes true) s .rests (s.told (.connected true))
  /-- The broker has forgotten what was granted. -/
  | renewed (s : System σ) :
    Goes (.welcomes false) s .rests (Act.resubscribe.run (s.told (.connected false))).2
  | acted {s t : System σ} {p : Inbound} {result : Except Error Unit} :
    (Act.dispatch p).run.run s = (result, t) → ¬ LosesSession result → Goes (.attends p) s .tends t
  /-- The answer to a packet could not be sent. -/
  | broke {s t : System σ} {p : Inbound} {result : Except Error Unit} :
    (Act.dispatch p).run.run s = (result, t) → LosesSession result →
    Goes (.attends p) s (.ends .networkFailure) t
  /-- What is due could not be sent. -/
  | cut {s t : System σ} {e : Error} : (Act.scan false).run s = (some e, t) →
    Goes .tends s (.ends .networkFailure) t
  | tended {s t : System σ} : (Act.scan false).run s = (none, t) → Goes .tends s .beats t
  /-- There is no heartbeat. -/
  | unpaced {s : System σ} : s.client.config.keepAlive = 0 → Goes .beats s .rests s
  | quiet {s : System σ} : s.client.config.keepAlive ≠ 0 → s.beat = .quiet →
    Goes .beats s .rests s.polled
  | pinged {s : System σ} : s.client.config.keepAlive ≠ 0 → s.beat = .ping →
    ¬ LosesSession (s.polled.sendResult Packet.pingReq) →
    Goes .beats s .rests (s.polled.afterSend Packet.pingReq)
  | unpinged {s : System σ} : s.client.config.keepAlive ≠ 0 → s.beat = .ping →
    LosesSession (s.polled.sendResult Packet.pingReq) →
    Goes .beats s (.ends .networkFailure) (s.polled.afterSend Packet.pingReq)
  | dead {s : System σ} : s.client.config.keepAlive ≠ 0 → s.beat = .dead →
    Goes .beats s (.ends .keepAliveTimeout) s.polled

/-- What an input leaves to be done. -/
inductive Starts (s : System σ) : Input σ → Chore → System σ → Prop
  | called (c : Call) : Starts s (.call c) .rests ((Act.call c).run s).2
  | went (outside : σ) : Starts s (.outside outside) .rests (s.shift outside)
  | stray {input : Input σ} : input.Stray s.client → Starts s input .rests s
  | turned {control : Control} {controls : Queue Control} : s.client.isRunnable = true →
    s.client.controls.pop? = some (control, controls) →
    Starts s .turn (.obeys control) (s.change fun c => { c with controls, place := .running })
  | listened : s.client.place = .running → s.client.phase = .connected → s.client.linked = true →
    s.client.controls.pop? = none →
    Starts s .turn .rests
      (s.change fun c => { c with place := .listening (c.newReader c.config.readTimeout) })
  /-- A session without a transport is lost. -/
  | deserted : s.client.place = .running → s.client.phase = .connected → s.client.linked = false →
    s.client.controls.pop? = none → Starts s .turn (.ends .networkFailure) s
  | rested {interval : Option UInt32} : s.client.place = .running →
    s.client.phase = .disconnected → s.client.interval? = interval →
    s.client.controls.pop? = none →
    Starts s .turn .rests (s.change fun c => { c with place := .idle interval })
  | dialled : s.client.place = .running → s.client.phase ≠ .connected →
    s.client.phase ≠ .disconnected → s.client.controls.pop? = none →
    Starts s .turn .rests s.dialling
  | unopened {config : Config} {e : Transport.Error} : s.client.place = .connecting config →
    Starts s (.dialled (.error e)) (.ends (.connectFailed .networkError))
      (s.change fun c => { c with place := .running })
  | opened {config : Config} : s.client.place = .connecting config →
    Starts s (.dialled (.ok ())) (.hails config) s.opened
  | greetedOn {reader reader' : Frame.Reader} {given : Except Transport.Error Bytes}
    {elapsed : Nat} : s.client.place = .greeting reader →
    reader.receive given elapsed = .more reader' →
    Starts s (.heard given elapsed) .rests (s.change fun c => { c with place := .greeting reader' })
  | greeted {reader : Frame.Reader} {given : Except Transport.Error Bytes} {elapsed : Nat}
    {p : Inbound} : s.client.place = .greeting reader →
    reader.receive given elapsed = .packet p →
    Starts s (.heard given elapsed) (.greets p) (s.reading p)
  | unanswered {reader : Frame.Reader} {given : Except Transport.Error Bytes} {elapsed : Nat} :
    s.client.place = .greeting reader → reader.receive given elapsed = .nothing →
    Starts s (.heard given elapsed) (.ends (.connectFailed .timeout)) s.unread
  | misread {reader : Frame.Reader} {given : Except Transport.Error Bytes} {elapsed : Nat}
    {reason : DisconnectReason} : s.client.place = .greeting reader →
    reader.receive given elapsed = .failed reason →
    Starts s (.heard given elapsed)
      (.ends (.connectFailed (if reason = .protocolError then .protocolError else .networkError)))
      s.unread
  | readOn {reader reader' : Frame.Reader} {given : Except Transport.Error Bytes}
    {elapsed : Nat} : s.client.place = .listening reader →
    reader.receive given elapsed = .more reader' →
    Starts s (.heard given elapsed) .rests
      (s.change fun c => { c with place := .listening reader' })
  | attended {reader : Frame.Reader} {given : Except Transport.Error Bytes} {elapsed : Nat}
    {p : Inbound} : s.client.place = .listening reader →
    reader.receive given elapsed = .packet p →
    Starts s (.heard given elapsed) (.attends p) (s.reading p)
  | idled {reader : Frame.Reader} {given : Except Transport.Error Bytes} {elapsed : Nat} :
    s.client.place = .listening reader → reader.receive given elapsed = .nothing →
    Starts s (.heard given elapsed) .tends s.unread
  | lost {reader : Frame.Reader} {given : Except Transport.Error Bytes} {elapsed : Nat}
    {reason : DisconnectReason} : s.client.place = .listening reader →
    reader.receive given elapsed = .failed reason →
    Starts s (.heard given elapsed) (.ends reason) s.unread
  | woke {interval : UInt32} : s.client.place = .idle (some interval) →
    Starts s .intervalPassed .recalls (s.change fun c => { c with place := .running })

/-- All that is done, from a chore on, until the thread waits. -/
inductive Route : Chore → System σ → System σ → Prop
  | done (s : System σ) : Route .rests s s
  | step {chore next : Chore} {s t s' : System σ} : Goes chore s next t → Route next t s' →
    Route chore s s'

variable {s s' t : System σ} {chore next : Chore}

theorem Goes.last (goes : Goes chore s .rests s') : Route chore s s' :=
  .step goes (.done s')

/-- The thread that rests does nothing. -/
theorem Route.eq_of_rests (route : Route .rests s s') : s' = s := by
  cases route with
  | done => rfl
  | step goes => cases goes

/-- What every way keeps. -/
theorem Route.keep {I : Chore → System σ → Prop} (route : Route chore s s')
    (goes : ∀ {chore next : Chore} {s t : System σ}, Goes chore s next t → I chore s → I next t)
    (start : I chore s) : I .rests s' := by
  induction route with
  | done => exact start
  | step way _ ih => exact ih (goes way start)

namespace Act

/-! ## The functions of the thread -/

omit [Environment σ] in
/-- What holds however an action runs. -/
theorem ends_of_run {α : Type} {action : Act σ α} {Q : α → System σ → Prop}
    (h : ∀ a t, action.run s = (a, t) → Q a t) : action.Ends s Q :=
  h _ _ rfl

omit [Environment σ] in
theorem ends_unit {action : Act σ Unit} {Q : Unit → System σ → Prop} :
    Ends action s Q ↔ Q () (action.run s).2 :=
  Iff.rfl

omit [Environment σ] in
theorem Ends.at_run {α : Type} {action : Act σ α} {Q : α → System σ → Prop} {a : α}
    (h : action.Ends s Q) (run : action.run s = (a, t)) : Q a t := by
  unfold Ends at h
  rw [run] at h
  exact h

theorem lose_route (reason : DisconnectReason) :
    Ends (lose reason) s fun _ s' => Route (.ends reason) s s' := by
  unfold lose
  rw [ends_bind, ends_close, ends_bind, ends_enter]
  exact (Goes.ended s reason).last

theorem failConnect_route (status : ConnectStatus) :
    Ends (failConnect status) s fun _ s' => Route (.ends (.connectFailed status)) s s' :=
  lose_route (.connectFailed status)

theorem beat_route : Ends beat s fun _ s' => Route .beats s s' := by
  unfold beat
  rw [ends_bind, ends_client]
  split
  next on =>
    rw [ends_bind, ends_now, ends_bind, ends_draw]
    split
    next quiet => exact (Goes.quiet on quiet).last
    next ping =>
      generalize looked : System.change (s.shift (Environment.now s.outside).2) _ = t
      obtain rfl : t = s.polled := looked.symm
      rw [ends_bind, try_transmit]
      have sent (mild : ¬ LosesSession (s.polled.sendResult Packet.pingReq)) :
          Route .beats s (s.polled.afterSend Packet.pingReq) := (Goes.pinged on ping mild).last
      have broke := Goes.unpinged on ping
      cases result : s.polled.sendResult Packet.pingReq with
      | ok u => exact sent (by rw [result]; exact id)
      | error e =>
        rw [result] at sent broke
        dsimp only
        split
        next fatal => exact (lose_route _).imp fun _ _ => .step (broke fatal)
        next mild => exact sent mild
    next dead => exact (lose_route _).imp fun _ _ => .step (.dead on dead)
  next off => exact (Goes.unpaced (not_not.1 off)).last

theorem tend_route : Ends tend s fun _ s' => Route .tends s s' := by
  unfold tend
  rw [ends_bind]
  refine ends_of_run fun failure t looked => ?_
  cases failure with
  | some e => exact (lose_route _).imp fun _ _ => .step (.cut looked)
  | none => exact beat_route.imp fun _ _ => .step (.tended looked)

theorem attend_route (p : Inbound) : Ends (attend p) s fun _ s' => Route (.attends p) s s' := by
  unfold attend
  rw [ends_bind]
  refine ends_of_run fun result t dispatched => ?_
  have goesOn (mild : ¬ LosesSession result) : Ends tend t fun _ s' => Route (.attends p) s s' :=
    tend_route.imp fun _ _ => .step (.acted dispatched mild)
  cases result with
  | ok u => exact goesOn id
  | error e =>
    dsimp only
    split
    next fatal => exact (lose_route _).imp fun _ _ => .step (.broke dispatched fatal)
    next mild => exact goesOn mild

theorem openSession_route (sessionPresent : Bool) :
    Ends (openSession sessionPresent) s fun _ s' => Route (.opens sessionPresent) s s' := by
  unfold openSession
  rw [ends_bind, ends_client, ends_bind, ends_now, ends_bind, ends_update, ends_bind, ends_unit]
  have opened : Goes (.opens sessionPresent) s (.resumes sessionPresent)
      (migrate.run s.opening).2 := .opened s sessionPresent
  change Ends _ (migrate.run s.opening).2 _
  generalize (migrate.run s.opening).2 = s₁ at opened
  rw [ends_bind]
  refine ends_of_run fun failure t looked => ?_
  cases failure with
  | some e => exact (lose_route _).imp fun _ _ route => .step opened (.step (.failed looked) route)
  | none =>
    have welcomes {s' : System σ} (goes : Goes (.welcomes sessionPresent) t .rests s') :
        Route (.opens sessionPresent) s s' := .step opened (.step (.resumed looked) goes.last)
    cases sessionPresent with
    | false => exact welcomes (.renewed t)
    | true => exact welcomes (.kept t)

theorem greeted_route (p : Inbound) : Ends (greeted p) s fun _ s' => Route (.greets p) s s' := by
  unfold greeted
  cases greeting : greetingStatus p with
  | error status => exact (failConnect_route status).imp fun _ _ => .step (.refused greeting)
  | ok sessionPresent =>
    exact (openSession_route sessionPresent).imp fun _ _ => .step (.accepted greeting)

theorem shutDown_route :
    Ends shutDown (s.note (.obeyed .destroy)) fun _ s' => Route (.obeys .destroy) s s' := by
  unfold shutDown
  rw [ends_bind, ends_unit, ends_bind, ends_release, ends_bind, ends_enter, ends_goTo]
  exact (Goes.left s).last

theorem obey_route (control : Control) :
    Ends (obey control) s fun _ s' => Route (.obeys control) s s' := by
  unfold obey
  rw [ends_bind, ends_note]
  cases control with
  | destroy => exact shutDown_route
  | reconnect =>
    rw [ends_bind, ends_update, ends_bind, ends_client, ends_bind, ends_close]
    have recalls {t : System σ} (goes : Goes (.obeys .reconnect) s .recalls t) :
        Ends (do tell .reconnecting; enter .reconnecting) t
          fun _ s' => Route (.obeys .reconnect) s s' :=
      .step goes (Goes.recalled t).last
    split
    next connected => exact recalls (.quit (beq_iff_eq.1 connected))
    next apart => exact recalls (.freed (mt beq_iff_eq.2 apart))
  | disconnect notify =>
    rw [ends_bind, ends_update, ends_bind, ends_client]
    have ends {t : System σ}
        (goes : Goes (.obeys (.disconnect notify)) s (.ends .userRequested) t) :
        Ends (do close; enter .disconnected; tell (.disconnected .userRequested)) t
          fun _ s' => Route (.obeys (.disconnect notify)) s s' :=
      (lose_route .userRequested).imp fun _ _ => .step goes
    split
    next connected =>
      cases notify with
      | true =>
        rw [if_pos rfl, ends_bind, try_transmit]
        exact ends (.parted connected)
      | false => exact ends (.dropped connected)
    next apart =>
      rw [ends_bind, ends_close, ends_enter]
      exact (Goes.parked (s := s) apart).last

/-- CONNECT is sent over a transport just opened, if it can be written. -/
theorem salute_route (config : Config) :
    Ends (do
      match ← (transmitPacket (connectPacket config s.client.will).put).run with
      | .error _ => failConnect .sendFailed
      | .ok () => goTo (.greeting (← startReader config.connectTimeout))) s
        fun _ s' => Route (.hails config) s s' := by
  have fails {t : System σ} (goes : Goes (.hails config) s (.ends (.connectFailed .sendFailed)) t) :
      Ends (failConnect .sendFailed) t fun _ s' => Route (.hails config) s s' :=
    (failConnect_route .sendFailed).imp fun _ _ => .step goes
  rw [ends_bind, try_transmitPacket]
  split
  next linked =>
    cases written : Packet.encode (connectPacket config s.client.will).put with
    | error e => exact fails (.unwritten (Or.inr ⟨e, written⟩))
    | ok packet =>
      dsimp only
      cases result : s.sendResult packet with
      | error e => exact fails (.unsent linked written result)
      | ok u =>
        unfold startReader
        rw [ends_bind, ends_bind, ends_client, ends_pure, ends_goTo]
        exact (Goes.hailed linked written result).last
  next unlinked => exact fails (.unwritten (Or.inl (Bool.eq_false_iff.2 unlinked)))

end Act

/-! ## Inputs and what they lead to -/

/-- What an input leaves to be done, and all of it done. -/
def System.Follows (s : System σ) (input : Input σ) (s' : System σ) : Prop :=
  ∃ chore t, Starts s input chore t ∧ Route chore t s'

namespace Act

theorem turn_follows : Ends turn s fun _ s' => s.Follows .turn s' := by
  unfold turn
  rw [ends_bind, ends_client]
  split
  next runnable =>
    split
    next control controls popped =>
      rw [ends_bind, ends_update]
      exact (obey_route control).imp fun _ _ route => ⟨_, _, .turned runnable popped, route⟩
    next none connected =>
      have running := Client.running_of_pop? runnable none
      unfold listen
      rw [ends_bind, ends_client]
      split
      next linked =>
        unfold startReader
        rw [ends_bind, ends_client, ends_bind, ends_bind, ends_client, ends_pure, ends_goTo]
        exact ⟨_, _, .listened running connected linked none, .done _⟩
      next unlinked =>
        exact (lose_route _).imp fun _ _ route =>
          ⟨_, _, .deserted running connected (Bool.eq_false_iff.2 unlinked) none, route⟩
    next none lost =>
      have running := Client.running_of_pop? runnable none
      unfold rest
      rw [ends_bind, ends_client]
      split
      next waits => exact ⟨_, _, .rested running lost (if_pos waits) none, .done _⟩
      next returns => exact ⟨_, _, .rested running lost (if_neg returns) none, .done _⟩
    next none up down =>
      unfold dial
      rw [ends_bind, ends_client, ends_bind, ends_close, ends_bind, ends_note, ends_goTo]
      exact ⟨_, _, .dialled (Client.running_of_pop? runnable none) up down none, .done _⟩
  next idle => exact ⟨_, _, .stray (Bool.eq_false_iff.2 idle), .done s⟩

theorem dialAnswered_follows (result : Except Transport.Error Unit) :
    Ends (dialAnswered result) s fun _ s' => s.Follows (.dialled result) s' := by
  unfold dialAnswered
  rw [ends_bind, ends_client]
  split
  next here =>
    rw [ends_bind, ends_goTo]
    exact (failConnect_route _).imp fun _ _ route => ⟨_, _, .unopened here, route⟩
  next config here =>
    rw [ends_bind, ends_goTo, ends_bind, ends_update, ends_bind, ends_note, ends_bind, ends_client]
    exact (salute_route (s := s.opened) config).imp fun _ _ route => ⟨_, _, .opened here, route⟩
  next result _ _ unopened opened =>
    refine ⟨_, _, .stray fun config here => ?_, .done s⟩
    cases result with
    | error e => exact unopened config e here rfl
    | ok u => exact opened config here rfl

theorem heard_follows (given : Except Transport.Error Bytes) (elapsed : Nat) :
    Ends (heard given elapsed) s fun _ s' => s.Follows (.heard given elapsed) s' := by
  unfold heard
  rw [ends_bind, ends_client]
  split
  next reader here =>
    split
    next more => exact ⟨_, _, .greetedOn here more, .done _⟩
    next p read =>
      rw [ends_bind, ends_note, ends_bind, ends_unit]
      exact (greeted_route p).imp fun _ _ route => ⟨_, _, .greeted here read, route⟩
    next nothing =>
      rw [ends_bind, ends_unit]
      exact (failConnect_route _).imp fun _ _ route => ⟨_, _, .unanswered here nothing, route⟩
    next failed =>
      rw [ends_bind, ends_unit]
      exact (failConnect_route _).imp fun _ _ route => ⟨_, _, .misread here failed, route⟩
  next reader here =>
    split
    next more => exact ⟨_, _, .readOn here more, .done _⟩
    next p read =>
      rw [ends_bind, ends_note, ends_bind, ends_unit]
      exact (attend_route p).imp fun _ _ route => ⟨_, _, .attended here read, route⟩
    next nothing =>
      rw [ends_bind, ends_unit]
      exact tend_route.imp fun _ _ route => ⟨_, _, .idled here nothing, route⟩
    next failed =>
      rw [ends_bind, ends_unit]
      exact (lose_route _).imp fun _ _ route => ⟨_, _, .lost here failed, route⟩
  next greeting listening => exact ⟨_, _, .stray ⟨greeting, listening⟩, .done s⟩

theorem intervalPassed_follows :
    Ends intervalPassed s fun _ s' => s.Follows .intervalPassed s' := by
  unfold intervalPassed
  rw [ends_bind, ends_client]
  split
  next interval here =>
    rw [ends_bind, ends_goTo]
    exact ⟨_, _, .woke here, (Goes.recalled _).last⟩
  next away => exact ⟨_, _, .stray away, .done s⟩

end Act

/-- **Routes.**  What an input leads to is a route from what it leaves to be done. -/
theorem System.take_route (s : System σ) (input : Input σ) : s.Follows input (s.take input) := by
  cases input with
  | call c => exact ⟨_, _, .called c, .done _⟩
  | turn => exact Act.turn_follows
  | dialled result => exact Act.dialAnswered_follows result
  | heard given elapsed => exact Act.heard_follows given elapsed
  | intervalPassed => exact Act.intervalPassed_follows
  | outside outside => exact ⟨_, _, .went outside, .done _⟩

/-! ## What inputs come to -/

/-- A control that the thread finds is obeyed. -/
theorem obeyed_route {control : Control} {controls : Queue Control}
    (runnable : s.client.isRunnable = true)
    (popped : s.client.controls.pop? = some (control, controls)) :
    Route (.obeys control) (s.change fun c => { c with controls, place := .running })
      (s.take .turn) := by
  change Act.turn.Ends s fun _ s' => Route _ _ s'
  unfold Act.turn
  rw [Act.ends_bind, Act.ends_client, if_pos runnable, popped]
  dsimp only
  rw [Act.ends_bind, Act.ends_update]
  exact Act.obey_route control

/-- Over a transport just opened CONNECT is sent. -/
theorem opened_route {config : Config} (here : s.client.place = .connecting config) :
    Route (.hails config) s.opened (s.take (.dialled (.ok ()))) := by
  change (Act.dialAnswered (.ok ())).Ends s fun _ s' => Route _ _ s'
  unfold Act.dialAnswered
  rw [Act.ends_bind, Act.ends_client, here]
  dsimp only
  rw [Act.ends_bind, Act.ends_goTo, Act.ends_bind, Act.ends_update, Act.ends_bind, Act.ends_note,
    Act.ends_bind, Act.ends_client]
  exact Act.salute_route (s := s.opened) config

section Heard

variable {reader : Frame.Reader} {given : Except Transport.Error Bytes} {elapsed : Nat}

/-- When nothing came in time, what is due is looked after. -/
theorem take_idled (here : s.client.place = .listening reader)
    (read : reader.receive given elapsed = .nothing) :
    s.take (.heard given elapsed) = (Act.tend.run s.unread).2 := by
  change (Act.heard given elapsed).Ends s fun _ s' => s' = _
  unfold Act.heard
  rw [Act.ends_bind, Act.ends_client, here]
  dsimp only
  rw [read]
  rfl

/-- A packet that was read is acted on, and then what is due is looked after. -/
theorem take_heard {p : Inbound} (here : s.client.place = .listening reader)
    (read : reader.receive given elapsed = .packet p) :
    s.take (.heard given elapsed) = ((Act.attend p).run (s.reading p)).2 := by
  change (Act.heard given elapsed).Ends s fun _ s' => s' = _
  unfold Act.heard
  rw [Act.ends_bind, Act.ends_client, here]
  dsimp only
  rw [read]
  rfl

/-- The broker's first packet is acted on. -/
theorem take_greets {p : Inbound} (here : s.client.place = .greeting reader)
    (read : reader.receive given elapsed = .packet p) :
    s.take (.heard given elapsed) = ((Act.greeted p).run (s.reading p)).2 := by
  change (Act.heard given elapsed).Ends s fun _ s' => s' = _
  unfold Act.heard
  rw [Act.ends_bind, Act.ends_client, here]
  dsimp only
  rw [read]
  rfl

/-- When the broker's first packet accepts the session, the session is opened. -/
theorem take_greeted {p : Inbound} {sessionPresent : Bool}
    (here : s.client.place = .greeting reader) (read : reader.receive given elapsed = .packet p)
    (status : Act.greetingStatus p = .ok sessionPresent) :
    s.take (.heard given elapsed) = ((Act.openSession sessionPresent).run (s.reading p)).2 := by
  rw [take_greets here read]
  unfold Act.greeted
  rw [status]

theorem greeted_route {p : Inbound} (here : s.client.place = .greeting reader)
    (read : reader.receive given elapsed = .packet p) :
    Route (.greets p) (s.reading p) (s.take (.heard given elapsed)) := by
  rw [take_greets here read]
  exact Act.greeted_route p

theorem attended_route {p : Inbound} (here : s.client.place = .listening reader)
    (read : reader.receive given elapsed = .packet p) :
    Route (.attends p) (s.reading p) (s.take (.heard given elapsed)) := by
  rw [take_heard here read]
  exact Act.attend_route p

end Heard

end Mqtt
