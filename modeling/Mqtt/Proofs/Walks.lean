import Mqtt.Proofs.Poised

/-!
# What the thread does as walks

What the thread does between two places is a walk of moves.  What is done with a packet of
the session is a walk with the packet in hand, and where the last reply of it fails for
good, that reply is the last thing sent before the transport is closed.
-/

namespace Mqtt

variable {σ : Type} [Environment σ] {s s' : System σ} {hand : Option Inbound}

theorem CallMove.busy (move : CallMove s s') (h : s.Busy) : s'.Busy := by
  cases move with
  | started _ early => exact absurd (h.1.symm.trans early) Place.noConfusion
  | released _ early => exact absurd early h.2
  | requested | refused | sent =>
    simpa [System.Busy, Client.pass_place, Client.register, Client.passOver, h.1] using h.2
  | _ => exact h

theorem System.Busy.afterSend (h : s.Busy) (bs : Bytes) : (s.afterSend bs).Busy := by
  simpa [System.Busy, Client.pass_place, h.1] using h.2

theorem TurnMove.busy (move : TurnMove hand s s') (h : s.Busy) : s'.Busy := by
  cases move with
  | call move => exact move.busy h
  | replied | resent | pinged => exact h.afterSend _
  | _ => exact h

/-- Calls neither bring back a client that has ended nor one that was not started. -/
theorem CallMove.stands (move : CallMove s s') :
    (s'.client.phase = .init → s.client.phase = .init) ∧
      (s'.client.place ≠ .exited → s.client.place ≠ .exited) := by
  cases move with
  | started _ unstarted =>
    refine ⟨Phase.noConfusion, fun _ => ?_⟩
    rw [unstarted]
    exact Place.noConfusion
  | released => simp [Client.release]
  | requested | refused | sent =>
    refine ⟨fun init => ?_, fun here exited => ?_⟩
    · simpa [Client.register, Client.passOver] using init
    · apply here
      rw [System.afterSend_client, Client.pass_place]
      simp [Client.register, Client.passOver, exited]
  | _ => exact ⟨fun init => init, fun here => here⟩

/-- Where the thread moves it has begun and has not ended. -/
theorem ThreadMove.stands (move : ThreadMove s s') (ordered : Ordered s) :
    s.client.place ≠ .exited ∧ s'.client.phase ≠ .init := by
  have begun : s.client.place ≠ .unstarted → s.client.phase ≠ .init := ordered.begun
  cases move with
  | turn busy move => exact ⟨by rw [busy.1]; exact Place.noConfusion, (move.turn.busy busy).2⟩
  | obeyed here =>
    obtain here | ⟨interval, here⟩ := here
    all_goals simp_all
  | readEnded here =>
    obtain here | here := here
    all_goals simp_all
  | entered _ busy which =>
    refine ⟨by rw [busy.1]; exact Place.noConfusion, ?_⟩
    rcases which with rfl | rfl <;> exact Phase.noConfusion
  | woke here | unanswered here | opened here | readOn _ here | greetedOn _ here | greeted _ here =>
    simp_all
  | began _ busy | left busy => simp [busy.1]
  | saluted _ busy | parted busy | closed busy | dialled _ busy | rested _ busy | parked _ busy
  | listened _ busy =>
    simpa [busy.1] using busy.2

/-- Of a client that was started only the thread closes the transport. -/
theorem CallMove.linked (move : CallMove s s') (busy : s.Busy) :
    s'.client.linked = s.client.linked := by
  cases move with
  | released _ early => exact absurd early busy.2
  | requested | refused | sent => simp [Client.register, Client.passOver]
  | _ => rfl

theorem TurnMove.linked (move : TurnMove hand s s') (busy : s.Busy) :
    s'.client.linked = s.client.linked := by
  cases move with
  | call move => exact move.linked busy
  | replied | resent | pinged => simp
  | _ => rfl

/-- What every move of a turn keeps holds after the turn. -/
theorem Turns.keep {I : System σ → Prop}
    (keep : ∀ s s' : System σ, s.Busy → TurnMove hand s s' → I s → I s')
    (turns : Turns hand s s') (busy : s.Busy) (start : I s) : s'.Busy ∧ I s' := by
  induction turns with
  | refl => exact ⟨busy, start⟩
  | tail _ move ih => exact ⟨move.busy ih.1, keep _ _ ih.1 move ih.2⟩

theorem Turns.busy (turns : Turns hand s s') (busy : s.Busy) : s'.Busy :=
  (Turns.keep (I := fun _ => True) (fun _ _ _ _ _ => trivial) turns busy trivial).1

theorem Turns.sane (turns : Turns hand s s') (busy : s.Busy) (h : s.client.pending.Sane) :
    s'.client.pending.Sane :=
  (Turns.keep (I := fun s => s.client.pending.Sane) (fun _ _ _ move => move.sane) turns busy h).2

theorem Calls.turns (calls : Calls s s') : Turns hand s s' :=
  Relation.ReflTransGen.mono (fun _ _ move => .call move) _ _ calls

theorem Calls.busy (calls : Calls s s') (busy : s.Busy) : s'.Busy :=
  have turns : Turns none s s' := calls.turns
  turns.busy busy

theorem Calls.quiets (calls : Calls s s') : Quiets s s' :=
  Relation.ReflTransGen.mono (fun _ _ move => .call move) _ _ calls

/-- A walk that begins with the entry of a plain event. -/
theorem Turns.told (e : Event) (plain : e.IsPlain)
    (apart : e.isOutcome = true → ∀ p ∈ hand, p.IsVerdict) (retry : e.isRetry = true → hand = none)
    (calls : Calls (s.announce e) s') : Turns hand s s' :=
  .head (.told s plain apart retry) calls.turns

theorem Quiets.told (e : Event) (plain : e.IsPlain) (quiet : e.isOutcome = false)
    (first : e.isRetry = false) (calls : Calls (s.announce e) s') : Quiets s s' :=
  .head (.told s plain quiet first) calls.quiets

/-- The application was told of so many transactions, or there was no need to. -/
def Warned (s s' : System σ) : Prop :=
  s' = s ∨ ∃ count, Calls (s.announce (.pendingWarning count)) s'

theorem CallMove.gaveUp (move : CallMove s s') {awaits : AckKind} {id : UInt16}
    (h : Entry.GaveUp s.log awaits id) : Entry.GaveUp s'.log awaits id := by
  obtain ⟨new, log, -⟩ := move.entries
  rw [log]
  exact h.append new

/-- Calls of a client that was started take out only what the application gives up. -/
theorem Calls.contains (calls : Calls s s') (busy : s.Busy) {awaits : AckKind} {id : UInt16}
    (h : s.client.pending.contains awaits id = true ∨ Entry.GaveUp s.log awaits id) :
    s'.Busy ∧
      (s'.client.pending.contains awaits id = true ∨ Entry.GaveUp s'.log awaits id) := by
  induction calls with
  | refl => exact ⟨busy, h⟩
  | tail _ move ih =>
    rcases ih with ⟨busy, present | gaveUp⟩
    · obtain ⟨t, member, rfl, rfl⟩ := Pending.contains_iff.1 present
      refine ⟨move.busy busy, (move.spares busy.2 member).imp_left fun still => ?_⟩
      exact Pending.contains_iff.2 ⟨t, still, rfl, rfl⟩
    · exact ⟨move.busy busy, Or.inr (move.gaveUp gaveUp)⟩

theorem Warned.contains (warned : Warned s s') (busy : s.Busy) {awaits : AckKind} {id : UInt16}
    (h : s.client.pending.contains awaits id = true ∨ Entry.GaveUp s.log awaits id) :
    s'.client.pending.contains awaits id = true ∨ Entry.GaveUp s'.log awaits id := by
  rcases warned with rfl | ⟨count, calls⟩
  · exact h
  · exact (Calls.contains calls busy (h.imp_right fun gaveUp => gaveUp.append [_])).2

theorem Warned.turns (warned : Warned s s') : Turns hand s s' := by
  rcases warned with rfl | ⟨count, calls⟩
  · exact .refl
  · exact .told (.pendingWarning count) trivial Bool.noConfusion Bool.noConfusion calls

theorem Warned.quiets (warned : Warned s s') : Quiets s s' := by
  rcases warned with rfl | ⟨count, calls⟩
  · exact .refl
  · exact .told (.pendingWarning count) trivial rfl rfl calls

/-- What came of acting on a packet: a walk, and a reply that failed for good if the
session is lost. -/
def Acted (p : Inbound) (s : System σ) (r : Except Error Unit) (s' : System σ) : Prop :=
  (¬ LosesSession r ∧ Turns (some p) s s') ∨
    LosesSession r ∧ ∃ s₀ packet, Turns (some p) s s₀ ∧ Owed p s₀ packet ∧
      s₀.sendResult packet = r ∧ s' = s₀.afterSend packet

theorem Acted.done {p : Inbound} (turns : Turns (some p) s s') : Acted p s (.ok ()) s' :=
  Or.inl ⟨id, turns⟩

theorem Acted.head {p : Inbound} {r : Except Error Unit} {s₁ : System σ}
    (turns : Turns (some p) s s₁) (acted : Acted p s₁ r s') : Acted p s r s' := by
  rcases acted with ⟨goesOn, later⟩ | ⟨lost, s₀, packet, later, owed⟩
  · exact Or.inl ⟨goesOn, turns.trans later⟩
  · exact Or.inr ⟨lost, s₀, packet, turns.trans later, owed⟩

theorem Acted.sane {p : Inbound} {r : Except Error Unit} (acted : Acted p s r s') (busy : s.Busy)
    (h : s.client.pending.Sane) : s'.client.pending.Sane := by
  rcases acted with ⟨-, turns⟩ | ⟨-, s₀, packet, turns, -, -, rfl⟩
  · exact turns.sane busy h
  · simpa using turns.sane busy h

omit [Environment σ] in
/-- Nothing is taken out where nothing waits. -/
theorem System.change_without {awaits : AckKind} {id : UInt16}
    (nothing : (s.client.pending.take awaits id).1 = none) :
    s.change (·.without awaits id) = s :=
  System.change_self (by unfold Client.without; rw [Pending.take_of_none nothing])

namespace Act

theorem warnPending_warned (warning : Option Nat) :
    Ends (warnPending warning) s fun _ s' => Warned s s' := by
  cases warning with
  | none => exact Or.inl rfl
  | some count =>
    exact (tell_calls (.pendingWarning count)).imp fun _ _ calls => Or.inr ⟨count, calls⟩

theorem tell_turns (e : Event) (plain : e.IsPlain)
    (apart : e.isOutcome = true → ∀ p ∈ hand, p.IsVerdict)
    (retry : e.isRetry = true → hand = none) : Ends (tell e) s fun _ s' => Turns hand s s' :=
  (tell_calls e).imp fun _ _ calls => .told e plain apart retry calls

theorem tell_quiets (e : Event) (plain : e.IsPlain) (quiet : e.isOutcome = false)
    (first : e.isRetry = false) : Ends (tell e) s fun _ s' => Quiets s s' :=
  (tell_calls e).imp fun _ _ calls => .told e plain quiet first calls

theorem migrate_warned :
    Ends migrate s fun _ s' =>
      Warned (s.change fun c => { c with pending := c.pending.migrate.2 }) s' := by
  unfold migrate
  rw [ends_bind, ends_draw]
  exact warnPending_warned _

/-- Keeping an acknowledgement puts its transaction in, and may warn. -/
theorem track_warned (awaits : AckKind) (id : UInt16) (packet : Bytes) (subject : Subject) :
    Ends (track awaits id packet subject) s fun _ s' => ∃ outside began,
      Warned ((s.shift outside).change fun c => c.keep
        { awaits, packetId := id, timer := ⟨began, c.config.ackTimeout⟩,
          packet := .acknowledgement packet, subject }) s' := by
  unfold track
  rw [ends_bind, ends_now, ends_bind, ends_draw]
  exact (warnPending_warned _).imp fun _ _ warned => ⟨_, _, warned⟩

/-- A message is handed on in one event. -/
theorem deliver_calls (message : Message) :
    Ends (deliver message) s fun _ s' => ∃ e : Event,
      (e = .data message ∨ e = .unsubscribedData message) ∧ Calls (s.announce e) s' := by
  unfold deliver
  rw [ends_bind, ends_client]
  split
  · exact (tell_calls _).imp fun _ _ calls => ⟨_, Or.inl rfl, calls⟩
  · exact (tell_calls _).imp fun _ _ calls => ⟨_, Or.inr rfl, calls⟩

/-! ## Acting on a packet -/

theorem reply_acted {p : Inbound} {packet : Bytes} (owed : Owed p s packet) :
    Acted p s (s.sendResult packet) (s.afterSend packet) := by
  by_cases lost : LosesSession (s.sendResult packet)
  · exact Or.inr ⟨lost, s, packet, .refl, owed, rfl, rfl⟩
  · exact Or.inl ⟨lost, .single (.replied s owed lost)⟩

theorem transmit_acted {p : Inbound} {packet : Bytes} (owed : Owed p s packet) :
    Ends (transmit packet).run s fun r s' => Acted p s r s' :=
  try_transmit.2 (reply_acted owed)

/-- A message at the highest guarantee is answered if it is remembered, else it is handed
on, remembered and answered. -/
theorem onPublish_exactlyOnce {m : Packet.Publish} {id : UInt16} (level : m.qos = .exactlyOnce)
    (own : m.packetId = some id) :
    Ends (onPublish m).run s fun r s' =>
      (s.client.pending.contains .pubRel id = true ∧
        r = s.sendResult (Packet.ack .pubRec id) ∧ s' = s.afterSend (Packet.ack .pubRec id)) ∨
      s.client.pending.contains .pubRel id = false ∧
        ∃ (e : Event) (s₁ : System σ) (outside : σ) (began : UInt32) (s₂ : System σ),
          (e = .data m.message ∨ e = .unsubscribedData m.message) ∧ Calls (s.announce e) s₁ ∧
          Warned ((s₁.shift outside).change fun c => c.keep (c.memory began m id)) s₂ ∧
          r = s₂.sendResult (Packet.ack .pubRec id) ∧
          s' = s₂.afterSend (Packet.ack .pubRec id) := by
  cases m
  cases level
  cases own
  unfold onPublish
  dsimp only
  rw [try_bind, try_lift, ends_client]
  dsimp only
  split
  next known => exact try_transmit.2 (Or.inl ⟨known, rfl, rfl⟩)
  next new =>
    rw [try_bind, try_lift]
    refine (deliver_calls _).imp fun _ s₁ ⟨e, which, calls⟩ => ?_
    rw [try_bind, try_lift]
    refine (track_warned _ _ _ _).imp fun _ s₂ ⟨outside, began, warned⟩ => ?_
    rw [try_transmit]
    have absent := Bool.eq_false_iff.2 new
    exact Or.inr ⟨absent, e, s₁, outside, began, s₂, which, calls, warned, rfl, rfl⟩

/-- A message that is not remembered is handed on and then remembered. -/
theorem remembered_turns {p : Inbound} {m : Packet.Publish} {id : UInt16} {e : Event}
    {s₁ : System σ} (read : p.publish? = some m) (level : m.qos = .exactlyOnce)
    (own : m.packetId = some id) (absent : s.client.pending.contains .pubRel id = false)
    (which : e = .data m.message ∨ e = .unsubscribedData m.message)
    (calls : Calls (s.announce e) s₁) (outside : σ) (began : UInt32) :
    Turns (some p) s ((s₁.shift outside).change fun c => c.keep (c.memory began m id)) := by
  have delivered : Turns (some p) s s₁ := .head
    (.delivered s read which fun id' _ own' => by
      rw [own] at own'
      cases own'
      exact absent) calls.turns
  exact (delivered.tail (.call (.outside s₁ outside))).tail
    (.remembered (s₁.shift outside) began read level own (calls.absent absent))

theorem onPublish_acted {p : Inbound} {m : Packet.Publish} (read : p.publish? = some m) :
    Ends (onPublish m).run s fun r s' => Acted p s r s' := by
  by_cases highest : m.qos = .exactlyOnce ∧ ∃ id, m.packetId = some id
  · rcases highest with ⟨level, id, own⟩
    apply (onPublish_exactlyOnce level own).imp
    intro r s' ended
    rcases ended with ⟨-, rfl, rfl⟩ |
      ⟨absent, e, s₁, outside, began, s₂, which, calls, warned, rfl, rfl⟩
    · exact reply_acted (.pubRec read level own)
    · have kept := remembered_turns read level own absent which calls outside began
      exact Acted.head (kept.trans warned.turns) (reply_acted (.pubRec read level own))
  · unfold onPublish
    dsimp only
    split
    next id level own =>
      rw [try_bind, try_lift]
      refine (deliver_calls m.message).imp fun _ s₁ ⟨e, which, calls⟩ => ?_
      have delivered : Turns (some p) s s₁ := .head
        (.delivered s read which fun _ exact _ => by rw [level] at exact; cases exact) calls.turns
      exact (transmit_acted (.pubAck read level own)).imp fun _ _ acted => acted.head delivered
    next id level own => exact absurd ⟨level, id, own⟩ highest
    · rw [try_lift]
      refine (deliver_calls m.message).imp fun _ s₁ ⟨e, which, calls⟩ => ?_
      exact .done (.head (.delivered s read which fun id exact own =>
        absurd ⟨exact, id, own⟩ highest) calls.turns)

omit [Environment σ] in
@[simp]
theorem ends_take {awaits : AckKind} {id : UInt16} {Q : Option Transaction → System σ → Prop} :
    Ends (take awaits id) s Q ↔
      Q (s.client.pending.take awaits id).1 (s.change (·.without awaits id)) :=
  Iff.rfl

theorem onPubRel_acted {p : Inbound} {id : UInt16} (read : p.ack? .pubRel = some id) :
    Ends (onPubRel id).run s fun r s' => Acted p s r s' := by
  unfold onPubRel
  rw [try_bind, try_lift, ends_take]
  exact (transmit_acted (.pubComp read)).imp fun _ _ acted =>
    acted.head (.single (.forgotten s read))

theorem onPublished_turns {p : Inbound} {awaits : AckKind} {id : UInt16}
    (which : awaits = .pubAck ∨ awaits = .pubComp) (read : p.ack? awaits.packetKind = some id) :
    Ends (onPublished awaits id) s fun _ s' => Turns (some p) s s' := by
  unfold onPublished
  rw [ends_bind, ends_take]
  cases taken : (s.client.pending.take awaits id).1 with
  | none =>
    rw [System.change_without taken]
    exact .refl
  | some t =>
    exact (tell_calls _).imp fun _ _ calls => .head (.completed s which read taken) calls.turns

theorem onPubRec_acted {p : Inbound} {id : UInt16} (busy : s.Busy)
    (read : p.ack? .pubRec = some id) :
    Ends (onPubRec id).run s fun r s' => Acted p s r s' := by
  unfold onPubRec
  dsimp only
  rw [try_bind, try_lift, ends_take]
  cases taken : (s.client.pending.take .pubRec id).1 with
  | none =>
    rw [System.change_without taken]
    dsimp only
    rw [try_bind, try_lift, ends_client]
    dsimp only
    split
    next waiting => exact transmit_acted (.pubRel read (Or.inl waiting))
    · exact .done .refl
  | some t =>
    dsimp only
    rw [try_bind, try_lift]
    refine (track_warned _ _ _ _).imp fun _ s₁ ⟨outside, began, warned⟩ => ?_
    have advanced : Turns (some p) s ((s.shift outside).change fun c =>
        (c.without .pubRec id).keep (c.ending began t id)) :=
      .tail (.single (.call (.outside s outside))) (.advanced _ began read taken)
    have turns : Turns (some p) s s₁ := advanced.trans warned.turns
    have waiting := Pending.contains_insert_self (s.client.pending.take .pubRec id).2
      (s.client.ending began t id)
    have owed : Owed p s₁ (Packet.ack .pubRel id) :=
      .pubRel read (warned.contains busy (Or.inl waiting))
    exact (transmit_acted owed).imp fun _ _ acted => acted.head turns

/-- Walks for each member of a list make one walk. -/
theorem forM_turns {α : Type} {f : α → Act σ Unit} (hand : Option Inbound)
    (each : ∀ (a : α) (s : System σ), Ends (f a) s fun _ s' => Turns hand s s') (as : List α) :
    Ends (as.forM f) s fun _ s' => Turns hand s s' :=
  forM_keep (fun a _ s₁ turns => (each a s₁).imp fun _ _ later => turns.trans later) .refl

theorem takeListed_turns (verdict : ∀ p ∈ hand, p.IsVerdict) (id : UInt16) :
    Ends (takeListed id) s fun _ s' => Turns hand s s' :=
  .single (.filed s (s.client.subscriptions.dropRequest id) verdict)

theorem settle_turns (verdict : ∀ p ∈ hand, p.IsVerdict) (id : UInt16) (subject : Subject)
    (code : UInt8) : Ends (settle id subject code) s fun _ s' => Turns hand s s' := by
  unfold settle
  cases Qos.ofByte? code with
  | none => exact tell_turns _ trivial (fun _ => verdict) Bool.noConfusion
  | some qos =>
    rw [ends_bind, ends_update, ends_bind]
    have dropped : TurnMove hand s _ :=
      .filed s (s.client.subscriptions.dropGranted subject.topic) verdict
    apply (tell_turns (.subscribed subject.topic qos id) trivial (fun _ => verdict)
      Bool.noConfusion).imp
    intro _ s₁ turns
    rw [ends_update]
    exact .tail (.head dropped turns)
      (.filed s₁ (s₁.client.subscriptions.add (subject.confirm qos)) verdict)

theorem onSubAck_turns {p : Inbound} (named : p.kind = .subAck) (id : UInt16) (codes : Bytes) :
    Ends (onSubAck id codes) s fun _ s' => Turns (some p) s s' := by
  have verdict : ∀ q ∈ some p, q.IsVerdict := fun q own => Option.some.inj own ▸ Or.inl named
  unfold onSubAck
  rw [ends_bind, ends_take]
  have taken : Turns (some p) s (s.change (·.without .subAck id)) :=
    .single (.answered s rfl named)
  split
  · rw [ends_bind]
    apply (takeListed_turns verdict id).imp
    intro subjects s₁ listed
    split
    · exact (forM_turns (some p) (fun (subject, code) _ =>
        settle_turns verdict id subject code) _).imp
        fun _ _ turns => (taken.trans listed).trans turns
    · exact (forM_turns (some p) (fun (subject : Subject) _ =>
        tell_turns (.subscribeFailed subject.topic id) trivial (fun _ => verdict)
          Bool.noConfusion) _).imp
        fun _ _ turns => (taken.trans listed).trans turns
  · exact taken

theorem onUnsubAck_turns {p : Inbound} (named : p.kind = .unsubAck) (id : UInt16) :
    Ends (onUnsubAck id) s fun _ s' => Turns (some p) s s' := by
  have verdict : ∀ q ∈ some p, q.IsVerdict := fun q own => Option.some.inj own ▸ Or.inr named
  unfold onUnsubAck
  rw [ends_bind, ends_take]
  have taken : Turns (some p) s (s.change (·.without .unsubAck id)) :=
    .single (.answered s rfl named)
  split
  · rw [ends_bind]
    apply (takeListed_turns verdict id).imp
    intro subjects s₁ listed
    refine (forM_turns (some p) (fun subject s => ?_) _).imp fun _ _ turns =>
      (taken.trans listed).trans turns
    rw [ends_bind, ends_update]
    exact (tell_turns (.unsubscribed subject.topic id) trivial (fun _ => verdict)
      Bool.noConfusion).imp
      fun _ _ turns => .head (.filed s (s.client.subscriptions.remove subject.topic) verdict) turns
  · exact taken

theorem onPingResp_turns : Ends onPingResp s fun _ s' => Turns hand s s' := by
  unfold onPingResp
  rw [ends_bind, ends_now, ends_update]
  exact .head (.call (.outside s _)) (.single (.pulsed _ _))

theorem lift_acted {p : Inbound} {action : Act σ Unit}
    (turns : Ends action s fun _ s' => Turns (some p) s s') :
    Ends (lift action).run s fun r s' => Acted p s r s' :=
  try_lift.2 (turns.imp fun _ _ => .done)

theorem dispatch_publish {p : Inbound} {m : Packet.Publish} (read : p.publish? = some m) :
    dispatch (σ := σ) p = onPublish m := by
  unfold Inbound.publish? at read
  split at read
  next named =>
    unfold dispatch
    rw [named]
    dsimp only
    cases decoded : Packet.Publish.decode p.flags p.body with
    | error e =>
      rw [decoded] at read
      cases read
    | ok m' =>
      rw [decoded] at read
      cases read
      rfl
  · cases read

theorem dispatch_pubRel {p : Inbound} {id : UInt16} (read : p.ack? .pubRel = some id) :
    dispatch (σ := σ) p = onPubRel id := by
  obtain ⟨named, decoded⟩ := Inbound.of_ack? read
  unfold dispatch
  rw [named]
  dsimp only
  rw [decoded]
  rfl

theorem dispatch_pubRec {p : Inbound} {id : UInt16} (read : p.ack? .pubRec = some id) :
    dispatch (σ := σ) p = onPubRec id := by
  obtain ⟨named, decoded⟩ := Inbound.of_ack? read
  unfold dispatch
  rw [named]
  dsimp only
  rw [decoded]
  rfl

/-- Acting on a packet of the session is a walk with the packet in hand. -/
theorem dispatch_acted (busy : s.Busy) (p : Inbound) :
    Ends (dispatch p).run s fun r s' => Acted p s r s' := by
  have skip {α : Type} (decoded : Except Packet.Error α) (action : α → Try σ Unit)
      (act : ∀ a, decoded = .ok a → Ends (action a).run s fun r s' => Acted p s r s') :
      Ends (onDecoded decoded action).run s fun r s' => Acted p s r s' := by
    cases decoded with
    | error e => exact .done .refl
    | ok a => exact act a rfl
  have acked {kind : Packet.Kind} {id : UInt16} (named : p.kind = kind)
      (read : Packet.decodeAck p.body = .ok id) : p.ack? kind = some id := by
    rw [Inbound.ack?, if_pos named, read]
    rfl
  unfold dispatch
  split
  next named =>
    refine skip _ _ fun m read => onPublish_acted ?_
    rw [Inbound.publish?, if_pos named, read]
    rfl
  next named =>
    exact skip _ _ fun id read => lift_acted (onPublished_turns (Or.inl rfl) (acked named read))
  next named =>
    exact skip _ _ fun id read => lift_acted (onPublished_turns (Or.inr rfl) (acked named read))
  next named => exact skip _ _ fun id read => onPubRec_acted busy (acked named read)
  next named => exact skip _ _ fun id read => onPubRel_acted (acked named read)
  next named => exact skip _ _ fun a read => lift_acted (onSubAck_turns named a.packetId a.codes)
  next named => exact skip _ _ fun id read => lift_acted (onUnsubAck_turns named id)
  next named => exact lift_acted onPingResp_turns
  · exact .done .refl

/-! ## Looking after transactions -/

end Act

/-- Without a packet in hand only the application takes out what does not expire. -/
theorem TurnMove.asks (move : TurnMove none s s') (busy : s.Busy)
    (sane : s.client.pending.Sane) {awaits : AckKind} {id : UInt16} {packet : Bytes}
    (lasting : awaits.isRequest = false)
    (h : s.client.pending.Asks awaits id packet ∨ Entry.GaveUp s.log awaits id) :
    s'.client.pending.Asks awaits id packet ∨ Entry.GaveUp s'.log awaits id := by
  have sent (bs : Bytes) : (s.afterSend bs).client.pending.Asks awaits id packet ∨
      Entry.GaveUp (s.afterSend bs).log awaits id := by
    rw [System.afterSend_client, Client.pass_pending, System.afterSend_log]
    exact h.imp_right (·.append _)
  cases move with
  | call move =>
    rcases h with ⟨t, member, own, keeps⟩ | gaveUp
    · obtain ⟨rfl, rfl⟩ := Transaction.isFor_iff.1 own
      exact (move.spares busy.2 member).imp_left fun still => ⟨t, still, own, keeps⟩
    · exact Or.inr (move.gaveUp gaveUp)
  | told e => exact h.imp_right (·.append [_])
  | filed | pulsed => exact h
  | migrated =>
    refine h.imp_left fun ⟨t, member, asks⟩ => ⟨t, ?_, asks⟩
    rw [System.change_client, Pending.migrate_of_distinct sane.distinct]
    exact Pending.mem_all.2 (Or.inl member)
  | scanned _ now limit force =>
    refine h.imp_left fun ⟨t, member, own, keeps⟩ => ?_
    have kind := (Transaction.isFor_iff.1 own).2
    obtain ⟨u, looked⟩ := @Transaction.look_isSome now limit force t (kind ▸ lasting)
    have marked : u.packet.markDup.bytes = packet :=
      (Transaction.bytes_markDup_of_look looked).trans keeps
    obtain ⟨sameKind, sameId, -⟩ := Transaction.of_look_eq_some looked
    have fits : u.isFor awaits id = true := by
      unfold Transaction.isFor
      rw [sameKind, sameId]
      exact own
    exact ⟨u, Pending.mem_scan_active.2 ⟨t, member, looked⟩, fits, marked⟩
  | resent => exact sent _
  | pinged => exact sent _

/-- Whether what a look asks for may be done. -/
def Ready (s : System σ) (a : Action) : Prop :=
  ∀ awaits id retries packet, a = .resend awaits id retries packet →
    Resendable id awaits packet ∧
      (s.client.pending.Asks awaits id packet ∨ Entry.GaveUp s.log awaits id)

theorem Turns.ready (turns : Turns none s s') (busy : s.Busy) (sane : s.client.pending.Sane)
    {a : Action} (ready : Ready s a) : Ready s' a := by
  intro awaits id retries packet same
  subst same
  obtain ⟨sendable, waiting⟩ := ready awaits id retries packet rfl
  refine ⟨sendable, ?_⟩
  exact (Turns.keep (I := fun s => s.client.pending.Sane ∧
      (s.client.pending.Asks awaits id packet ∨ Entry.GaveUp s.log awaits id))
    (fun _ _ busy move ⟨sane, waiting⟩ =>
      ⟨move.sane sane, move.asks busy sane sendable.isRequest waiting⟩)
    turns busy ⟨sane, waiting⟩).2.2

namespace Act

theorem expire_turns (t : Transaction) : Ends (expire t) s fun _ s' => Turns none s s' := by
  have bare : ∀ p ∈ (none : Option Inbound), p.IsVerdict := fun _ none => by cases none
  unfold expire
  rw [ends_bind]
  apply (takeListed_turns bare t.packetId).imp
  intro _ s₁ listed
  refine (forM_turns none (fun (subject : Subject) s => ?_) _).imp fun _ _ turns =>
    listed.trans turns
  split
  · exact tell_turns _ trivial (fun _ => bare) Bool.noConfusion
  · exact tell_turns _ trivial (fun _ => bare) Bool.noConfusion

theorem carryActions_turns (actions : List Action) (failure : Option Error) (busy : s.Busy)
    (sane : s.client.pending.Sane) (ready : ∀ a ∈ actions, Ready s a) :
    Ends (carryActions failure actions) s fun _ s' => Turns none s s' := by
  induction actions generalizing s failure with
  | nil => exact .refl
  | cons a rest ih =>
    have next {s₁ : System σ} (turns : Turns none s s₁) (failure : Option Error) :
        Ends (carryActions failure rest) s₁ fun _ s' => Turns none s s' :=
      (ih failure (turns.busy busy) (turns.sane busy sane) fun b member =>
        turns.ready busy sane (ready b (List.mem_cons_of_mem _ member))).imp
          fun _ _ later => turns.trans later
    cases a with
    | warn kind id retries =>
      rw [carryActions, ends_bind]
      exact (tell_turns (.retryWarning kind id retries) trivial Bool.noConfusion fun _ => rfl).imp
        fun _ _ turns => next turns failure
    | expire t =>
      rw [carryActions, ends_bind]
      exact (expire_turns t).imp fun _ _ turns => next turns failure
    | resend kind id retries packet =>
      cases failure with
      | some e => exact next .refl (some e)
      | none =>
        obtain ⟨sendable, waiting⟩ := ready _ List.mem_cons_self kind id retries packet rfl
        have sent : Turns none s (s.afterSend packet) := .single (.resent s sendable waiting)
        rw [carryActions, ends_bind, try_transmit]
        cases s.sendResult packet with
        | error e => exact next sent _
        | ok u =>
          dsimp only
          rw [ends_bind]
          exact (tell_turns (.resent kind id retries) trivial Bool.noConfusion fun _ => rfl).imp
            fun _ _ turns => next (sent.trans turns) none

theorem scan_turns (force : Bool) (busy : s.Busy) (sane : s.client.pending.Sane) :
    Ends (scan force) s fun _ s' => Turns none s s' := by
  unfold scan
  rw [ends_bind, ends_client, ends_bind, ends_now, ends_bind, ends_draw]
  let s₁ := s.shift (Environment.now s.outside).2
  let reading := (Environment.now s.outside).1
  let limit := s.client.config.retryWarning
  have scanned : Turns none s (s₁.change fun c =>
      { c with pending := (c.pending.scan reading limit force).2 }) :=
    .tail (.single (.call (.outside s _))) (.scanned s₁ reading limit force)
  refine (carryActions_turns _ none (scanned.busy busy) (scanned.sane busy sane) ?_).imp
    fun _ _ turns => scanned.trans turns
  intro a member awaits id retries packet same
  subst same
  obtain ⟨t, active, looked⟩ := Pending.mem_scan_actions.1 member
  have sound := sane.sound t (Pending.mem_all.2 (Or.inl active))
  obtain ⟨u, kept, asks⟩ := sound.again looked
  exact ⟨sound.resendable looked,
    Or.inl ⟨u, Pending.mem_scan_active.2 ⟨t, active, kept⟩, asks⟩⟩

/-- What was granted is asked for anew. -/
theorem resubscribe_quiets : Ends resubscribe s fun _ s' => Quiets s s' := by
  unfold resubscribe
  rw [ends_bind, ends_client]
  dsimp only
  split
  · exact .refl
  · rw [ends_bind]
    apply (perform_calls (raise_calls .thread) .thread _).imp
    intro reply s₁ calls
    rw [ends_note]
    exact calls.quiets.tail (.call (.remarked s₁ (.renewed _ reply) trivial))

end Act

end Mqtt
