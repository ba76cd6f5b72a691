import Mqtt.Proofs.Answers

/-!
# What a packet can touch

A packet that cannot be read, that no client expects, or that acknowledges what the client does
not wait for is passed over (`Stray`).  Any other is acted on under the identifier that it
carries and no other (`Confined`): what bears another identifier stays as and where it is, and if
something is sent, then one packet that carries the same identifier (`Replies`).
-/

namespace Mqtt

/-! ## Packets that are passed over -/

/-- The identifier that a packet carries, if it has one, or why the packet cannot be read. -/
def Inbound.carries (p : Inbound) : Except Packet.Error (Option UInt16) :=
  match p.kind with
  | .publish => (Packet.Publish.decode p.flags p.body).map (·.packetId)
  | .subAck => (Packet.SubAck.decode p.body).map fun a => some a.packetId
  | .pubAck | .pubRec | .pubRel | .pubComp | .unsubAck => (Packet.decodeAck p.body).map some
  | _ => .ok none

/-- Whether nothing is to be done for a packet. -/
inductive Stray (p : Inbound) (c : Client) : Prop
  | unread {e : Packet.Error} : p.carries = .error e → Stray p c
  | unexpected :
    p.kind ∈ [.connect, .connAck, .subscribe, .unsubscribe, .pingReq, .disconnect] → Stray p c
  | unawaited {kind : AckKind} {id : UInt16} : kind ∈ [.pubAck, .pubComp, .subAck, .unsubAck] →
    p.kind = kind.packetKind → p.carries = .ok (some id) → c.pending.contains kind id = false →
    Stray p c
  /-- A PUBREC that neither begins nor repeats the end of a handshake. -/
  | unfollowed {id : UInt16} : p.kind = .pubRec → p.carries = .ok (some id) →
    c.pending.contains .pubRec id = false → c.pending.contains .pubComp id = false → Stray p c

namespace Act

variable {σ : Type} [Environment σ] {s : System σ} {α : Type} {id : UInt16}

omit [Environment σ] in
theorem onDecoded_unread {decoded : Except Packet.Error α} {carried : α → Option UInt16}
    {e : Packet.Error} (unread : decoded.map carried = .error e) (action : α → Try σ Unit) :
    onDecoded decoded action = pure () := by
  cases decoded with
  | error e => rfl
  | ok a => cases unread

omit [Environment σ] in
theorem onDecoded_read {decoded : Except Packet.Error α} {carried : α → Option UInt16}
    {own : Option UInt16} (read : decoded.map carried = .ok own) (action : α → Try σ Unit) :
    ∃ a, carried a = own ∧ onDecoded decoded action = action a := by
  cases decoded with
  | error e => cases read
  | ok a => exact ⟨a, Except.ok.inj read, rfl⟩

theorem onPublished_stray {kind : AckKind} (missing : s.client.pending.contains kind id = false) :
    Ends (onPublished kind id) s fun _ s' => s' = s :=
  take_stray missing rfl

theorem onPubRec_stray (missing : s.client.pending.contains .pubRec id = false)
    (unended : s.client.pending.contains .pubComp id = false) :
    Ends (onPubRec id).run s fun r s' => r = .ok () ∧ s' = s := by
  have untaken := Pending.take_eq_none_iff.2 missing
  unfold onPubRec
  rw [try_bind, try_lift, ends_take, untaken, System.change_without untaken]
  dsimp only
  rw [try_bind, try_lift, ends_client]
  dsimp only
  rw [unended]
  exact ⟨rfl, rfl⟩

omit [Environment σ] in
theorem onDecoded_ack {body : Bytes} (read : (Packet.decodeAck body).map some = .ok (some id))
    (action : UInt16 → Try σ Unit) : onDecoded (Packet.decodeAck body) action = action id := by
  obtain ⟨a, same, acts⟩ := onDecoded_read read action
  cases same
  exact acts

/-- Nothing is done for an acknowledgement that nothing waits for. -/
theorem dispatch_unawaited {awaits : AckKind} {flags : UInt8} {body : Bytes}
    (final : awaits ∈ [.pubAck, .pubComp, .subAck, .unsubAck])
    (carries : Inbound.carries ⟨awaits.packetKind, flags, body⟩ = .ok (some id))
    (missing : s.client.pending.contains awaits id = false) :
    ∃ action : Act σ Unit, dispatch (σ := σ) ⟨awaits.packetKind, flags, body⟩ = lift action ∧
      Ends action s fun _ s' => s' = s := by
  cases awaits with
  | pubAck => exact ⟨_, onDecoded_ack carries _, onPublished_stray missing⟩
  | pubComp => exact ⟨_, onDecoded_ack carries _, onPublished_stray missing⟩
  | unsubAck => exact ⟨_, onDecoded_ack carries _, onUnsubAck_stray missing⟩
  | subAck =>
    obtain ⟨a, same, acts⟩ := onDecoded_read (σ := σ) carries fun a =>
      lift (onSubAck a.packetId a.codes)
    cases same
    exact ⟨_, acts, onSubAck_stray a.codes missing⟩
  | pubRec | pubRel => simp at final

/-- A stray packet leaves all as it is. -/
theorem dispatch_stray {p : Inbound} (stray : Stray p s.client) :
    Ends (dispatch p).run s fun r s' => r = .ok () ∧ s' = s := by
  obtain ⟨kind, flags, body⟩ := p
  cases stray with
  | unread unread =>
    have passed : dispatch ⟨kind, flags, body⟩ = (pure () : Try σ Unit) := by
      cases kind <;> first | exact onDecoded_unread unread _ | cases unread
    rw [passed]
    exact ⟨rfl, rfl⟩
  | unexpected named =>
    have passed : dispatch ⟨kind, flags, body⟩ = (pure () : Try σ Unit) := by
      cases kind <;> first | rfl | simp at named
    rw [passed]
    exact ⟨rfl, rfl⟩
  | @unawaited awaits id final named carries missing =>
    obtain rfl : kind = awaits.packetKind := named
    obtain ⟨action, acts, same⟩ := dispatch_unawaited final carries missing
    rw [acts, try_lift]
    exact ⟨rfl, same⟩
  | unfollowed named carries missing unended =>
    cases named
    have acts : dispatch ⟨.pubRec, flags, body⟩ = (onPubRec _ : Try σ Unit) :=
      onDecoded_ack carries onPubRec
    rw [acts]
    exact onPubRec_stray missing unended

end Act

/-! ## What bears another identifier -/

namespace Pending

variable {p : Pending} {keep : Transaction → Bool}

/-- Transactions that an acknowledgement does not answer stay in their order. -/
theorem filter_take {kind : AckKind} {id : UInt16}
    (other : ∀ t, t.isFor kind id = true → keep t = false) :
    (p.take kind id).2.active.filter keep = p.active.filter keep :=
  filter_eraseP other p.active

/-- Transactions that do not wait for the same as the one that is put in stay in their order. -/
theorem filter_insert {t : Transaction}
    (other : ∀ u, u.isFor t.awaits t.packetId = true → keep u = false) :
    (p.insert t).2.active.filter keep = p.active.filter keep := by
  have out : keep t = false := other t (Transaction.isFor_iff.2 ⟨rfl, rfl⟩)
  have start : Queue.toList ⟨p.active, []⟩ = p.active := List.append_nil _
  change (join ⟨p.active, []⟩ t).toList.filter keep = _
  rw [toList_join, start]
  split
  · rw [List.filter_map]
    have same : ∀ u ∈ p.active, (keep ∘ fun u => if u.isFor t.awaits t.packetId then t else u) u =
        keep u := by
      intro u _
      change keep (if _ then t else u) = keep u
      split
      next fits => rw [out, other u fits]
      · rfl
    rw [List.filter_congr same]
    refine (List.map_congr_left (g := id) fun u member => if_neg fun fits => ?_).trans
      (List.map_id _)
    rw [List.mem_filter, other u fits] at member
    exact Bool.noConfusion member.2
  · rw [List.filter_append, List.filter_cons_of_neg (Bool.eq_false_iff.1 out), List.filter_nil,
      List.append_nil]

end Pending

/-- Whether a transaction does not bear an identifier. -/
def Transaction.isElsewhere (own : Option UInt16) (t : Transaction) : Bool :=
  some t.packetId != own

/-- Whether a topic is listed for a request that does not bear an identifier. -/
def Subject.isElsewhere (own : Option UInt16) (e : Subject) : Bool :=
  e.request.isSome && e.request != own

/-- Whether all that does not bear an identifier is as and where it was, in what waits for
acknowledgements and in what is listed for requests. -/
structure Client.Spared (own : Option UInt16) (c c' : Client) : Prop where
  active : c'.pending.active.filter (Transaction.isElsewhere own) =
    c.pending.active.filter (Transaction.isElsewhere own)
  staged : c'.pending.staged = c.pending.staged
  listed : c'.subscriptions.entries.filter (Subject.isElsewhere own) =
    c.subscriptions.entries.filter (Subject.isElsewhere own)

theorem Transaction.isElsewhere_of_isFor {t : Transaction} {kind : AckKind} {id : UInt16}
    (fits : t.isFor kind id = true) : t.isElsewhere (some id) = false := by
  unfold isElsewhere
  rw [(isFor_iff.1 fits).1, bne_self_eq_false]

namespace Client.Spared

variable {own : Option UInt16} {c c' c'' : Client}

theorem of_same (pending : c'.pending = c.pending)
    (subscriptions : c'.subscriptions = c.subscriptions) : Spared own c c' := by
  refine ⟨?_, ?_, ?_⟩
  · rw [pending]
  · rw [pending]
  · rw [subscriptions]

theorem trans (h : Spared own c c') (h' : Spared own c' c'') : Spared own c c'' :=
  ⟨h'.active.trans h.active, h'.staged.trans h.staged, h'.listed.trans h.listed⟩

theorem without (c : Client) (kind : AckKind) (id : UInt16) :
    Spared (some id) c (c.without kind id) :=
  ⟨Pending.filter_take fun _ => Transaction.isElsewhere_of_isFor, rfl, rfl⟩

theorem keep (c : Client) (t : Transaction) : Spared (some t.packetId) c (c.keep t) :=
  ⟨Pending.filter_insert fun _ => Transaction.isElsewhere_of_isFor, rfl, rfl⟩

theorem dropRequest (c : Client) (id : UInt16) :
    Spared (some id) c { c with subscriptions := c.subscriptions.dropRequest id } := by
  refine ⟨rfl, rfl, Subscriptions.filter_dropRequest fun e own => ?_⟩
  unfold Subject.isElsewhere
  rw [own, bne_self_eq_false, Bool.and_false]

/-- What is granted is listed for no request. -/
theorem amendAll (c : Client) (changes : List (Subject × Option Qos)) :
    Spared own c { c with subscriptions := c.subscriptions.amendAll changes } := by
  refine ⟨rfl, rfl, Subscriptions.filter_amendAll fun _ _ e confirmed _ => ?_⟩
  unfold Subject.isElsewhere
  rw [Option.isNone_iff_eq_none.1 confirmed]
  rfl

end Client.Spared

/-- Whether nothing was offered to the transport, or one packet that carries an identifier. -/
inductive Replies (own : Option UInt16) : List Transport.Attempt → Prop
  | silent : Replies own []
  | sent {id : UInt16} {packet : Bytes} {q : Inbound} {ended : Except Transport.Error Unit}
    {offers : List Transport.Attempt} : own = some id → Packet.parse? packet = some q →
    q.carries = .ok own → Transport.Course packet packet ended offers → Replies own offers

variable {σ : Type}

/-- What acting under an identifier comes to: with some offers made meanwhile, all that does not
bear it is spared. -/
structure Confined (own : Option UInt16) (offers : List Transport.Attempt) (s s' : System σ) :
    Prop where
  offered : Offered offers s s'
  spared : s.client.Spared own s'.client

namespace Confined

variable {own : Option UInt16} {first later : List Transport.Attempt} {s s' s'' : System σ}

theorem trans (h : Confined own first s s') (h' : Confined own later s' s'') :
    Confined own (first ++ later) s s'' :=
  ⟨h.offered.trans h'.offered, h.spared.trans h'.spared⟩

theorem of_same (log : s'.log = s.log) (linked : s'.client.linked = s.client.linked)
    (config : s'.client.config = s.client.config) (pending : s'.client.pending = s.client.pending)
    (subscriptions : s'.client.subscriptions = s.client.subscriptions) : Confined own [] s s' :=
  ⟨.of_log log linked config, .of_same pending subscriptions⟩

theorem refl (own : Option UInt16) (s : System σ) : Confined own [] s s :=
  .of_same rfl rfl rfl rfl rfl

theorem of_lets {e : Event} (lets : Lets e s s') (inside : ¬ e.IsTurn) : Confined own [] s s' := by
  refine ⟨.of_lets lets inside, ?_⟩
  rw [lets.1]
  exact .of_same rfl rfl

/-- An answer about filters is confined to its request. -/
theorem of_amended {kind : AckKind} {id : UInt16} {changes : List (Subject × Option Qos)}
    (offered : Offered [] s s')
    (amended : s'.client = { s.client with
      pending := (s.client.pending.take kind id).2
      subscriptions := (s.client.subscriptions.dropRequest id).amendAll changes }) :
    Confined (some id) [] s s' := by
  refine ⟨offered, ?_⟩
  have taken := Client.Spared.without s.client kind id
  have dropped := Client.Spared.dropRequest (s.client.without kind id) id
  rw [amended]
  exact (taken.trans dropped).trans (.amendAll _ changes)

end Confined

namespace Act

variable [Environment σ] {s : System σ} {own : Option UInt16} {α : Type}

theorem tell_confined {e : Event} (inside : ¬ e.IsTurn) :
    Calmly (tell e) s fun _ s' => Confined own [] s s' :=
  (tell_calmly e).imp fun _ _ lets => .of_lets lets inside

omit [Environment σ] in
theorem take_confined (kind : AckKind) (id : UInt16) :
    Calmly (take kind id) s fun _ s' => Confined (some id) [] s s' :=
  .silent ⟨rfl, .of_log rfl rfl rfl, .without s.client kind id⟩

theorem warnPending_confined (own : Option UInt16) (warning : Option Nat) :
    Calmly (warnPending warning) s fun _ s' => Confined own [] s s' := by
  cases warning with
  | none => exact .silent ⟨rfl, .refl own s⟩
  | some count => exact tell_confined id

theorem track_confined (awaits : AckKind) (id : UInt16) (packet : Bytes) (subject : Subject) :
    Calmly (track awaits id packet subject) s fun _ s' => Confined (some id) [] s s' := by
  unfold Calmly track
  rw [ends_bind, ends_now, ends_bind, ends_draw]
  refine Ends.imp (warnPending_confined (some id) _) fun _ s' ⟨log, calm⟩ =>
    ⟨log, fun passive => ?_⟩
  have warned := calm passive
  have kept := Client.Spared.keep s.client
    { awaits
      packetId := id
      timer := ⟨(Environment.now s.outside).1, s.client.config.ackTimeout⟩
      packet := .acknowledgement packet
      subject }
  exact ⟨warned.offered.earlier rfl rfl rfl, kept.trans warned.spared⟩

theorem deliver_confined (message : Message) :
    Calmly (deliver message) s fun _ s' => Confined own [] s s' := by
  unfold Calmly deliver
  rw [ends_bind, ends_client]
  split
  · exact tell_confined id
  · exact tell_confined id

theorem onPublished_confined (kind : AckKind) (id : UInt16) :
    Calmly (onPublished kind id) s fun _ s' => Confined (some id) [] s s' := by
  unfold onPublished
  refine (take_confined kind id).bind fun taken s₁ => ?_
  cases taken with
  | none => exact .silent ⟨rfl, fun taken => taken⟩
  | some t =>
    have told : Calmly (tell (.published t.subject.topic t.subject.qos id)) s₁ fun _ s' =>
        Confined (some id) [] s₁ s' := tell_confined not_false
    exact told.imp fun _ _ told taken => taken.trans told

theorem onPingResp_confined : Calmly onPingResp s fun _ s' => Confined own [] s s' :=
  .silent ⟨rfl, .of_same rfl rfl rfl rfl rfl⟩

/-! ## Answers about filters -/

theorem settle_offered (id : UInt16) (answered : Subject × UInt8) :
    Calmly (settle id answered.1 answered.2) s fun _ s' => Offered [] s s' := by
  unfold settle
  cases Qos.ofByte? answered.2 with
  | none => exact tell_offered not_false
  | some qos =>
    have dropped : Calmly (update fun c => { c with
        subscriptions := c.subscriptions.dropGranted answered.1.topic }) s fun _ s' =>
        Offered [] s s' := .silent ⟨rfl, .of_log rfl rfl rfl⟩
    refine dropped.bind fun _ s₁ => ?_
    have told : Calmly (tell (.subscribed answered.1.topic qos id)) s₁ fun _ s' =>
        Offered [] s₁ s' := tell_offered not_false
    refine told.bind fun _ s₂ => ?_
    exact .silent ⟨rfl, fun told dropped =>
      dropped.trans (told.trans (.of_log rfl rfl rfl))⟩

theorem onSubAck_offered (id : UInt16) (codes : Bytes) :
    Calmly (onSubAck id codes) s fun _ s' => Offered [] s s' := by
  unfold onSubAck
  refine (take_confined .subAck id).bind fun taken s₁ => ?_
  cases taken with
  | none => exact .silent ⟨rfl, Confined.offered⟩
  | some t =>
    refine (takeListed_offered id).bind fun subjects s₂ => ?_
    split
    · refine (forM_offered (fun answered s => settle_offered id answered) _).imp ?_
      exact fun _ _ settled listed taken => taken.offered.trans (listed.trans settled)
    · have told (subject : Subject) (s : System σ) :
          Calmly (tell (.subscribeFailed subject.topic id)) s fun _ s' => Offered [] s s' :=
        tell_offered not_false
      refine (forM_offered told _).imp ?_
      exact fun _ _ told listed taken => taken.offered.trans (listed.trans told)

theorem onUnsubAck_offered (id : UInt16) :
    Calmly (onUnsubAck id) s fun _ s' => Offered [] s s' := by
  unfold onUnsubAck
  refine (take_confined .unsubAck id).bind fun taken s₁ => ?_
  cases taken with
  | none => exact .silent ⟨rfl, Confined.offered⟩
  | some t =>
    refine (takeListed_offered id).bind fun subjects s₂ => ?_
    refine (forM_offered (fun (subject : Subject) s => ?_) _).imp
      fun _ _ removed listed taken => taken.offered.trans (listed.trans removed)
    have removed : Calmly (update fun c => { c with
        subscriptions := c.subscriptions.remove subject.topic }) s fun _ s' =>
        Offered [] s s' := .silent ⟨rfl, .of_log rfl rfl rfl⟩
    have told (s : System σ) : Calmly (tell (.unsubscribed subject.topic id)) s fun _ s' =>
        Offered [] s s' := tell_offered not_false
    exact removed.bind fun _ s₁ => (told s₁).imp fun _ _ told removed => removed.trans told

omit [Environment σ] in
theorem stray_confined {x : Act σ α} (same : Ends x s fun _ s' => s' = s) :
    Calmly x s fun _ s' => Confined own [] s s' := by
  refine .silent (same.imp fun _ s' same => ?_)
  rw [same]
  exact ⟨rfl, .refl own s⟩

theorem onSubAck_confined (id : UInt16) (codes : Bytes) :
    Calmly (onSubAck id codes) s fun _ s' => Confined (some id) [] s s' := by
  cases taken : (s.client.pending.take .subAck id).1 with
  | none =>
    exact stray_confined (onSubAck_stray codes (Pending.take_eq_none_iff.1 taken))
  | some t =>
    -- that nothing is offered and what is amended are two readings of one run
    refine ((onSubAck_offered id codes).both (onSubAck_amends codes taken)).imp ?_
    exact fun _ s' ⟨offered, amended⟩ => .of_amended offered amended

theorem onUnsubAck_confined (id : UInt16) :
    Calmly (onUnsubAck id) s fun _ s' => Confined (some id) [] s s' := by
  cases taken : (s.client.pending.take .unsubAck id).1 with
  | none =>
    exact stray_confined (onUnsubAck_stray (Pending.take_eq_none_iff.1 taken))
  | some t =>
    refine ((onUnsubAck_offered id).both (onUnsubAck_amends taken)).imp ?_
    exact fun _ s' ⟨offered, amended⟩ => .of_amended offered amended

/-! ## Acting under an identifier -/

/-- Whether an action comes, if no callback makes a call meanwhile, to one reply at most and
spares all that does not bear its identifier. -/
def Localised (own : Option UInt16) (action : Try σ Unit) (s : System σ) : Prop :=
  Calmly action.run s fun _ s' => ∃ offers, Replies own offers ∧ Confined own offers s s'

omit [Environment σ] in
theorem Localised.lift {x : Act σ Unit} (h : Calmly x s fun _ s' => Confined own [] s s') :
    Localised own (lift x) s :=
  Calmly.lift (h.imp fun _ _ confined => ⟨[], .silent, confined⟩)

omit [Environment σ] in
theorem Localised.nothing : Localised own (pure ()) s :=
  .lift (x := pure ()) (.silent ⟨rfl, .refl own s⟩)

omit [Environment σ] in
/-- What sends nothing may come first. -/
theorem Localised.after {x : Act σ α} {f : α → Try σ Unit}
    (first : Calmly x s fun _ s' => Confined own [] s s')
    (next : ∀ a s₁, Localised own (f a) s₁) : Localised own (Act.lift x >>= f) s := by
  have goesOn := first.bind (f := fun a => (f a).run) fun a s₁ =>
    (next a s₁).imp fun _ s' ⟨offers, replies, later⟩ (earlier : Confined own [] s s₁) =>
      (⟨offers, replies, earlier.trans later⟩ :
        ∃ offers, Replies own offers ∧ Confined own offers s s')
  exact goesOn

omit [Environment σ] in
theorem client_confined : Calmly client s fun _ s' => Confined own [] s s' :=
  .silent ⟨rfl, .refl own s⟩

theorem reply_localised {kind : Packet.Kind} (acks : kind ∈ [.pubAck, .pubRec, .pubRel, .pubComp])
    (id : UInt16) : Localised (some id) (transmit (Packet.ack kind id)) s := by
  refine (transmit_calmly _).imp ?_
  rintro _ _ ⟨-, rfl⟩
  refine ⟨s.offers (Packet.ack kind id), ?_, .afterSend s _, ?_⟩
  · unfold System.offers
    split
    · have carries : Inbound.carries ⟨kind, kind.flags, Bytes.ofWord id⟩ = .ok (some id) := by
        simp only [List.mem_cons, List.not_mem_nil, or_false] at acks
        rcases acks with rfl | rfl | rfl | rfl <;>
          exact congrArg (Except.map some) (Packet.decodeAck_ofWord id)
      exact .sent rfl (Packet.parse?_ack kind id) carries (Transport.sendAll_course _ _ _ _)
    · exact .silent
  · rw [System.afterSend_client]
    exact .of_same (by simp) (by simp)

theorem onPublish_localised (m : Packet.Publish) : Localised m.packetId (onPublish m) s := by
  unfold onPublish
  dsimp only
  split
  next id _ own =>
    rw [own]
    exact .after (deliver_confined _) fun _ _ => reply_localised (by decide) id
  next id _ own =>
    rw [own]
    refine .after client_confined fun c s₁ => ?_
    split
    · exact reply_localised (by decide) id
    · refine .after (deliver_confined _) fun _ s₂ => ?_
      exact .after (track_confined _ _ _ _) fun _ _ => reply_localised (by decide) id
  · exact .lift (deliver_confined _)

theorem onPubRel_localised (id : UInt16) : Localised (some id) (onPubRel id) s :=
  .after (take_confined .pubRel id) fun _ _ => reply_localised (by decide) id

theorem onPubRec_localised (id : UInt16) : Localised (some id) (onPubRec id) s := by
  refine .after (take_confined .pubRec id) fun taken s₁ => ?_
  cases taken with
  | none =>
    refine .after client_confined fun c s₂ => ?_
    split
    · exact reply_localised (by decide) id
    · exact .nothing
  | some t => exact .after (track_confined _ _ _ _) fun _ _ => reply_localised (by decide) id

omit [Environment σ] in
theorem onDecoded_localised {decoded : Except Packet.Error α} {carried : α → Option UInt16}
    {action : α → Try σ Unit} (each : ∀ a, Localised (carried a) (action a) s) :
    Localised (decoded.map carried).toOption.join (onDecoded decoded action) s := by
  cases decoded with
  | error e => exact .nothing
  | ok a => exact each a

theorem dispatch_localised (p : Inbound) :
    Localised p.carries.toOption.join (dispatch p) s := by
  obtain ⟨kind, flags, body⟩ := p
  cases kind with
  | publish => exact onDecoded_localised onPublish_localised
  | pubAck => exact onDecoded_localised fun id => .lift (onPublished_confined .pubAck id)
  | pubComp => exact onDecoded_localised fun id => .lift (onPublished_confined .pubComp id)
  | pubRec => exact onDecoded_localised onPubRec_localised
  | pubRel => exact onDecoded_localised onPubRel_localised
  | subAck =>
    exact onDecoded_localised fun a => .lift (onSubAck_confined a.packetId a.codes)
  | unsubAck => exact onDecoded_localised fun id => .lift (onUnsubAck_confined id)
  | pingResp => exact .lift onPingResp_confined
  | connect | connAck | subscribe | unsubscribe | pingReq | disconnect => exact .nothing

end Act

/-- **Packets stay local.**  A packet that cannot be read, that no client expects, or that
acknowledges what the client does not wait for changes nothing at all.  Whatever else a packet is,
acting on it comes, if no callback makes a call meanwhile, to one packet sent at most, which
carries the same identifier, and what waits for acknowledgements or is listed for requests under
any other identifier stays as and where it was. -/
theorem System.dispatch_local {σ : Type} [Environment σ] (s : System σ) (p : Inbound) :
    (Stray p s.client → (Act.dispatch p).run.Ends s fun r s' => r = .ok () ∧ s' = s) ∧
      (Act.dispatch p).run.Calmly s fun _ s' => ∃ offers,
        Replies p.carries.toOption.join offers ∧
          Confined p.carries.toOption.join offers s s' :=
  ⟨Act.dispatch_stray, Act.dispatch_localised p⟩

/-- A client whose message and whose request bear identifiers that two messages received at the
highest guarantee bear too. -/
def entwined : System Script :=
  inSession.takes
    [.call (.publish "a" [1] .exactlyOnce false), .call (.subscribeAll [("b", .atMostOnce)]),
      .heard (.ok [0x34, 6]) 0, .heard (.ok [0, 1, 99, 0, 1, 7]) 0, .turn,
      .heard (.ok [0x34, 6]) 0, .heard (.ok [0, 1, 99, 0, 2, 8]) 0, .turn]

theorem System.dispatch_local_entwined :
    let answered := ((Act.dispatch ⟨.pubRec, 0, [0, 1]⟩).run.run entwined).2
    entwined.client.pending.active.map Transaction.key =
        [(.pubRec, 1), (.subAck, 2), (.pubRel, 1), (.pubRel, 2)] ∧
      ((Act.dispatch ⟨.pubAck, 0, [0]⟩).run.run entwined).2 = entwined ∧
      ((Act.dispatch ⟨.pubRec, 0, [0, 2]⟩).run.run entwined).2 = entwined ∧
      (∃ offers, Replies (some 1) offers ∧ Confined (some 1) offers entwined answered) ∧
      answered.client.pending.active.map Transaction.key =
        [(.subAck, 2), (.pubRel, 1), (.pubRel, 2), (.pubComp, 1)] := by
  intro answered
  have passive : Passive entwined answered :=
    .of_all (answered.log.take 1) (by decide +kernel) (by decide +kernel)
  have unread := (dispatch_local entwined ⟨.pubAck, 0, [0]⟩).1 (.unread rfl)
  have unfollowed := (dispatch_local entwined ⟨.pubRec, 0, [0, 2]⟩).1
    (.unfollowed rfl rfl (by decide +kernel) (by decide +kernel))
  have confined := (dispatch_local entwined ⟨.pubRec, 0, [0, 1]⟩).2.2 passive
  exact ⟨by decide +kernel, unread.2, unfollowed.2, confined, by decide +kernel⟩

end Mqtt
