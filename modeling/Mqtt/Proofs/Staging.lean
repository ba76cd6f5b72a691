import Mqtt.Proofs.ExactlyOnce
import Mqtt.Proofs.Requests

/-!
# Staged transactions

Only active transactions are answered, and a transaction becomes active when the client
next reads.  So one that is staged while a packet is under way, be it before the last octet
of its own answer, is active when the client turns to that answer; only the application
takes it out before (`answers_meet`).  What is staged later, by callbacks, is left alone by
every look at the transactions.
-/

namespace Mqtt

/-! ## What an acknowledgement answers -/

/-- What waits for a packet, if it is a well-formed acknowledgement for a transaction of the
client's own: its kind and its identifier. -/
def Inbound.answers? (p : Inbound) : Option (AckKind × UInt16) :=
  match p.kind with
  | .pubAck => (Packet.decodeAck p.body).toOption.map (.pubAck, ·)
  | .pubRec => (Packet.decodeAck p.body).toOption.map (.pubRec, ·)
  | .pubComp => (Packet.decodeAck p.body).toOption.map (.pubComp, ·)
  | .subAck | .unsubAck => p.verdict?.map (·.1)
  | _ => none

/-- What a look asks to be done is about one transaction: its kind and its identifier. -/
def Action.about : Action → AckKind × UInt16
  | .resend kind id _ _ | .warn kind id _ => (kind, id)
  | .expire t => (t.awaits, t.packetId)

/-- The request about filters that the entries under an identifier are of. -/
def Client.petition (c : Client) (kind : AckKind) (id : UInt16) : Petition where
  serial := 0
  kind
  id
  filters := (c.subscriptions.ofRequest id).map fun e => (e.topic, e.qos)

theorem Client.petition_entries (c : Client) (kind : AckKind) (id : UInt16) :
    (c.petition kind id).entries = c.subscriptions.ofRequest id := by
  unfold Petition.entries petition
  rw [List.map_map]
  conv => rhs; rw [← List.map_id (c.subscriptions.ofRequest id)]
  refine List.map_congr_left fun e member => Subject.eq_iff.2 ⟨rfl, rfl, ?_⟩
  exact (eq_of_beq (List.mem_filter.1 member).2).symm

theorem Transaction.about_of_look {now limit : UInt32} {force : Bool} {t : Transaction}
    {action : Action} (looked : (t.look now limit force).2 = some action) :
    action.about = (t.awaits, t.packetId) := by
  unfold look at looked
  split at looked
  · cases looked
  · split at looked
    · cases looked
      rfl
    · dsimp only at looked
      split at looked <;> · cases looked; rfl

namespace Pending

theorem mem_dropOldest {q : Transaction → Bool} {ts : List Transaction} {t : Transaction}
    (lacks : q t = false) : t ∈ dropOldest q ts ↔ t ∈ ts := by
  rw [← List.mem_reverse, reverse_dropOldest, List.mem_eraseP_of_neg (by simp [lacks]),
    List.mem_reverse]

theorem mem_remove_staged {p : Pending} {kind : AckKind} {id : UInt16} {t : Transaction}
    (other : t.isFor kind id = false) : t ∈ (p.remove kind id).2.staged ↔ t ∈ p.staged := by
  unfold remove
  split
  · exact mem_dropOldest other
  · rfl

/-- What is active among distinct transactions is what its acknowledgement takes. -/
theorem Distinct.take_eq {p : Pending} (h : p.Distinct) {t : Transaction} (active : t ∈ p.active) :
    (p.take t.awaits t.packetId).1 = some t := by
  have fits : t.isFor t.awaits t.packetId = true := Transaction.isFor_iff.2 ⟨rfl, rfl⟩
  cases taken : (p.take t.awaits t.packetId).1 with
  | none =>
    have unfit := List.find?_eq_none.1 taken t active
    exact absurd fits unfit
  | some u =>
    obtain ⟨-, own, kind⟩ := of_take_eq_some taken
    rcases List.mem_cons.1 ((take_perm taken).subset (mem_all.2 (Or.inl active))) with rfl | left
    · rfl
    · exact absurd own.symm (h.apart_of_take taken left (by rw [kind]))

/-- No look asks for anything about a staged transaction. -/
theorem Distinct.about_ne {p : Pending} (h : p.Distinct) {now limit : UInt32} {force : Bool}
    {action : Action} (asked : action ∈ (p.scan now limit force).1) {u : Transaction}
    (staged : u ∈ p.staged) : action.about ≠ (u.awaits, u.packetId) := by
  obtain ⟨t, active, looked⟩ := mem_scan_actions.1 asked
  have about : action.about = (t.awaits, t.packetId) := Transaction.about_of_look looked
  have apart : t.Apart u :=
    (List.pairwise_append.1 h.apart).2.2 t active u (List.mem_reverse.2 staged)
  rw [about]
  intro same
  obtain ⟨kind, id⟩ := Prod.mk.inj same
  exact apart (by rw [kind]) id

end Pending

/-! ## What the application leaves alone -/

variable {σ : Type}

/-- Whether the application gave up, from one system to another, what waits for an
acknowledgement. -/
def GivenUp (kind : AckKind) (id : UInt16) (s s' : System σ) : Prop :=
  ∃ new, s'.log = new ++ s.log ∧ Entry.GaveUp new kind id

namespace GivenUp

variable {kind : AckKind} {id : UInt16} {s s' s'' : System σ}

theorem earlier (h : GivenUp kind id s' s'') (log : s.log <:+ s'.log) : GivenUp kind id s s'' := by
  rcases h with ⟨new, log', topic, client, told, member⟩
  obtain ⟨old, log⟩ := log
  exact ⟨new ++ old, by rw [log', ← log, List.append_assoc], topic, client, told,
    List.mem_append_left _ member⟩

theorem later (h : GivenUp kind id s s') (log : s'.log <:+ s''.log) : GivenUp kind id s s'' := by
  rcases h with ⟨old, log', gaveUp⟩
  obtain ⟨new, log⟩ := log
  exact ⟨new ++ old, by rw [← log, log', List.append_assoc], gaveUp.append new⟩

end GivenUp

/-- Whether each transaction of a kind is left where it is from one system to another, or
given up by the application. -/
structure Spares (among : Pending → List Transaction) (s s' : System σ) : Prop where
  begun : s.client.phase ≠ .init → s'.client.phase ≠ .init
  log : s.log <:+ s'.log
  kept : s.client.phase ≠ .init → ∀ t ∈ among s.client.pending,
    t ∈ among s'.client.pending ∨ GivenUp t.awaits t.packetId s s'

namespace Spares

variable {among : Pending → List Transaction} {s s' s'' : System σ}

theorem of_log (log : s'.log = s.log) (pending : s'.client.pending = s.client.pending)
    (phase : s'.client.phase = s.client.phase) : Spares among s s' :=
  ⟨fun begun => phase ▸ begun, log ▸ List.suffix_refl _, fun _ _ member =>
    Or.inl (pending ▸ member)⟩

theorem refl (s : System σ) : Spares among s s :=
  of_log rfl rfl rfl

theorem trans (first : Spares among s s') (later : Spares among s' s'') : Spares among s s'' := by
  refine ⟨fun begun => later.begun (first.begun begun), first.log.trans later.log,
    fun begun t member => ?_⟩
  rcases first.kept begun t member with still | given
  · exact (later.kept (first.begun begun) t still).imp_right fun given => given.earlier first.log
  · exact Or.inr (given.later later.log)

theorem note (s : System σ) (e : Entry) : Spares among s (s.note e) :=
  ⟨id, List.suffix_cons _ _, fun _ _ member => Or.inl member⟩

theorem announce (s : System σ) (e : Event) : Spares among s (s.announce e) :=
  note s _

theorem afterSend [Environment σ] (s : System σ) (bs : Bytes) :
    Spares among s (s.afterSend bs) := by
  refine ⟨by simp, ⟨_, (s.afterSend_log bs).symm⟩, fun _ t member => Or.inl ?_⟩
  simpa using member

end Spares

section Moves

variable [Environment σ] {s s' : System σ} {p : Inbound}

/-- What a call does to the transactions of a client that was started: nothing, or one is
given up and the application is told, or one is staged. -/
theorem CallMove.transactions (move : CallMove s s') :
    (s'.client.pending.active = s.client.pending.active ∧
      s'.client.pending.staged = s.client.pending.staged) ∨
    (∃ awaits id t told, (s.client.pending.remove awaits id).1 = some t ∧
      s'.client.pending = (s.client.pending.remove awaits id).2 ∧
      s'.log = .raised (.discarded awaits id t.subject.topic) s'.client told :: s.log) ∨
    (∃ t, s'.client.pending = s.client.pending.stage t) ∨ s.client.phase = .init := by
  cases move with
  | discarded removed => exact Or.inr (Or.inl ⟨_, _, _, _, removed, rfl, rfl⟩)
  | requested began => exact Or.inr (Or.inr (Or.inl ⟨_, by simp [Client.register]; rfl⟩))
  | released _ early => exact Or.inr (Or.inr (Or.inr early))
  | refused | sent => left; simp [Client.passOver]
  | _ => exact Or.inl ⟨rfl, rfl⟩

theorem CallMove.spare {among : Pending → List Transaction} (move : CallMove s s')
    (same : s'.client.pending.active = s.client.pending.active ∧
      s'.client.pending.staged = s.client.pending.staged →
        among s'.client.pending = among s.client.pending)
    (removed : ∀ {awaits id} {t : Transaction}, t.isFor awaits id = false →
      t ∈ among s.client.pending → t ∈ among (s.client.pending.remove awaits id).2)
    (staged : ∀ {t u}, t ∈ among s.client.pending → t ∈ among (s.client.pending.stage u)) :
    Spares among s s' := by
  obtain ⟨new, log, -⟩ := move.entries
  refine ⟨fun begun init => begun (move.stands.1 init), ⟨new, log.symm⟩, fun begun t member => ?_⟩
  rcases move.transactions with kept | ⟨awaits, id, u, told, -, pending, log⟩ | ⟨u, pending⟩ | early
  · exact Or.inl (same kept ▸ member)
  · by_cases given : t.isFor awaits id = true
    · obtain ⟨rfl, rfl⟩ := Transaction.isFor_iff.1 given
      exact Or.inr ⟨[_], log, _, _, _, List.mem_cons_self⟩
    · rw [pending]
      exact Or.inl (removed (Bool.eq_false_iff.2 given) member)
  · rw [pending]
    exact Or.inl (staged member)
  · exact absurd early begun

theorem CallMove.sparesActive (move : CallMove s s') : Spares Pending.active s s' :=
  move.spare (·.1) (fun other => (Pending.mem_remove_active other).2) id

theorem CallMove.sparesStaged (move : CallMove s s') : Spares Pending.staged s s' :=
  move.spare (·.2) (fun other => (Pending.mem_remove_staged other).2) (List.mem_cons_of_mem _)

theorem Calls.sparesActive (calls : Calls s s') : Spares Pending.active s s' := by
  induction calls with
  | refl => exact .refl s
  | tail _ move ih => exact ih.trans move.sparesActive

theorem Calls.sparesStaged (calls : Calls s s') : Spares Pending.staged s s' := by
  induction calls with
  | refl => exact .refl s
  | tail _ move ih => exact ih.trans move.sparesStaged

theorem Warned.spares (warned : Warned s s') : Spares Pending.active s s' := by
  rcases warned with rfl | ⟨count, calls⟩
  · exact .refl _
  · exact (Spares.announce s _).trans calls.sparesActive

/-! ## Looking after transactions -/

namespace Act

theorem tell_spares (e : Event) : Ends (tell e) s fun _ s' => Spares Pending.staged s s' :=
  (tell_calls e).imp fun _ _ calls => (Spares.announce s e).trans calls.sparesStaged

omit [Environment σ] in
theorem forM_spares {α : Type} {f : α → Act σ Unit}
    (each : ∀ (a : α) (s : System σ), Ends (f a) s fun _ s' => Spares Pending.staged s s')
    (as : List α) : Ends (as.forM f) s fun _ s' => Spares Pending.staged s s' :=
  forM_keep (fun a _ s₁ spares => (each a s₁).imp fun _ _ later => spares.trans later) (.refl s)

theorem expire_spares (t : Transaction) :
    Ends (expire t) s fun _ s' => Spares Pending.staged s s' := by
  unfold expire
  rw [ends_bind, ends_takeListed]
  have taken : Spares Pending.staged s (s.change fun c =>
      { c with subscriptions := c.subscriptions.dropRequest t.packetId }) := .of_log rfl rfl rfl
  refine (forM_spares (fun (subject : Subject) s => ?_) _).imp fun _ _ told => taken.trans told
  split
  · exact tell_spares _
  · exact tell_spares _

theorem carryActions_spares (actions : List Action) (failure : Option Error) :
    Ends (carryActions failure actions) s fun _ s' => Spares Pending.staged s s' := by
  induction actions generalizing s failure with
  | nil => exact .refl s
  | cons a rest ih =>
    have next {s₁ : System σ} (first : Spares Pending.staged s s₁) (failure : Option Error) :
        Ends (carryActions failure rest) s₁ fun _ s' => Spares Pending.staged s s' :=
      (ih failure).imp fun _ _ later => first.trans later
    cases a with
    | warn kind id retries =>
      rw [carryActions, ends_bind]
      exact (tell_spares _).imp fun _ _ told => next told failure
    | expire t =>
      rw [carryActions, ends_bind]
      exact (expire_spares t).imp fun _ _ expired => next expired failure
    | resend kind id retries packet =>
      cases failure with
      | some e => exact next (.refl s) (some e)
      | none =>
        have sent : Spares Pending.staged s (s.afterSend packet) := .afterSend s packet
        rw [carryActions, ends_bind, try_transmit]
        cases s.sendResult packet with
        | error e => exact next sent _
        | ok u =>
          dsimp only
          rw [ends_bind]
          exact (tell_spares _).imp fun _ _ told => next (sent.trans told) none

/-- A look at the transactions leaves the staged ones to the application. -/
theorem scan_spares (force : Bool) :
    Ends (scan force) s fun _ s' => Spares Pending.staged s s' := by
  unfold scan
  rw [ends_bind, ends_client, ends_bind, ends_now, ends_bind, ends_draw]
  have looked (now limit : UInt32) (outside : σ) : Spares Pending.staged s
      ((s.shift outside).change fun c =>
        { c with pending := (c.pending.scan now limit force).2 }) :=
    ⟨id, List.suffix_refl _, fun _ t member => Or.inl (by
      rw [System.change_client, Pending.scan_staged]; exact member)⟩
  exact (carryActions_spares _ none).imp fun _ _ carried => (looked _ _ _).trans carried

end Act

/-! ## Answers -/

/-- Whether events were told one after the other, and the filters at most changed in
between. -/
inductive Tells : List Event → System σ → System σ → Prop
  | done (s : System σ) : Tells [] s s
  | filed {s s' : System σ} {events : List Event} (subscriptions : Subscriptions) :
    Tells events (s.change fun c => { c with subscriptions }) s' → Tells events s s'
  | told {s s₁ s' : System σ} {e : Event} {events : List Event} :
    Calls (s.announce e) s₁ → Tells events s₁ s' → Tells (e :: events) s s'

/-- What comes of acting on an acknowledgement once it took its transaction. -/
inductive Completes (p : Inbound) (t : Transaction) (s : System σ) :
    Except Error Unit → System σ → Prop
  /-- The broker has the message for good, of which the application is told. -/
  | published {s' : System σ} : t.awaits = .pubAck ∨ t.awaits = .pubComp →
    Calls ((s.change (·.without t.awaits t.packetId)).announce
      (.published t.subject.topic t.subject.qos t.packetId)) s' →
    Completes p t s (.ok ()) s'
  /-- The broker has the message, and the end of the handshake is waited for in the place of
  it and asked for. -/
  | advanced (outside : σ) {s₁ : System σ} (began : UInt32) : t.awaits = .pubRec →
    Warned ((s.shift outside).change fun c =>
      (c.without .pubRec t.packetId).keep (c.ending began t t.packetId)) s₁ →
    Completes p t s (s₁.sendResult (Packet.ack .pubRel t.packetId))
      (s₁.afterSend (Packet.ack .pubRel t.packetId))
  /-- The broker answered the request, and the application is told of every filter of it. -/
  | answered {codes : Bytes} {s' : System σ} :
    p.verdict? = some ((t.awaits, t.packetId), codes) →
    Tells ((s.client.petition t.awaits t.packetId).verdicts (.answered codes))
      ((s.change (·.without t.awaits t.packetId)).change fun c =>
        { c with subscriptions := c.subscriptions.dropRequest t.packetId }) s' →
    Completes p t s (.ok ()) s'

namespace Act

/-- Actions that each tell of an event tell of all of them. -/
theorem forM_tells {α : Type} {f : α → Act σ Unit} {event : α → Event}
    (each : ∀ (a : α) (s : System σ), Ends (f a) s fun _ s₁ => ∀ events s',
      Tells events s₁ s' → Tells (event a :: events) s s') (as : List α) :
    Ends (as.forM f) s fun _ s' => Tells (as.map event) s s' := by
  induction as generalizing s with
  | nil => exact .done s
  | cons a as ih =>
    change Ends (f a >>= fun _ => as.forM f) s _
    rw [ends_bind]
    exact (each a s).imp fun _ s₁ first => ih.imp fun _ s' later => first _ s' later

theorem tell_tells (e : Event) : Ends (tell e) s fun _ s₁ => ∀ events s',
    Tells events s₁ s' → Tells (e :: events) s s' :=
  (tell_calls e).imp fun _ _ calls _ _ later => .told calls later

theorem settle_tells (q : Petition) (subject : Subject) (code : UInt8) :
    Ends (settle q.id subject code) s fun _ s₁ => ∀ events s',
      Tells events s₁ s' → Tells (q.verdict subject.topic code :: events) s s' := by
  unfold settle Petition.verdict
  cases Qos.ofByte? code with
  | none => exact tell_tells _
  | some qos =>
    rw [ends_bind, ends_update, ends_bind]
    refine (tell_calls _).imp fun _ s₁ calls => ?_
    rw [ends_update]
    exact fun events s' later => .filed _ (.told calls (.filed _ later))

theorem onSubAck_tells {id : UInt16} {codes : Bytes} {t : Transaction}
    (taken : (s.client.pending.take .subAck id).1 = some t) :
    Ends (onSubAck id codes) s fun _ s' =>
      Tells ((s.client.petition .subAck id).verdicts (.answered codes))
        ((s.change (·.without .subAck id)).change fun c =>
          { c with subscriptions := c.subscriptions.dropRequest id }) s' := by
  have entries := s.client.petition_entries .subAck id
  unfold onSubAck
  rw [ends_bind, ends_take, taken]
  dsimp only
  rw [ends_bind, ends_takeListed, System.change_client, Client.without]
  dsimp only
  rw [← entries]
  split
  next same =>
    rw [Petition.verdicts_granted rfl same]
    exact forM_tells (fun answer _ =>
      settle_tells (s.client.petition .subAck id) answer.1 answer.2) _
  next apart =>
    rw [Petition.verdicts_refused rfl apart]
    exact forM_tells (fun (subject : Subject) _ => tell_tells _) _

theorem onUnsubAck_tells {id : UInt16} {codes : Bytes} {t : Transaction}
    (taken : (s.client.pending.take .unsubAck id).1 = some t) :
    Ends (onUnsubAck id) s fun _ s' =>
      Tells ((s.client.petition .unsubAck id).verdicts (.answered codes))
        ((s.change (·.without .unsubAck id)).change fun c =>
          { c with subscriptions := c.subscriptions.dropRequest id }) s' := by
  have entries := s.client.petition_entries .unsubAck id
  unfold onUnsubAck
  rw [ends_bind, ends_take, taken]
  dsimp only
  rw [ends_bind, ends_takeListed, System.change_client, Client.without]
  dsimp only
  rw [← entries, Petition.verdicts_dropped rfl]
  refine forM_tells (fun subject s => ?_) _
  rw [ends_bind, ends_update]
  exact (tell_calls _).imp fun _ _ calls events s' later => .filed _ (.told calls later)

/-- An acknowledgement that finds its transaction takes it, and completes it or takes it one
step on. -/
theorem dispatch_completes {t : Transaction}
    (answers : p.answers? = some (t.awaits, t.packetId))
    (taken : (s.client.pending.take t.awaits t.packetId).1 = some t) :
    Ends (dispatch p).run s (Completes p t s) := by
  have decoded {kind : AckKind}
      (acked : (Packet.decodeAck p.body).toOption.map (kind, ·) = some (t.awaits, t.packetId)) :
      Packet.decodeAck p.body = .ok t.packetId ∧ t.awaits = kind := by
    obtain ⟨id, read, same⟩ := Option.map_eq_some_iff.1 acked
    obtain ⟨rfl, rfl⟩ := Prod.mk.inj same
    exact ⟨ok_of_toOption read, rfl⟩
  have published (which : t.awaits = .pubAck ∨ t.awaits = .pubComp) :
      Ends (lift (onPublished t.awaits t.packetId) : Try σ Unit).run s (Completes p t s) := by
    unfold onPublished
    rw [try_lift, ends_bind, ends_take, taken]
    exact (tell_calls _).imp fun _ _ calls => .published which calls
  have listed (answered : p.verdict?.map (·.1) = some (t.awaits, t.packetId)) :
      Ends (dispatch p).run s (Completes p t s) := by
    obtain ⟨⟨key, codes⟩, verdict, same⟩ := Option.map_eq_some_iff.1 answered
    dsimp only at same
    subst same
    rcases dispatch_verdict (σ := σ) verdict with ⟨kind, acted⟩ | ⟨kind, acted⟩
    all_goals
      dsimp only at kind acted
      rw [kind] at taken
      rw [acted, try_lift]
    · exact (onSubAck_tells taken).imp fun _ _ tells =>
        .answered verdict (by rw [kind]; exact tells)
    · exact (onUnsubAck_tells taken).imp fun _ _ tells =>
        .answered verdict (by rw [kind]; exact tells)
  unfold Inbound.answers? at answers
  split at answers
  next named =>
    obtain ⟨read, kind⟩ := decoded answers
    rw [dispatch, named]
    dsimp only
    rw [read, ← kind]
    exact published (Or.inl kind)
  next named =>
    obtain ⟨read, kind⟩ := decoded answers
    rw [dispatch, named]
    dsimp only
    rw [read]
    change Ends (onPubRec t.packetId).run s _
    rw [kind] at taken
    unfold onPubRec
    dsimp only
    rw [try_bind, try_lift, ends_take, taken]
    dsimp only
    rw [try_bind, try_lift]
    refine (track_warned _ _ _ _).imp fun _ s₁ kept => ?_
    obtain ⟨outside, began, warned⟩ := kept
    rw [try_transmit]
    exact .advanced outside began kind warned
  next named =>
    obtain ⟨read, kind⟩ := decoded answers
    rw [dispatch, named]
    dsimp only
    rw [read, ← kind]
    exact published (Or.inr kind)
  · exact listed answers
  · exact listed answers
  · cases answers

end Act

end Moves

/-! ## Where looks take place -/

variable [Environment σ] {s t : System σ}

/-- Where an input has the thread look at the transactions, and whether it looks at all that
are not requests about filters. -/
inductive Looks (s : System σ) : Input σ → Bool → System σ → Prop
  /-- No packet came in time. -/
  | idle {reader : Frame.Reader} {given : Except Transport.Error Bytes} {elapsed : Nat} :
    s.client.place = .listening reader → reader.receive given elapsed = .nothing →
    Looks s (.heard given elapsed) false (Act.readEnded.run s).2
  /-- A packet of the session was acted on. -/
  | attended {reader : Frame.Reader} {given : Except Transport.Error Bytes} {elapsed : Nat}
    {p : Inbound} {result : Except Error Unit} {t : System σ} :
    s.client.place = .listening reader → reader.receive given elapsed = .packet p →
    (Act.dispatch p).run.run (s.reading p) = (result, t) → ¬ LosesSession result →
    Looks s (.heard given elapsed) false t
  /-- The broker accepted the session. -/
  | opened {reader : Frame.Reader} {given : Except Transport.Error Bytes} {elapsed : Nat}
    {p : Inbound} {sessionPresent : Bool} :
    s.client.place = .greeting reader → reader.receive given elapsed = .packet p →
    Act.greetingStatus p = .ok sessionPresent →
    Looks s (.heard given elapsed) true (Act.migrate.run (s.reading p).opening).2

/-- The rest of the input begins with the look. -/
theorem Looks.scans {input : Input σ} {force : Bool} (looks : Looks s input force t) :
    ∃ rest : Option Error → Act σ Unit, s.take input = ((Act.scan force >>= rest).run t).2 := by
  cases looks with
  | idle here read => exact ⟨_, take_idled here read⟩
  | @attended reader given elapsed p result t here read acted goesOn =>
    have ended : (Act.attend p).Ends (s.reading p) fun _ s' => s' = (Act.tend.run t).2 := by
      unfold Act.attend
      rw [Act.ends_bind]
      unfold Act.Ends
      rw [acted]
      cases result with
      | ok u => rfl
      | error e =>
        have mild : ¬ e.isFatal = true := goesOn
        dsimp only
        rw [if_neg mild]
    exact ⟨_, (take_heard here read).trans ended⟩
  | @opened reader given elapsed p sessionPresent here read status =>
    have opened : (Act.openSession sessionPresent).Ends (s.reading p) fun _ s' =>
        s.take (.heard given elapsed) = s' := take_greeted here read status
    unfold Act.openSession at opened
    rw [Act.ends_bind, Act.ends_client, Act.ends_bind, Act.ends_now, Act.ends_bind,
      Act.ends_update, Act.ends_bind] at opened
    exact ⟨_, opened⟩

/-- Wherever the thread looks at the transactions, steps led there, and it is between two
places. -/
theorem Looks.reached {input : Input σ} {force : Bool} (looks : Looks s input force t)
    (ordered : Ordered s) (sane : s.client.pending.Sane) : Steps s t ∧ t.Busy := by
  cases looks with
  | idle here =>
    have ended := ordered.readEnded sane (Or.inr here)
    exact ⟨ended.walk.steps, ended.busy⟩
  | @attended reader given elapsed p result t here read acted goesOn =>
    have warned := reading_warned s p
    obtain ⟨busy, -, sane'⟩ := warned.good ordered sane here
    rw [← (afterDispatch_of_run acted).1 goesOn]
    exact ⟨.single (.attended p here warned), (afterDispatch_busy busy sane' p).1⟩
  | @opened reader given elapsed p sessionPresent here read =>
    have hailing : (s.reading p).Hailing false := (Starts.greeted here read).ready ordered sane
    have opening := (ordered.greeted sane here p).trans hailing.opened
    have migrated := opening.trans hailing.toAwake.opening.migrated
    exact ⟨migrated.walk.steps, migrated.busy⟩

theorem Looks.good {input : Input σ} {force : Bool} (looks : Looks s input force t)
    (reachable : Reachable s) : t.Busy ∧ t.client.pending.Sane := by
  obtain ⟨ordered, sane⟩ := reachable.good
  obtain ⟨steps, busy⟩ := looks.reached ordered sane
  exact ⟨busy, (steps.good ordered sane).2⟩

/-- **Staging.**  If, when the last octet of a well-formed acknowledgement is read, a
transaction waits for it, staged or active, then either the application gives it up before
the client turns to the acknowledgement, or the client takes it and completes it or takes it
one step on.  And where the client looks at its transactions, nothing that it then sends
again, warns of or lets expire is about a staged one, and all the while each staged one stays
as it is unless the application gives it up. -/
theorem answers_meet (reachable : Reachable s) :
    (∀ {reader : Frame.Reader} {given : Except Transport.Error Bytes} {elapsed : Nat} {p : Inbound}
        {kind : AckKind} {id : UInt16} {t : Transaction},
      s.client.place = .listening reader → reader.receive given elapsed = .packet p →
      p.answers? = some (kind, id) → t ∈ s.client.pending.all → t.isFor kind id = true →
      s.take (.heard given elapsed) = ((Act.attend p).run (s.reading p)).2 ∧
        (GivenUp kind id s (s.reading p) ∨
          ((s.reading p).client.pending.take kind id).1 = some t ∧
            Act.Ends (Act.dispatch p).run (s.reading p) (Completes p t (s.reading p)))) ∧
    (∀ {input : Input σ} {force : Bool} {t : System σ}, Looks s input force t →
      (∃ rest : Option Error → Act σ Unit, s.take input = ((Act.scan force >>= rest).run t).2) ∧
      (∀ (now limit : UInt32), ∀ action ∈ (t.client.pending.scan now limit force).1,
        ∀ u ∈ t.client.pending.staged, action.about ≠ (u.awaits, u.packetId)) ∧
      Act.Ends (Act.scan force) t fun _ t' => ∀ u ∈ t.client.pending.staged,
        u ∈ t'.client.pending.staged ∨ GivenUp u.awaits u.packetId t t') := by
  obtain ⟨ordered, sane⟩ := reachable.good
  constructor
  · intro reader given elapsed p kind id t here read answers waits fits
    obtain ⟨rfl, rfl⟩ := Transaction.isFor_iff.1 fits
    refine ⟨take_heard here read, ?_⟩
    have begun : (s.accept p).client.phase ≠ .init :=
      ordered.begun (here.trans_ne Place.noConfusion)
    -- what is staged becomes active before the client turns to the packet
    have active : t ∈ (s.accept p).client.pending.active := by
      change t ∈ s.client.pending.migrate.2.active
      rw [Pending.migrate_of_distinct sane.distinct]
      exact waits
    rcases (reading_warned s p).spares.kept begun t active with still | given
    · have taken := (reachable.reading here p).2.2.1.distinct.take_eq still
      exact Or.inr ⟨taken, Act.dispatch_completes answers taken⟩
    · exact Or.inl (given.earlier (List.suffix_cons _ _))
  · intro input force t looks
    obtain ⟨busy, sane'⟩ := looks.good reachable
    refine ⟨looks.scans, fun _ _ _ asked _ staged => sane'.distinct.about_ne asked staged, ?_⟩
    exact (Act.scan_spares force).imp fun _ _ spares u staged => spares.kept busy.2 u staged

/-- A client that published a message when half of the answer had already come, and that
publishes another as soon as it is told of the first. -/
def midway : System Script :=
  inSession.takes
    [.heard (.ok [0x40, 2]) 0,
      .outside { rules := [⟨.published, fun _ => [.call (.publish "c" [8] .exactlyOnce false) 0],
        some 1⟩] },
      .call (.publish "a/b" [7] .atLeastOnce false)]

theorem answers_meet_midway :
    let p : Inbound := ⟨.pubAck, 0, [0, 1]⟩
    let t := ((Act.dispatch p).run.run (midway.reading p)).2
    (∃ u ∈ midway.client.pending.staged,
      Act.Ends (Act.dispatch p).run (midway.reading p) (Completes p u (midway.reading p))) ∧
      t.client.pending.staged.map (·.packetId) = [2] ∧
      Act.Ends (Act.scan false) t fun _ t' => ∀ u ∈ t.client.pending.staged,
        u ∈ t'.client.pending.staged ∨ GivenUp u.awaits u.packetId t t' := by
  intro p t
  have reachable : Reachable midway := inSession_reachable.takes _
  have here : midway.client.place =
      .listening ⟨65536, 4000, .body ⟨.pubAck, 0, 2⟩ [] 2⟩ := by decide +kernel
  obtain ⟨u, staged⟩ : ∃ u, midway.client.pending.staged = [u] :=
    List.length_eq_one_iff.1 (by decide +kernel)
  have member : u ∈ midway.client.pending.staged := staged ▸ List.mem_cons_self
  have fits : u.isFor .pubAck 1 = true := by
    have all : midway.client.pending.staged.all (·.isFor .pubAck 1) = true := by decide +kernel
    exact List.all_eq_true.1 all u member
  have acted : ((Act.dispatch p).run.run (midway.reading p)).1 = .ok () :=
    Act.ok_of_toOption (by decide +kernel)
  have kept : ¬ GivenUp .pubAck 1 midway (midway.reading p) := by
    rintro ⟨new, log, topic, client, told, given⟩
    have read : (midway.reading p).log = [.received p] ++ midway.log := by decide +kernel
    obtain rfl := List.append_cancel_right (log.symm.trans read)
    cases List.mem_singleton.1 given
  obtain ⟨meets, looks⟩ := answers_meet reachable
  refine ⟨⟨u, member, ?_⟩, by decide +kernel, ?_⟩
  · have read : Frame.Reader.receive ⟨65536, 4000, .body ⟨.pubAck, 0, 2⟩ [] 2⟩ (.ok [0, 1]) 0 =
        .packet p := rfl
    have met := (meets here read rfl (Pending.mem_all.2 (Or.inr member)) fits).2
    exact (met.resolve_left kept).2
  · have look : Looks midway (.heard (.ok [0, 1]) 0) false t :=
      .attended here rfl (Prod.ext acted rfl) id
    exact (looks look).2.2

end Mqtt
