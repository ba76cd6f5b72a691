import Mqtt.Proofs.Requests

/-!
# Granted filters, as a log tells of them

Which filters the broker granted the events of a log say (`Entry.roll`).  The granted
filters of a client are those, each of them once, whenever the thread is done with what it
last read (`Reachable.enrolled`).
-/

namespace Mqtt

/-- A map of filters to guarantees. -/
abbrev Roll :=
  String → Option Qos

namespace Roll

def set (r : Roll) (topic : String) (entry : Option Qos) : Roll :=
  fun other => if other = topic then entry else r other

/-- The map after an event: a filter that it says was granted is in it, and one that it
says was dropped is not. -/
def after (r : Roll) : Event → Roll
  | .subscribed topic qos _ => r.set topic (some qos)
  | .unsubscribed topic _ => r.set topic none
  | _ => r

end Roll

/-- The map of the filters that were granted and not dropped by a log. -/
def Entry.roll : List Entry → Roll
  | [] => fun _ => none
  | .raised event _ _ :: earlier => (roll earlier).after event
  | _ :: earlier => roll earlier

/-- The granted filters of a client, as a map. -/
def Subscriptions.roll (s : Subscriptions) : Roll :=
  fun topic => s.granted.lookup topic

/-- Only what became of filters matters to the map of a log. -/
theorem Entry.roll_eq (log : List Entry) :
    roll log = (outcomes log).foldl Roll.after fun _ => none := by
  induction log with
  | nil => rfl
  | cons e earlier ih =>
    rw [outcomes, List.foldl_append, ← ih]
    cases e with
    | raised event client told => cases event <;> rfl
    | _ => rfl

/-! ## Granted filters -/

namespace Subscriptions

variable {s : Subscriptions} {topic : String}

theorem granted_addAll {new : List Subject} (open_ : ∀ e ∈ new, e.isConfirmed = false) :
    (s.addAll new).granted = s.granted := by
  have none : new.filter Subject.isConfirmed = [] :=
    List.filter_eq_nil_iff.2 fun e member => by rw [open_ e member]; exact Bool.false_ne_true
  unfold granted addAll
  rw [List.filter_append, none, List.append_nil]

theorem granted_dropRequest (id : UInt16) : (s.dropRequest id).granted = s.granted := by
  unfold granted dropRequest
  rw [List.filter_filter]
  congr 1
  apply List.filter_congr
  intro e _
  cases own : e.request <;> simp [Subject.isConfirmed, own]

theorem granted_add_confirm (subject : Subject) (qos : Qos) :
    (s.add (subject.confirm qos)).granted = s.granted ++ [(subject.topic, qos)] := by
  unfold granted add addAll
  rw [List.filter_append, List.map_append]
  rfl

theorem granted_dropGranted (topic : String) :
    (s.dropGranted topic).granted = s.granted.filter (·.1 != topic) := by
  unfold granted dropGranted
  rw [List.filter_map, List.filter_filter, List.filter_filter]
  congr 1
  apply List.filter_congr
  intro e _
  cases own : e.isConfirmed
  · simp
  · simp [bne]

theorem granted_remove (topic : String) :
    (s.remove topic).granted = s.granted.eraseP (·.1 == topic) := by
  unfold granted remove
  induction s.entries with
  | nil => rfl
  | cons e es ih =>
    rw [List.eraseP_cons, List.filter_cons]
    cases own : e.isConfirmed with
    | false => simpa [own] using ih
    | true =>
      cases same : e.topic == topic with
      | false => simpa [own, same] using ih
      | true => simp [same]

/-- Whether the granted filters are those of a map, each of them once. -/
structure Rolls (s : Subscriptions) (r : Roll) : Prop where
  once : (s.granted.map Prod.fst).Nodup
  roll : s.roll = r

namespace Rolls

variable {r : Roll}

theorem of_granted {s' : Subscriptions} (h : s.Rolls r) (same : s'.granted = s.granted) :
    s'.Rolls r := by
  refine ⟨same ▸ h.once, ?_⟩
  rw [← h.roll]
  unfold Subscriptions.roll
  rw [same]

/-- Of a list of filters without one of them, the others are as before. -/
theorem lookup_filter (granted : List (String × Qos)) (topic other : String) :
    (granted.filter (·.1 != topic)).lookup other =
      if other = topic then none else granted.lookup other := by
  induction granted with
  | nil => simp
  | cons first rest ih =>
    rw [List.filter_cons, List.lookup_cons]
    by_cases dropped : first.1 = topic
    · rw [if_neg (by simpa using dropped), ih]
      by_cases same : other = topic
      · rw [if_pos same, if_pos same]
      · rw [if_neg same, if_neg same, beq_false_of_ne (dropped ▸ same)]
    · rw [if_pos (by simpa using dropped), List.lookup_cons, ih]
      by_cases same : other = topic
      · rw [if_pos same, if_pos same, beq_false_of_ne (same ▸ Ne.symm dropped)]
      · rw [if_neg same, if_neg same]

theorem dropGranted (h : s.Rolls r) (topic : String) :
    (s.dropGranted topic).Rolls (r.set topic none) := by
  refine ⟨?_, funext fun other => ?_⟩
  · rw [granted_dropGranted]
    exact h.once.sublist (List.filter_sublist.map _)
  · unfold Subscriptions.roll Roll.set
    rw [granted_dropGranted, lookup_filter, ← h.roll]
    rfl

/-- With each filter granted once, to drop the first grant of one is to drop them all. -/
theorem remove (h : s.Rolls r) (topic : String) : (s.remove topic).Rolls (r.set topic none) := by
  refine (h.dropGranted topic).of_granted ?_
  rw [granted_remove, granted_dropGranted, eraseP_eq_filter h.once]

/-- What is granted for a filter that is not in the map is in it from then on. -/
theorem add_confirm {subject : Subject} (h : s.Rolls (r.set subject.topic none)) (qos : Qos) :
    (s.add (subject.confirm qos)).Rolls (r.set subject.topic (some qos)) := by
  have absent : s.granted.lookup subject.topic = none :=
    (congrFun h.roll subject.topic).trans (if_pos rfl)
  refine ⟨?_, funext fun other => ?_⟩
  · rw [granted_add_confirm, List.map_append, List.nodup_append]
    refine ⟨h.once, List.nodup_singleton _, fun topic member other last => ?_⟩
    obtain ⟨e, among, rfl⟩ := List.mem_map.1 member
    obtain rfl := List.mem_singleton.1 last
    exact bne_iff_ne.1 (List.lookup_eq_none_iff.1 absent e among) ∘ Eq.symm
  · have before : s.granted.lookup other = r.set subject.topic none other := congrFun h.roll other
    unfold Subscriptions.roll
    rw [granted_add_confirm, List.lookup_append, before]
    unfold Roll.set
    by_cases same : other = subject.topic
    · rw [if_pos same, if_pos same, List.lookup_cons, beq_iff_eq.2 same]
      rfl
    · rw [if_neg same, if_neg same, List.lookup_cons, beq_false_of_ne same]
      exact Option.or_none

end Rolls

end Subscriptions

/-! ## Moves that grant nothing -/

variable {σ : Type}

/-- Whether a move changes neither which filters are granted nor what the log tells of
them. -/
structure Steady (s s' : System σ) : Prop where
  granted : s'.client.subscriptions.granted = s.client.subscriptions.granted
  outcomes : Entry.outcomes s'.log = Entry.outcomes s.log

/-- Whether the granted filters of a client are those that its log tells of. -/
def Enrolled (s : System σ) : Prop :=
  s.client.subscriptions.Rolls (Entry.roll s.log)

theorem Entry.outcomes_cons {e : Entry} (log : List Entry) (quiet : e.outcome? = none) :
    outcomes (e :: log) = outcomes log := by
  rw [outcomes, quiet]
  exact List.append_nil _

theorem Writes.outcomes {s s' : System σ} (h : Writes (fun e => e.outcome? = none) s s') :
    Entry.outcomes s'.log = Entry.outcomes s.log :=
  h.keep (I := fun log => Entry.outcomes log = Entry.outcomes s.log)
    (fun quiet same => (Entry.outcomes_cons _ quiet).trans same) rfl

namespace Steady

variable {s s' s'' : System σ}

theorem refl (s : System σ) : Steady s s :=
  ⟨rfl, rfl⟩

theorem trans (first : Steady s s') (later : Steady s' s'') : Steady s s'' :=
  ⟨later.granted.trans first.granted, later.outcomes.trans first.outcomes⟩

/-- The map that the log tells of rests on what became of filters. -/
theorem roll (steady : Steady s s') : Entry.roll s'.log = Entry.roll s.log := by
  rw [Entry.roll_eq, steady.outcomes, ← Entry.roll_eq]

theorem enrolled (steady : Steady s s') (h : Enrolled s) : Enrolled s' := by
  unfold Enrolled
  rw [steady.roll]
  exact h.of_granted steady.granted

theorem announce (s : System σ) {e : Event} (quiet : e.isOutcome = false) :
    Steady s (s.announce e) := by
  refine ⟨rfl, Entry.outcomes_cons s.log ?_⟩
  exact if_neg (by rw [quiet]; exact Bool.false_ne_true)

theorem close (s : System σ) : Steady s s.close :=
  ⟨by simp, Writes.outcomes (.close s rfl)⟩

theorem afterSend [Environment σ] (s : System σ) (bs : Bytes) : Steady s (s.afterSend bs) :=
  ⟨by simp, Writes.outcomes (.afterSend s fun _ _ => rfl)⟩

end Steady

variable [Environment σ] {s s' : System σ}

theorem CallMove.steady (move : CallMove s s')
    (early : s.client.phase = .init → s.client.subscriptions.granted = []) : Steady s s' := by
  cases move with
  | remarked e remark => exact ⟨rfl, Entry.outcomes_cons s.log remark.inert.1⟩
  | released _ init => exact ⟨(early init).symm ▸ rfl, (Steady.close s).outcomes⟩
  | @discarded awaits id =>
    refine ⟨?_, List.append_nil _⟩
    change (s.client.giveUp awaits id).subscriptions.granted = _
    unfold Client.giveUp
    dsimp only
    split
    · exact Subscriptions.granted_dropRequest id
    · rfl
  | @requested r id packet began =>
    have open_ := Petition.entries_open (p := ⟨0, r.awaits, id, r.listed⟩)
    have registered : Steady s (s.change fun c =>
        (c.passOver id).register began r.awaits id packet r.subject r.listed) :=
      ⟨Subscriptions.granted_addAll open_, rfl⟩
    exact registered.trans (.afterSend _ packet)
  | @refused r id packet =>
    have passed : Steady s (s.change (·.passOver id)) := ⟨rfl, rfl⟩
    exact passed.trans (.afterSend _ packet)
  | sent => exact .afterSend s _
  | undone => exact ⟨rfl, List.append_nil _⟩
  | _ => exact ⟨rfl, rfl⟩

theorem Calls.steady (calls : Calls s s') (busy : s.Busy) : Steady s s' := by
  induction calls with
  | refl => exact .refl s
  | tail calls move ih =>
    exact ih.trans (move.steady fun init => absurd init (Calls.busy calls busy).2)

theorem QuietMove.steady (move : QuietMove s s') (busy : s.Busy) : Steady s s' := by
  cases move with
  | call move => exact move.steady fun init => absurd init busy.2
  | told _ quiet => exact .announce s quiet
  | pulsed | migrated => exact ⟨rfl, rfl⟩
  | pinged => exact .afterSend s _

theorem ThreadMove.steady (move : ThreadMove s s') (here : s'.client.place ≠ .exited) :
    Steady s s' := by
  cases move with
  | turn busy move => exact move.steady busy
  | dialled => exact Steady.trans (.close s) ⟨rfl, List.append_nil _⟩
  | closed => exact .close s
  | obeyed | opened | greeted => exact ⟨rfl, List.append_nil _⟩
  | saluted => exact Steady.trans (.afterSend s _) ⟨rfl, rfl⟩
  | parted => exact Steady.trans (.afterSend s _) (.close _)
  | left => exact absurd rfl here
  | _ => exact ⟨rfl, rfl⟩

/-- What is done with a packet that answers no request grants nothing. -/
theorem TurnMove.steady {p : Inbound} (move : TurnMove (some p) s s') (other : ¬ p.IsVerdict)
    (busy : s.Busy) : Steady s s' := by
  cases move with
  | call move => exact move.steady fun init => absurd init busy.2
  | told _ _ apart =>
    exact .announce s (Bool.eq_false_iff.2 fun outcome => other (apart outcome p rfl))
  | filed _ _ verdict => exact absurd (verdict p rfl) other
  | delivered _ _ which => rcases which with rfl | rfl <;> exact .announce s rfl
  | completed => exact ⟨rfl, List.append_nil _⟩
  | replied => exact .afterSend s _
  | _ => exact ⟨rfl, rfl⟩

theorem Warned.steady (warned : Warned s s') (busy : s.Busy) : Steady s s' := by
  rcases warned with rfl | ⟨count, calls⟩
  · exact .refl _
  · have told : (s.announce (.pendingWarning count)).Busy := busy
    exact (Steady.announce s rfl).trans (calls.steady told)

/-! ## Ends of requests -/

namespace Act

/-- An event is told of, and the calls of callbacks grant nothing. -/
theorem tell_steady (e : Event) (busy : s.Busy) :
    Ends (tell e) s fun _ s' => s'.Busy ∧ Steady (s.announce e) s' :=
  have told : (s.announce e).Busy := busy
  (tell_calls e).imp fun _ _ calls => ⟨calls.busy told, calls.steady told⟩

theorem tell_enrolled {e : Event} (quiet : ∀ r : Roll, r.after e = r) (h : s.Busy ∧ Enrolled s) :
    Ends (tell e) s fun _ s' => s'.Busy ∧ Enrolled s' := by
  refine (tell_steady e h.1).imp fun _ s' ⟨busy, steady⟩ => ⟨busy, steady.enrolled ?_⟩
  have told : Entry.roll (s.announce e).log = Entry.roll s.log := quiet _
  unfold Enrolled
  rw [told]
  exact h.2

/-- A code that grants a filter puts it in the place of what was granted for it before. -/
theorem settle_enrolled (id : UInt16) (subject : Subject) (code : UInt8)
    (h : s.Busy ∧ Enrolled s) :
    Ends (settle id subject code) s fun _ s' => s'.Busy ∧ Enrolled s' := by
  unfold settle
  cases Qos.ofByte? code with
  | none => exact tell_enrolled (fun _ => rfl) h
  | some qos =>
    rw [ends_bind, ends_update, ends_bind]
    have dropped := h.2.dropGranted subject.topic
    let t := s.change fun c =>
      { c with subscriptions := c.subscriptions.dropGranted subject.topic }
    refine (tell_steady (s := t) _ h.1).imp fun _ s' ⟨busy, steady⟩ => ?_
    rw [ends_update]
    refine ⟨busy, ?_⟩
    have roll : Entry.roll s'.log = (Entry.roll s.log).set subject.topic (some qos) := steady.roll
    unfold Enrolled
    rw [System.change_log, roll]
    exact (dropped.of_granted steady.granted).add_confirm qos

theorem remove_enrolled (id : UInt16) (topic : String) (h : s.Busy ∧ Enrolled s) :
    Ends (do
      update fun c => { c with subscriptions := c.subscriptions.remove topic }
      tell (.unsubscribed topic id)) s fun _ s' => s'.Busy ∧ Enrolled s' := by
  rw [ends_bind, ends_update]
  let t := s.change fun c => { c with subscriptions := c.subscriptions.remove topic }
  refine (tell_steady (s := t) _ h.1).imp fun _ s' ⟨busy, steady⟩ => ⟨busy, steady.enrolled ?_⟩
  exact h.2.remove topic

end Act

/-! ## Looks -/

/-- What is kept by all that a look at the transactions leads to. -/
structure KeptByLooks (I : System σ → Prop) : Prop where
  told : ∀ {s : System σ} {e : Event}, (∀ r : Roll, r.after e = r) → I s →
    (Act.tell e).Ends s fun _ s' => I s'
  dropped : ∀ {s : System σ} (id : UInt16), I s →
    I (s.change fun c => { c with subscriptions := c.subscriptions.dropRequest id })
  sent : ∀ {s : System σ} (packet : Bytes), I s → I (s.afterSend packet)
  looked : ∀ {s : System σ} (outside : σ) (look : Pending → Pending), I s →
    I ((s.shift outside).change fun c => { c with pending := look c.pending })

namespace KeptByLooks

open Act

variable {I : System σ → Prop}

theorem expire (kept : KeptByLooks I) (t : Transaction) (h : I s) :
    Ends (Act.expire t) s fun _ s' => I s' := by
  unfold Act.expire
  rw [ends_bind, ends_takeListed]
  refine forM_keep (fun subject _ s h => ?_) (kept.dropped t.packetId h)
  split
  · exact kept.told (fun _ => rfl) h
  · exact kept.told (fun _ => rfl) h

theorem carryActions (kept : KeptByLooks I) (failure : Option Error) (actions : List Action)
    (h : I s) : Ends (Act.carryActions failure actions) s fun _ s' => I s' := by
  induction actions generalizing s failure with
  | nil => exact h
  | cons a actions ih =>
    cases a with
    | warn kind id retries =>
      rw [Act.carryActions, ends_bind]
      exact (kept.told (fun _ => rfl) h).imp fun _ _ => ih failure
    | expire t =>
      rw [Act.carryActions, ends_bind]
      exact (kept.expire t h).imp fun _ _ => ih failure
    | resend kind id retries packet =>
      cases failure with
      | some e => exact ih (some e) h
      | none =>
        have sent := kept.sent packet h
        rw [Act.carryActions, ends_bind, try_transmit]
        cases s.sendResult packet with
        | error e => exact ih _ sent
        | ok u =>
          dsimp only
          rw [ends_bind]
          exact (kept.told (fun _ => rfl) sent).imp fun _ _ => ih none

theorem scan (kept : KeptByLooks I) (force : Bool) (h : I s) :
    Ends (Act.scan force) s fun _ s' => I s' := by
  unfold Act.scan
  rw [ends_bind, ends_client, ends_bind, ends_now, ends_bind, ends_draw]
  refine kept.carryActions none _ (kept.looked (Environment.now s.outside).2 (fun pending =>
    (pending.scan (Environment.now s.outside).1 s.client.config.retryWarning force).2) h)

end KeptByLooks

/-! ## Answers -/

/-- What is kept by all that an answer to a request about filters leads to, if all filters in
the registry are of a kind. -/
structure KeptByAnswers (P : Subject → Prop) (I : System σ → Prop) : Prop extends
    KeptByLooks I where
  listed : ∀ {s : System σ}, I s → ∀ subject ∈ s.client.subscriptions.entries, P subject
  taken : ∀ {s : System σ} (kind : AckKind) (id : UInt16), I s → I (s.change (·.without kind id))
  settled : ∀ {s : System σ} {subject : Subject} (id : UInt16) (code : UInt8), P subject → I s →
    (Act.settle id subject code).Ends s fun _ s' => I s'
  removed : ∀ {s : System σ} (id : UInt16) (topic : String), I s →
    Act.Ends (do
      Act.update fun c => { c with subscriptions := c.subscriptions.remove topic }
      Act.tell (.unsubscribed topic id)) s fun _ s' => I s'

namespace KeptByAnswers

open Act

variable {P : Subject → Prop} {I : System σ → Prop}

theorem onSubAck (kept : KeptByAnswers P I) (id : UInt16) (codes : Bytes) (h : I s) :
    Ends (Act.onSubAck id codes) s fun _ s' => I s' := by
  unfold Act.onSubAck
  rw [ends_bind, ends_take]
  have taken := kept.taken .subAck id h
  split
  · rw [ends_bind, ends_takeListed]
    have own : ∀ subject ∈ s.client.subscriptions.ofRequest id, P subject := fun subject member =>
      kept.listed h subject (List.mem_filter.1 member).1
    split
    · refine forM_keep (fun (subject, code) member _ h => ?_) (kept.dropped id taken)
      exact kept.settled id code (own subject (List.of_mem_zip member).1) h
    · exact forM_keep (fun _ _ _ h => kept.told (fun _ => rfl) h) (kept.dropped id taken)
  · exact taken

theorem onUnsubAck (kept : KeptByAnswers P I) (id : UInt16) (h : I s) :
    Ends (Act.onUnsubAck id) s fun _ s' => I s' := by
  unfold Act.onUnsubAck
  rw [ends_bind, ends_take]
  have taken := kept.taken .unsubAck id h
  split
  · rw [ends_bind, ends_takeListed]
    exact forM_keep (fun subject _ _ h => kept.removed id subject.topic h) (kept.dropped id taken)
  · exact taken

/-- Acting on a packet keeps what answers keep, if what is done with any other packet does. -/
theorem afterDispatch (kept : KeptByAnswers P I) {p : Inbound}
    (other : ¬ p.IsVerdict → I (s.afterDispatch p)) (h : I s) : I (s.afterDispatch p) := by
  by_cases answers : p.IsVerdict
  · cases verdict : p.verdict? with
    | some answer =>
      obtain ⟨⟨kind, id⟩, codes⟩ := answer
      rcases Act.dispatch_verdict (σ := σ) verdict with ⟨rfl, acts⟩ | ⟨rfl, acts⟩
      · rw [System.afterDispatch, acts]
        exact kept.onSubAck id codes h
      · rw [System.afterDispatch, acts]
        exact kept.onUnsubAck id h
    | none =>
      rw [System.afterDispatch, Act.dispatch_undecoded answers verdict]
      exact h
  · exact other answers

end KeptByAnswers

/-- What an answer asks for, and what a look does, leaves the granted filters and what the log
tells of them in step. -/
theorem Enrolled.keptByAnswers :
    KeptByAnswers (fun _ => True) fun s : System σ => s.Busy ∧ Enrolled s where
  told quiet h := Act.tell_enrolled quiet h
  dropped id h := ⟨h.1, h.2.of_granted (Subscriptions.granted_dropRequest id)⟩
  sent packet h := ⟨h.1.afterSend packet, (Steady.afterSend _ packet).enrolled h.2⟩
  looked _ _ h := h
  listed _ _ _ := trivial
  taken _ _ h := h
  settled id code _ h := Act.settle_enrolled id _ code h
  removed id topic h := Act.remove_enrolled id topic h

/-- Acting on a packet keeps the granted filters and what the log tells of them in step. -/
theorem Enrolled.afterDispatch {p : Inbound} (h : Enrolled s) (busy : s.Busy) (ordered : Ordered s)
    (sane : s.client.pending.Sane) : Enrolled (s.afterDispatch p) := by
  have acted := (afterDispatch_busy busy sane p).1
  refine (Enrolled.keptByAnswers.afterDispatch (fun other => ⟨acted, ?_⟩) ⟨busy, h⟩).2
  exact (afterDispatch_hold (I := Enrolled) (J := Enrolled)
    (fun _ _ busy move => (move.steady other busy).enrolled)
    (fun _ _ _ _ _ => ((Steady.afterSend _ _).trans (.close _)).enrolled)
    (fun _ h => h) busy ordered sane h).2

/-! ## All runs -/

/-- Whether the granted filters of a client are those that its log tells of unless it is
gone; none are before it was started. -/
structure Rostered (s : System σ) : Prop where
  enrolled : s.client.place ≠ .exited → Enrolled s
  early : s.client.phase = .init → s.client.subscriptions.granted = []

theorem Step.rostered (step : Step s s') (ordered : Ordered s) (sane : s.client.pending.Sane)
    (h : Rostered s) : Rostered s' := by
  cases step with
  | call move =>
    have steady := move.steady h.early
    refine ⟨fun here => steady.enrolled (h.enrolled (move.stands.2 here)), fun init => ?_⟩
    exact steady.granted.trans (h.early (move.stands.1 init))
  | thread pace =>
    cases pace with
    | move move =>
      have stands := move.stands ordered
      exact ⟨fun here => (move.steady here).enrolled (h.enrolled stands.1),
        fun init => absurd init stands.2⟩
    | @looked failure force busy run turns =>
      have looked := Enrolled.keptByAnswers.scan force ⟨busy, h.enrolled busy.here⟩
      unfold Act.Ends at looked
      rw [run] at looked
      exact ⟨fun _ => looked.2, fun init => absurd init looked.1.2⟩
  | @attended s₁ reader p here warned =>
    have accepted := accept_busy ordered here p
    have enrolled : Enrolled (s.accept p) := h.enrolled (by rw [here]; exact Place.noConfusion)
    obtain ⟨busy, ordered', sane'⟩ := warned.good ordered sane here
    have read := (warned.steady accepted).enrolled enrolled
    have acted := (afterDispatch_busy busy sane' p).1
    exact ⟨fun _ => read.afterDispatch busy ordered' sane', fun init => absurd init acted.2⟩

theorem Reachable.enrolled (reachable : Reachable s) (here : s.client.place ≠ .exited) :
    Enrolled s := by
  have rostered : Rostered s := reachable.induct
    (fun _ _ => ⟨fun _ => ⟨List.nodup_nil, rfl⟩, fun _ => rfl⟩)
    fun _ _ ordered sane step => step.rostered ordered sane
  exact rostered.enrolled here

end Mqtt
