import Mqtt.Proofs.Found
import Mqtt.Proofs.Rolls

/-!
# Granted filters are proper

The registry takes any entry; that no filter is granted twice and that every filter is one that
may be sent rests on those who write to it.  Requests list only filters that passed the check,
and a filter is granted after every earlier grant of it was dropped, with a callback between
the two in which calls list and give up requests but grant nothing.
-/

namespace Mqtt

namespace Subscriptions

/-- Whether no filter is granted twice, and every filter may be sent. -/
structure Proper (s : Subscriptions) : Prop where
  once : (s.granted.map Prod.fst).Nodup
  valid : ∀ e ∈ s.entries, Topic.checkFilter e.topic = .ok ()

namespace Proper

variable {s s' : Subscriptions}

theorem empty : Proper {} :=
  ⟨List.nodup_nil, fun _ none => by cases none⟩

theorem of_sublist (h : s.Proper) (fewer : s'.entries.Sublist s.entries) : s'.Proper :=
  ⟨h.once.sublist (((fewer.filter _).map _).map _), fun e member => h.valid e (fewer.subset member)⟩

theorem dropGranted (h : s.Proper) (topic : String) : (s.dropGranted topic).Proper :=
  h.of_sublist List.filter_sublist

theorem dropRequest (h : s.Proper) (id : UInt16) : (s.dropRequest id).Proper :=
  h.of_sublist List.filter_sublist

theorem remove (h : s.Proper) (topic : String) : (s.remove topic).Proper :=
  h.of_sublist List.eraseP_sublist

/-- Requests list filters that passed the check and grant none. -/
theorem addAll (h : s.Proper) {new : List Subject} (open_ : ∀ e ∈ new, e.isConfirmed = false)
    (valid : ∀ e ∈ new, Topic.checkFilter e.topic = .ok ()) : (s.addAll new).Proper := by
  constructor
  · rw [granted_addAll open_]
    exact h.once
  · intro e member
    exact (List.mem_append.1 member).elim (h.valid e) (valid e)

/-- A filter may be granted once nothing is granted for it. -/
theorem add_confirm (h : s.Proper) {subject : Subject}
    (valid : Topic.checkFilter subject.topic = .ok ())
    (absent : subject.topic ∉ s.granted.map Prod.fst) (qos : Qos) :
    (s.add (subject.confirm qos)).Proper := by
  constructor
  · rw [granted_add_confirm, List.map_append, List.nodup_append]
    refine ⟨h.once, List.nodup_singleton _, fun topic member other last same => absent ?_⟩
    have own : other = subject.topic := List.mem_singleton.1 last
    exact own ▸ same ▸ member
  · intro e member
    rcases List.mem_append.1 member with old | last
    · exact h.valid e old
    · rw [List.mem_singleton.1 last]
      exact valid

end Proper

theorem not_mem_granted_dropGranted (s : Subscriptions) (topic : String) :
    topic ∉ (s.dropGranted topic).granted.map Prod.fst := by
  rw [granted_dropGranted]
  intro member
  obtain ⟨filter, kept, same⟩ := List.mem_map.1 member
  exact bne_iff_ne.1 (List.mem_filter.1 kept).2 same

end Subscriptions

/-- Calls ask only for filters that passed the check. -/
theorem Act.Request.Issued.checked {r : Act.Request} (issued : r.Issued) :
    ∀ filter ∈ r.listed, Topic.checkFilter filter.1 = .ok () := by
  cases issued with
  | subscribe _ _ checked => exact checked
  | unsubscribe _ _ checked => exact List.forall_mem_map.2 checked
  | atLeastOnce | exactlyOnce => exact fun _ none => by cases none

variable {σ : Type} [Environment σ] {s s' : System σ}

/-! ## Moves -/

/-- Calls keep the filters proper. -/
theorem CallMove.proper (move : CallMove s s') (h : s.client.subscriptions.Proper) :
    s'.client.subscriptions.Proper := by
  cases move with
  | @discarded awaits id =>
    change (s.client.giveUp awaits id).subscriptions.Proper
    unfold Client.giveUp
    dsimp only
    split
    · exact h.dropRequest id
    · exact h
  | released => exact .empty
  | @requested r id packet began issued =>
    rw [System.afterSend_client, Client.pass_subscriptions]
    refine h.addAll (Petition.entries_open (p := ⟨0, r.awaits, id, r.listed⟩)) fun e member => ?_
    obtain ⟨filter, listed, rfl⟩ := List.mem_map.1 member
    exact issued.checked filter listed
  | refused | sent => simpa [Client.passOver] using h
  | _ => exact h

/-- Whether the filters of a client are proper, and were whenever an event had arisen. -/
structure Neat (s : System σ) : Prop where
  now : s.client.subscriptions.Proper
  shown : Shown (fun c _ => c.subscriptions.Proper) s.log

namespace Neat

omit [Environment σ] in
theorem later (h : Neat s) (step : Unraised s s' ∨ Raised s s')
    (now : s'.client.subscriptions.Proper) : Neat s' :=
  ⟨now, h.shown.later step now⟩

theorem calls (h : Neat s) (calls : Calls s s') : Neat s' := by
  obtain ⟨now, shown⟩ := Found.shown_of_calls (P := fun c _ => c.subscriptions.Proper)
    (fun move => move.proper) calls ⟨h.now, h.shown⟩
  exact ⟨now, shown⟩

omit [Environment σ] in
/-- The filters change while no event arises. -/
theorem filed (h : Neat s) {subscriptions : Subscriptions} (proper : subscriptions.Proper) :
    Neat (s.change fun c => { c with subscriptions }) :=
  h.later (Or.inl (.of_log rfl)) proper

theorem afterSend (h : Neat s) (packet : Bytes) : Neat (s.afterSend packet) :=
  h.later (Or.inl (.afterSend s packet)) (by simpa using h.now)

omit [Environment σ] in
theorem close (h : Neat s) : Neat s.close :=
  h.later (Or.inl (.close s)) (by simpa using h.now)

end Neat

/-- What is done with a packet that answers no request keeps the filters proper. -/
theorem TurnMove.neat {hand : Option Inbound} (move : TurnMove hand s s')
    (other : ∃ p ∈ hand, ¬ p.IsVerdict) (h : Neat s) : Neat s' := by
  refine h.later move.raises ?_
  cases move with
  | call move => exact move.proper h.now
  | filed _ _ verdict =>
    obtain ⟨p, held, other⟩ := other
    exact absurd (verdict p held) other
  | replied | resent | pinged => simpa using h.now
  | _ => exact h.now

theorem QuietMove.neat (move : QuietMove s s') (h : Neat s) : Neat s' := by
  refine h.later move.turn.raises ?_
  cases move with
  | call move => exact move.proper h.now
  | pinged => simpa using h.now
  | _ => exact h.now

theorem ThreadMove.neat (move : ThreadMove s s') (h : Neat s) : Neat s' := by
  refine h.later move.raises ?_
  cases move with
  | turn _ move => exact (move.neat h).now
  | left => exact .empty
  | dialled | saluted | parted | closed => simpa using h.now
  | _ => exact h.now

theorem Warned.neat (warned : Warned s s') (h : Neat s) : Neat s' := by
  rcases warned with rfl | ⟨count, calls⟩
  · exact h
  · have told : Neat (s.announce (.pendingWarning count)) := h.later (Or.inr ⟨_, _, rfl⟩) h.now
    exact told.calls calls

/-! ## Answers -/

namespace Act

/-- An event is told of, and the calls of callbacks keep the filters proper and grant none. -/
theorem tell_neat (e : Event) (h : s.Busy ∧ Neat s) :
    Ends (tell e) s fun _ s' => (s'.Busy ∧ Neat s') ∧
      s'.client.subscriptions.granted = s.client.subscriptions.granted := by
  refine ((tell_calls e).and (tell_steady e h.1)).imp fun _ s' ⟨calls, busy, steady⟩ => ?_
  have told : Neat (s.announce e) := h.2.later (Or.inr ⟨_, _, rfl⟩) h.2.now
  exact ⟨⟨busy, told.calls calls⟩, steady.granted⟩

/-- A code that grants a filter puts it in the place of what was granted for it before; the
callback between grants nothing. -/
theorem settle_neat {subject : Subject} (valid : Topic.checkFilter subject.topic = .ok ())
    (id : UInt16) (code : UInt8) (h : s.Busy ∧ Neat s) :
    Ends (settle id subject code) s fun _ s' => s'.Busy ∧ Neat s' := by
  unfold settle
  cases Qos.ofByte? code with
  | none => exact (tell_neat _ h).imp fun _ _ told => told.1
  | some qos =>
    rw [ends_bind, ends_update, ends_bind]
    let t := s.change fun c =>
      { c with subscriptions := c.subscriptions.dropGranted subject.topic }
    have dropped : Neat t := h.2.filed (h.2.now.dropGranted subject.topic)
    refine (tell_neat (s := t) (.subscribed subject.topic qos id) ⟨h.1, dropped⟩).imp
      fun _ s' ⟨⟨busy, neat⟩, granted⟩ => ?_
    rw [ends_update]
    have absent : subject.topic ∉ s'.client.subscriptions.granted.map Prod.fst := by
      rw [granted]
      exact Subscriptions.not_mem_granted_dropGranted _ subject.topic
    exact ⟨busy, neat.filed (neat.now.add_confirm valid absent qos)⟩

theorem remove_neat (id : UInt16) (topic : String) (h : s.Busy ∧ Neat s) :
    Ends (do
      update fun c => { c with subscriptions := c.subscriptions.remove topic }
      tell (.unsubscribed topic id)) s fun _ s' => s'.Busy ∧ Neat s' := by
  rw [ends_bind, ends_update]
  let t := s.change fun c => { c with subscriptions := c.subscriptions.remove topic }
  have removed : Neat t := h.2.filed (h.2.now.remove topic)
  exact (tell_neat (s := t) _ ⟨h.1, removed⟩).imp fun _ _ told => told.1

end Act

theorem Neat.keptByAnswers :
    KeptByAnswers (fun subject => Topic.checkFilter subject.topic = .ok ())
      fun s : System σ => s.Busy ∧ Neat s where
  told _ h := (Act.tell_neat _ h).imp fun _ _ told => told.1
  dropped id h := ⟨h.1, h.2.filed (h.2.now.dropRequest id)⟩
  sent packet h := ⟨h.1.afterSend packet, h.2.afterSend packet⟩
  looked _ _ h := ⟨h.1, h.2.later (Or.inl (.of_log rfl)) h.2.now⟩
  listed h := h.2.now.valid
  taken _ _ h := ⟨h.1, h.2.later (Or.inl (.of_log rfl)) h.2.now⟩
  settled id code valid h := Act.settle_neat valid id code h
  removed id topic h := Act.remove_neat id topic h

/-- Acting on a packet keeps the filters proper. -/
theorem Neat.afterDispatch {p : Inbound} (h : Neat s) (busy : s.Busy) (ordered : Ordered s)
    (sane : s.client.pending.Sane) : Neat (s.afterDispatch p) := by
  have acted := (afterDispatch_busy busy sane p).1
  refine (Neat.keptByAnswers.afterDispatch (fun other => ⟨acted, ?_⟩) ⟨busy, h⟩).2
  exact (afterDispatch_hold (I := Neat) (J := Neat)
    (fun _ _ _ move => move.neat ⟨p, rfl, other⟩)
    (fun _ _ _ _ _ h => (h.afterSend _).close) (fun _ h => h) busy ordered sane h).2

/-! ## All runs -/

theorem Step.neat (step : Step s s') (ordered : Ordered s) (sane : s.client.pending.Sane)
    (h : Neat s) : Neat s' := by
  cases step with
  | call move => exact h.later move.raises (move.proper h.now)
  | thread pace =>
    cases pace with
    | move move => exact move.neat h
    | @looked failure force busy run turns =>
      have looked := Neat.keptByAnswers.scan force ⟨busy, h⟩
      unfold Act.Ends at looked
      rw [run] at looked
      exact looked.2
  | @attended s₁ reader p here warned =>
    have read : Neat (s.accept p) := h.later (Or.inl (.of_entry rfl id)) h.now
    obtain ⟨busy, ordered', sane'⟩ := warned.good ordered sane here
    exact (warned.neat read).afterDispatch busy ordered' sane'

theorem Reachable.neat (reachable : Reachable s) : Neat s :=
  reachable.induct
    (fun _ _ => ⟨.empty, fun _ _ _ _ none => by cases List.suffix_nil.1 none⟩)
    fun _ _ ordered sane step => step.neat ordered sane

/-- **Granted filters.**  Wherever an application finds a client, inside callbacks too, no
filter is granted twice, and every granted filter is one that the check accepts. -/
theorem Found.granted_proper (found : Found s) :
    (s.client.subscriptions.granted.map Prod.fst).Nodup ∧
      ∀ e ∈ s.client.subscriptions.entries, e.isConfirmed = true →
        Topic.checkFilter e.topic = .ok () := by
  have proper : s.client.subscriptions.Proper := found.holds
    (P := fun c _ => c.subscriptions.Proper)
    (fun reachable moment => moment.holds reachable.neat.now reachable.neat.shown)
    fun move => move.proper
  exact ⟨proper.once, fun e member _ => proper.valid e member⟩

/-- A client that was granted a filter, and then was granted it twice by one answer. -/
def regranted : System Script :=
  inSession.takes
    [.call (.subscribe "a/b" .exactlyOnce), .heard (.ok [0x90, 3]) 0, .heard (.ok [0, 1, 2]) 0,
      .turn, .call (.subscribeAll [("a/b", .exactlyOnce), ("a/b", .atMostOnce)]),
      .heard (.ok [0x90, 4]) 0, .heard (.ok [0, 2, 1, 0]) 0]

theorem granted_proper_regranted :
    regranted.client.subscriptions.granted = [("a/b", .atMostOnce)] ∧
      (regranted.client.subscriptions.granted.map Prod.fst).Nodup ∧
      ∀ e ∈ regranted.client.subscriptions.entries, e.isConfirmed = true →
        Topic.checkFilter e.topic = .ok () :=
  ⟨by decide +kernel, Found.granted_proper (.reachable (inSession_reachable.takes _))⟩

end Mqtt
