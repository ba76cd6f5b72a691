import Mqtt.Proofs.Resends
import Mqtt.Proofs.Rolls

/-!
# Answers to requests about filters

A SUBACK or an UNSUBACK takes out the transaction that it answers and the topics listed for it,
and amends what was granted: filter by filter, in the order of the request
(`Client.amendments`).  All else that a client holds stays as it is and where it is
(`Answered`), and an answer that nothing waits for changes nothing at all.
-/

namespace Mqtt

/-! ## What is kept when something else is dropped -/

section

variable {α : Type} {keep drop : α → Bool}

theorem filter_filter_not (other : ∀ a, drop a = true → keep a = false) (as : List α) :
    (as.filter fun a => !drop a).filter keep = as.filter keep := by
  rw [List.filter_filter]
  refine List.filter_congr fun a _ => ?_
  cases dropped : drop a with
  | true =>
    rw [other a dropped]
    rfl
  | false => rw [Bool.not_false, Bool.and_true]

theorem filter_eraseP (other : ∀ a, drop a = true → keep a = false) (as : List α) :
    (as.eraseP drop).filter keep = as.filter keep := by
  induction as with
  | nil => rfl
  | cons a as ih =>
    rw [List.eraseP_cons]
    cases dropped : drop a with
    | true => rw [cond_true, List.filter_cons_of_neg (Bool.eq_false_iff.1 (other a dropped))]
    | false => rw [cond_false, List.filter_cons, List.filter_cons, ih]

end

/-! ## Amending what was granted -/

namespace Subscriptions

variable {s : Subscriptions} {r : Roll}

/-- Puts a grant in the place of what was granted for a topic, or drops it. -/
def amend (s : Subscriptions) (subject : Subject) : Option Qos → Subscriptions
  | some qos => s.grant subject qos
  | none => s.remove subject.topic

/-- Amends what was granted for some topics, one after the other. -/
def amendAll (s : Subscriptions) (changes : List (Subject × Option Qos)) : Subscriptions :=
  changes.foldl (fun s change => s.amend change.1 change.2) s

theorem Rolls.amend (h : s.Rolls r) (subject : Subject) (entry : Option Qos) :
    (s.amend subject entry).Rolls (r.set subject.topic entry) := by
  cases entry with
  | none => exact h.remove subject.topic
  | some qos => exact (h.dropGranted subject.topic).add_confirm qos

/-- The map is amended from left to right. -/
theorem Rolls.amendAll (h : s.Rolls r) (changes : List (Subject × Option Qos)) :
    (s.amendAll changes).Rolls
      (changes.foldl (fun r change => r.set change.1.topic change.2) r) := by
  induction changes generalizing s r with
  | nil => exact h
  | cons change changes ih => exact ih (h.amend change.1 change.2)

/-- Entries that are no grants of the topic stay in their order. -/
theorem filter_amend {keep : Subject → Bool} (subject : Subject) (entry : Option Qos)
    (other : ∀ e, e.isConfirmed = true → e.topic = subject.topic → keep e = false) :
    (s.amend subject entry).entries.filter keep = s.entries.filter keep := by
  have out (e : Subject) (own : (e.isConfirmed && e.topic == subject.topic) = true) :
      keep e = false := by
    rw [Bool.and_eq_true, beq_iff_eq] at own
    exact other e own.1 own.2
  cases entry with
  | none => exact filter_eraseP out s.entries
  | some qos =>
    have last : keep (subject.confirm qos) = false := other _ rfl rfl
    change (s.entries.filter _ ++ [subject.confirm qos]).filter keep = _
    rw [List.filter_append, List.filter_cons_of_neg (by simp [last]), List.filter_nil,
      List.append_nil]
    exact filter_filter_not out s.entries

theorem filter_amendAll {keep : Subject → Bool} {changes : List (Subject × Option Qos)}
    (other : ∀ change ∈ changes, ∀ e, e.isConfirmed = true → e.topic = change.1.topic →
      keep e = false) :
    (s.amendAll changes).entries.filter keep = s.entries.filter keep := by
  induction changes generalizing s with
  | nil => rfl
  | cons change changes ih =>
    obtain ⟨first, rest⟩ := List.forall_mem_cons.1 other
    exact (ih rest).trans (filter_amend change.1 change.2 first)

/-- Entries that are not of the request stay in their order. -/
theorem filter_dropRequest {keep : Subject → Bool} {id : UInt16}
    (other : ∀ e, e.request = some id → keep e = false) :
    (s.dropRequest id).entries.filter keep = s.entries.filter keep :=
  filter_filter_not (fun e own => other e (beq_iff_eq.1 own)) s.entries

/-- No request loses a topic by what is amended. -/
theorem ofRequest_amendAll (changes : List (Subject × Option Qos)) (id : UInt16) :
    (s.amendAll changes).ofRequest id = s.ofRequest id := by
  refine filter_amendAll fun _ _ e confirmed _ => ?_
  rw [Option.isNone_iff_eq_none.1 confirmed]
  rfl

end Subscriptions

/-- What a code amends for its filter, if it grants it. -/
def Subject.amendment? (answered : Subject × UInt8) : Option (Subject × Option Qos) :=
  (Qos.ofByte? answered.2).map fun qos => (answered.1, some qos)

/-- What an answer amends: of a SUBACK with a code for each filter those that are granted, of any
other SUBACK nothing, and of an UNSUBACK all filters of the request. -/
def Client.amendments (c : Client) (kind : AckKind) (id : UInt16) (codes : Bytes) :
    List (Subject × Option Qos) :=
  let asked := c.subscriptions.ofRequest id
  if kind = .subAck then
    if asked.length = codes.length then (asked.zip codes).filterMap Subject.amendment? else []
  else asked.map fun subject => (subject, none)

/-- Whether an entry is neither of a request nor the grant of one of some topics. -/
def Subject.isApart (id : UInt16) (changes : List (Subject × Option Qos)) (e : Subject) : Bool :=
  e.request != some id && !(e.isConfirmed && changes.any (·.1.topic == e.topic))

/-- What an answer comes to for the client that has it: its transaction is gone and so are the
topics listed for it, the map of grants is amended from left to right, and all else is as and
where it was. -/
structure Answered (kind : AckKind) (id : UInt16) (changes : List (Subject × Option Qos))
    (c c' : Client) : Prop where
  taken : ∃ before t after, c.pending.active = before ++ t :: after ∧ t.isFor kind id = true ∧
    (∀ u ∈ before, u.isFor kind id = false) ∧
    c'.pending = { c.pending with active := before ++ after }
  dropped : c'.subscriptions.ofRequest id = []
  rolls : c'.subscriptions.Rolls
    (changes.foldl (fun r change => r.set change.1.topic change.2) c.subscriptions.roll)
  others : c'.subscriptions.entries.filter (Subject.isApart id changes) =
    c.subscriptions.entries.filter (Subject.isApart id changes)
  rest : c' = { c with pending := c'.pending, subscriptions := c'.subscriptions }

namespace Subscriptions

theorem ofRequest_dropRequest (s : Subscriptions) (id : UInt16) :
    (s.dropRequest id).ofRequest id = [] := by
  unfold ofRequest dropRequest
  rw [List.filter_filter, List.filter_eq_nil_iff]
  intro e _
  simp

end Subscriptions

/-- What is done for an answer comes to what an answer comes to. -/
theorem Answered.of_amended {c c' : Client} {kind : AckKind} {id : UInt16} {t : Transaction}
    {changes : List (Subject × Option Qos)}
    (once : (c.subscriptions.granted.map Prod.fst).Nodup)
    (taken : (c.pending.take kind id).1 = some t)
    (amended : c' = { c with
      pending := (c.pending.take kind id).2
      subscriptions := (c.subscriptions.dropRequest id).amendAll changes }) :
    Answered kind id changes c c' := by
  subst amended
  refine ⟨?_, ?_, ?_, ?_, rfl⟩
  · obtain ⟨before, after, split, others, left⟩ := Pending.take_between taken
    obtain ⟨-, id, kind⟩ := Pending.of_take_eq_some taken
    exact ⟨before, t, after, split, Transaction.isFor_iff.2 ⟨id, kind⟩, others, left⟩
  · exact (Subscriptions.ofRequest_amendAll changes id).trans
      (Subscriptions.ofRequest_dropRequest _ id)
  · have rolls : c.subscriptions.Rolls c.subscriptions.roll := ⟨once, rfl⟩
    exact (rolls.of_granted (Subscriptions.granted_dropRequest id)).amendAll changes
  · refine (Subscriptions.filter_amendAll fun change member e confirmed same => ?_).trans
      (Subscriptions.filter_dropRequest fun e own => ?_)
    · have own : changes.any (·.1.topic == e.topic) = true :=
        List.any_eq_true.2 ⟨change, member, beq_iff_eq.2 same.symm⟩
      unfold Subject.isApart
      rw [confirmed, own, Bool.and_true, Bool.not_true, Bool.and_false]
    · unfold Subject.isApart
      rw [own, bne_self_eq_false, Bool.false_and]

/-! ## Acting on an answer -/

namespace Act

variable {σ : Type} {s : System σ} {α : Type}

theorem Calmly.lift {x : Act σ α} {Q : Except Error α → System σ → Prop}
    (h : Calmly x s fun a s' => Q (.ok a) s') : Calmly (lift x).run s Q :=
  try_lift.2 h

/-- What is done for one after the other amends what is listed in turn. -/
theorem forM_amends {f : α → Act σ Unit} (change? : α → Option (Subject × Option Qos))
    (each : ∀ (a : α) (s : System σ), Calmly (f a) s fun _ s' => s'.client =
      { s.client with subscriptions := s.client.subscriptions.amendAll (change? a).toList })
    (as : List α) :
    Calmly (as.forM f) s fun _ s' => s'.client =
      { s.client with
        subscriptions := s.client.subscriptions.amendAll (as.filterMap change?) } := by
  induction as generalizing s with
  | nil => exact .silent ⟨rfl, rfl⟩
  | cons a as ih =>
    change Calmly (f a >>= fun _ => as.forM f) s _
    refine (each a s).bind fun _ s₁ => ih.imp fun _ s' later first => ?_
    rw [later, first, List.filterMap_cons]
    cases change? a <;> rfl

theorem update_calmly (change : Client → Client) :
    Calmly (update change) s fun _ s' => s'.client = change s.client :=
  .silent ⟨rfl, rfl⟩

variable [Environment σ]

/-- An event leaves the client as it is. -/
theorem tell_client (e : Event) : Calmly (tell e) s fun _ s' => s'.client = s.client :=
  (tell_calmly e).imp fun _ _ lets => lets.1

theorem settle_amends (id : UInt16) (answered : Subject × UInt8) :
    Calmly (settle id answered.1 answered.2) s fun _ s' => s'.client = { s.client with
      subscriptions := s.client.subscriptions.amendAll (Subject.amendment? answered).toList } := by
  unfold settle Subject.amendment?
  cases Qos.ofByte? answered.2 with
  | none => exact tell_client _
  | some qos =>
    refine (update_calmly _).bind fun _ s₁ => (tell_client _).bind fun _ s₂ =>
      (update_calmly _).imp fun _ s' added told dropped => ?_
    rw [added, told, dropped]
    rfl

theorem remove_amends (id : UInt16) (subject : Subject) :
    Calmly (do
      update fun c => { c with subscriptions := c.subscriptions.remove subject.topic }
      tell (.unsubscribed subject.topic id)) s fun _ s' => s'.client = { s.client with
        subscriptions := s.client.subscriptions.amendAll (some (subject, none)).toList } := by
  refine (update_calmly _).bind fun _ s₁ => (tell_client _).imp fun _ s' told removed => ?_
  rw [told, removed]
  rfl

variable {id : UInt16} {t : Transaction}

omit [Environment σ] in
/-- What begins with a transaction to take out and does nothing without one changes nothing if
there is none. -/
theorem take_stray {kind : AckKind} {f : Option Transaction → Act σ Unit}
    (missing : s.client.pending.contains kind id = false) (idle : f none = pure ()) :
    Ends (take kind id >>= f) s fun _ s' => s' = s := by
  have untaken := Pending.take_eq_none_iff.2 missing
  rw [ends_bind, ends_take, untaken, idle]
  exact System.change_without untaken

theorem onSubAck_stray (codes : Bytes) (missing : s.client.pending.contains .subAck id = false) :
    Ends (onSubAck id codes) s fun _ s' => s' = s :=
  take_stray missing rfl

theorem onUnsubAck_stray (missing : s.client.pending.contains .unsubAck id = false) :
    Ends (onUnsubAck id) s fun _ s' => s' = s :=
  take_stray missing rfl

theorem onSubAck_amends (codes : Bytes) (taken : (s.client.pending.take .subAck id).1 = some t) :
    Calmly (onSubAck id codes) s fun _ s' => s'.client = { s.client with
      pending := (s.client.pending.take .subAck id).2
      subscriptions := (s.client.subscriptions.dropRequest id).amendAll
        (s.client.amendments .subAck id codes) } := by
  unfold Calmly onSubAck
  rw [ends_bind, ends_take, taken]
  dsimp only
  rw [ends_bind, ends_takeListed]
  change Calmly (if (s.client.subscriptions.ofRequest id).length = codes.length then _ else _)
    ((s.change (·.without .subAck id)).change fun c =>
      { c with subscriptions := c.subscriptions.dropRequest id }) _
  unfold Client.amendments
  rw [if_pos rfl]
  split
  · exact forM_amends Subject.amendment? (fun answered s => settle_amends id answered) _
  · have told := forM_amends (s := (s.change (·.without .subAck id)).change fun c =>
      { c with subscriptions := c.subscriptions.dropRequest id }) (fun _ => none)
      (fun (subject : Subject) s => tell_client (.subscribeFailed subject.topic id))
      (s.client.subscriptions.ofRequest id)
    rw [List.filterMap_none] at told
    exact told

theorem onUnsubAck_amends (taken : (s.client.pending.take .unsubAck id).1 = some t) :
    Calmly (onUnsubAck id) s fun _ s' => s'.client = { s.client with
      pending := (s.client.pending.take .unsubAck id).2
      subscriptions := (s.client.subscriptions.dropRequest id).amendAll
        (s.client.amendments .unsubAck id []) } := by
  unfold Calmly onUnsubAck
  rw [ends_bind, ends_take, taken]
  dsimp only
  rw [ends_bind, ends_takeListed]
  have removed := forM_amends (s := (s.change (·.without .unsubAck id)).change fun c =>
    { c with subscriptions := c.subscriptions.dropRequest id })
    (some ∘ fun subject => (subject, (none : Option Qos)))
    (fun subject s => remove_amends id subject) (s.client.subscriptions.ofRequest id)
  rw [List.filterMap_eq_map] at removed
  exact removed

end Act

/-- Filters that are dropped from a map, and no others, are missing from it. -/
theorem Roll.foldl_drop (r : Roll) (asked : List Subject) (topic : String) :
    (asked.map fun subject => (subject, (none : Option Qos))).foldl
        (fun r change => r.set change.1.topic change.2) r topic =
      if topic ∈ asked.map Subject.topic then none else r topic := by
  induction asked generalizing r with
  | nil => rfl
  | cons first asked ih =>
    rw [List.map_cons, List.foldl_cons, ih, List.map_cons]
    unfold Roll.set
    by_cases own : topic = first.topic
    · simp [own]
    · simp [own]

/-- **Answers to requests about filters.**  An answer that does not decode, or that no active
transaction waits for, changes nothing at all.  Any other takes out its transaction and the topics
listed for it.  A SUBACK with a code for each of them amends the map of what is granted from left
to right by the codes that grant, and with any other number of codes leaves the map as it was; an
UNSUBACK drops from it exactly the filters of the request.  All other transactions, the topics of
other requests and the grants of other filters stay as and where they were, if no callback makes a
call meanwhile. -/
theorem System.answers_amend {σ : Type} [Environment σ] (s : System σ) {p : Inbound}
    (answers : p.IsVerdict) (once : (s.client.subscriptions.granted.map Prod.fst).Nodup) :
    ((∀ kind id codes, p.verdict? = some ((kind, id), codes) →
        s.client.pending.contains kind id = false) →
      (Act.dispatch p).run.Ends s fun r s' => r = .ok () ∧ s' = s) ∧
    ∀ kind id codes, p.verdict? = some ((kind, id), codes) →
      s.client.pending.contains kind id = true →
      (Act.dispatch p).run.Calmly s fun r s' => r = .ok () ∧
        Answered kind id (s.client.amendments kind id codes) s.client s'.client ∧
        (kind = .unsubAck → ∀ topic, s'.client.subscriptions.roll topic =
          if topic ∈ (s.client.subscriptions.ofRequest id).map Subject.topic then none
          else s.client.subscriptions.roll topic) := by
  constructor
  · intro unasked
    cases verdict : p.verdict? with
    | none =>
      rw [Act.dispatch_undecoded answers verdict]
      exact ⟨rfl, rfl⟩
    | some answer =>
      obtain ⟨⟨kind, id⟩, codes⟩ := answer
      have missing := unasked kind id codes verdict
      rcases Act.dispatch_verdict (σ := σ) verdict with ⟨rfl, acts⟩ | ⟨rfl, acts⟩
      · rw [acts, Act.try_lift]
        exact ⟨rfl, Act.onSubAck_stray codes missing⟩
      · rw [acts, Act.try_lift]
        exact ⟨rfl, Act.onUnsubAck_stray missing⟩
  · intro kind id codes verdict waits
    obtain ⟨t, taken⟩ : ∃ t, (s.client.pending.take kind id).1 = some t := by
      rw [← Option.ne_none_iff_exists', Ne, Pending.take_eq_none_iff, waits]
      exact nofun
    rcases Act.dispatch_verdict (σ := σ) verdict with ⟨rfl, acts⟩ | ⟨rfl, acts⟩
    · rw [acts]
      refine .lift ((Act.onSubAck_amends codes taken).imp fun _ s' amended => ⟨rfl, ?_, nofun⟩)
      exact .of_amended once taken amended
    · rw [acts]
      refine .lift ((Act.onUnsubAck_amends taken).imp fun _ s' amended => ?_)
      have answered := Answered.of_amended once taken amended
      refine ⟨rfl, answered, fun _ topic => ?_⟩
      rw [answered.rolls.roll]
      exact Roll.foldl_drop _ _ topic

/-- A client to which two filters were granted, with a message, a request for four filters, one of
them twice, and a request to drop two on their way. -/
def undecided : System Script :=
  inSession.takes
    [.call (.subscribeAll [("a", .atLeastOnce), ("b", .exactlyOnce)]), .heard (.ok [0x90, 4]) 0,
      .heard (.ok [0, 1, 1, 2]) 0, .turn, .call (.publish "t" [1] .atLeastOnce false),
      .call (.subscribeAll
        [("b", .atMostOnce), ("c", .exactlyOnce), ("d", .exactlyOnce), ("c", .atLeastOnce)]),
      .call (.unsubscribeAll ["a", "e"]), .heard (.error .timeout) 0, .turn]

theorem System.answers_amend_undecided :
    let granted := ((Act.dispatch ⟨.subAck, 0, [0, 3, 1, 2, 128, 0]⟩).run.run undecided).2
    let dropped := ((Act.dispatch ⟨.unsubAck, 0, [0, 4]⟩).run.run undecided).2
    let changes := undecided.client.amendments .subAck 3 [1, 2, 128, 0]
    undecided.client.subscriptions.granted = [("a", .atLeastOnce), ("b", .exactlyOnce)] ∧
      ((Act.dispatch ⟨.subAck, 0, [0, 9, 1]⟩).run.run undecided).2 = undecided ∧
      (changes.map fun change => (change.1.topic, change.2)) =
        [("b", some .atLeastOnce), ("c", some .exactlyOnce), ("c", some .atMostOnce)] ∧
      Answered .subAck 3 changes undecided.client granted.client ∧
      granted.client.subscriptions.granted =
        [("a", .atLeastOnce), ("b", .atLeastOnce), ("c", .atMostOnce)] ∧
      Answered .unsubAck 4 (undecided.client.amendments .unsubAck 4 []) undecided.client
        dropped.client ∧
      dropped.client.subscriptions.granted = [("b", .exactlyOnce)] := by
  intro granted dropped changes
  have once : (undecided.client.subscriptions.granted.map Prod.fst).Nodup := by decide +kernel
  have passive : Passive undecided granted :=
    .of_all (granted.log.take 4) (by decide +kernel) (by decide +kernel)
  have passive' : Passive undecided dropped :=
    .of_all (dropped.log.take 2) (by decide +kernel) (by decide +kernel)
  have stray := (answers_amend undecided (p := ⟨.subAck, 0, [0, 9, 1]⟩) (Or.inl rfl) once).1
    fun kind id codes verdict => by cases verdict; decide +kernel
  have grants := (answers_amend undecided (p := ⟨.subAck, 0, [0, 3, 1, 2, 128, 0]⟩) (Or.inl rfl)
    once).2 .subAck 3 [1, 2, 128, 0] rfl (by decide +kernel)
  have drops := (answers_amend undecided (p := ⟨.unsubAck, 0, [0, 4]⟩) (Or.inr rfl) once).2
    .unsubAck 4 [] rfl (by decide +kernel)
  obtain ⟨-, amended, -⟩ := grants.2 passive
  obtain ⟨-, goes, -⟩ := drops.2 passive'
  exact ⟨by decide +kernel, stray.2, by decide +kernel, amended, by decide +kernel, goes,
    by decide +kernel⟩

end Mqtt
