import Mqtt.Proofs.Booking

/-!
# What becomes of requests about filters

Every move of a client keeps its registries in step with the ledger of its log
(`Booked`), and so do the actions that end requests: acting on an answer and looking
after transactions.  In between, a request is gone from the registries before the first
of its events arises (`Closing`), and the other events are owed after it (`Due`).  So a
request is pending in both registries until it ends, it ends once, and every filter of it
is told of once and in order (`requests_settled`).
-/

namespace Mqtt

/-- Whether a request that a look picked for expiry has expired by now, or is yet to. -/
def Marked (now : List Entry) (picked : List Petition) (p : Petition) : Prop :=
  (p, .expired) ∈ (Ledger.read now).ended ∨ p ∈ picked

/-- Whether the registries of a client were in step with its log unless it was gone, as
can be said now. -/
def Witnessed (now : List Entry) (picked : List Petition) (c : Client) (log : List Entry) : Prop :=
  c.place ≠ .exited → ∃ errand, Booked errand c log ∧ ∀ p ∈ errand.picked, Marked now picked p

variable {σ : Type}

/-- Whether the registries are in step with the log, and were whenever an event had
arisen. -/
structure Kept (errand : Errand) (s : System σ) : Prop where
  booked : s.client.place ≠ .exited → Booked errand s.client s.log
  shown : Shown (Witnessed s.log errand.picked) s.log

section Kept

variable {s s' : System σ} {errand errand' : Errand} {now now' : List Entry}
  {picked picked' : List Petition}

theorem Marked.later {p : Petition} (later : now <:+ now') (h : Marked now picked p) :
    Marked now' picked p :=
  h.imp_left fun ended => Ledger.ended_later later ended

theorem Shown.witnessed {log : List Entry} (shown : Shown (Witnessed now picked) log)
    (marks : ∀ p, Marked now picked p → Marked now' picked' p) :
    Shown (Witnessed now' picked') log := by
  intro e client told earlier suffixed here
  obtain ⟨errand, booked, marked⟩ := shown e client told earlier suffixed here
  exact ⟨errand, booked, fun p member => marks p (marked p member)⟩

/-- What was shown goes on to be if the registries are in step after a move, too. -/
theorem Kept.of_shown (shown : Shown (Witnessed s.log picked) s.log)
    (raises : Unraised s s' ∨ Raised s s')
    (booked : s'.client.place ≠ .exited → Booked errand' s'.client s'.log)
    (marks : ∀ p, Marked s.log picked p → Marked s'.log errand'.picked p) : Kept errand' s' :=
  ⟨booked, (shown.witnessed marks).later raises
    fun here => ⟨errand', booked here, fun _ member => Or.inr member⟩⟩

theorem Kept.of_booked (h : Kept errand s) (raises : Unraised s s' ∨ Raised s s')
    (booked : s'.client.place ≠ .exited → Booked errand s'.client s'.log) : Kept errand s' :=
  .of_shown h.shown raises booked fun _ => Marked.later (suffix_of_raises raises)

/-- Moves that say nothing of requests and leave the registries alone. -/
theorem Kept.of_frame (h : Kept errand s) (raises : Unraised s s' ∨ Raised s s')
    (unmoved : Unmoved s.log s'.log) (pending : s'.client.pending = s.client.pending)
    (subscriptions : s'.client.subscriptions = s.client.subscriptions)
    (phase : s'.client.phase = .init → s.client.phase = .init)
    (place : s'.client.place = s.client.place) : Kept errand s' :=
  h.of_booked raises fun here =>
    (h.booked (place ▸ here)).of_frame unmoved pending subscriptions phase

end Kept

/-! ## Packets that make no request -/

theorem Inbound.asks?_eq_none {p : Inbound} (filters : p.kind ≠ .subscribe)
    (unfilters : p.kind ≠ .unsubscribe) : p.asks? = none := by
  unfold asks?
  split <;> first | rfl | exact absurd ‹_› filters | exact absurd ‹_› unfilters

theorem Owed.unasked {p : Inbound} {s : System σ} {packet : Bytes} (owed : Owed p s packet) :
    ∃ q, Packet.parse? packet = some q ∧ q.asks? = none := by
  cases owed <;> exact ⟨_, Packet.parse?_ack _ _, rfl⟩

theorem Resendable.unasked {awaits : AckKind} {id : UInt16} {packet : Bytes}
    (again : Resendable id awaits packet) :
    ∃ q, Packet.parse? packet = some q ∧ q.asks? = none := by
  obtain ⟨q, whole, kind⟩ := again.parse?
  refine ⟨q, whole, Inbound.asks?_eq_none ?_ ?_⟩
  all_goals
    intro other
    rw [other] at kind
    simp [Packet.Kind.resent] at kind

theorem Parting.unasked {packet : Bytes} (parting : Parting packet) :
    ∃ q, Packet.parse? packet = some q ∧ q.asks? = none := by
  cases parting with
  | connect written =>
    obtain ⟨body, whole⟩ := Packet.Connect.parse?_put written
    exact ⟨_, whole, rfl⟩
  | disconnect => exact ⟨_, Packet.parse?_disconnect, rfl⟩
  | pingReq => exact ⟨_, Packet.parse?_pingReq, rfl⟩

/-! ## Moves -/

variable [Environment σ] {s s' : System σ} {errand : Errand} {owed : List Event}
  {picked : List Petition}

theorem unmoved_afterSend_of {bs : Bytes}
    (unasked : ∃ q, Packet.parse? bs = some q ∧ q.asks? = none) :
    Unmoved s.log (s.afterSend bs).log := by
  obtain ⟨q, whole, silent⟩ := unasked
  exact unmoved_afterSend whole silent

theorem CallMove.kept (move : CallMove s s') (h : Kept errand s) : Kept errand s' :=
  h.of_booked move.raises fun here => move.booked (h.booked (move.stands.2 here))

theorem Calls.kept (calls : Calls s s') (h : Kept errand s) : Kept errand s' := by
  induction calls with
  | refl => exact h
  | tail _ move ih => exact move.kept ih

theorem Event.IsPlain.inert {e : Event} (plain : e.IsPlain) (quiet : e.isOutcome = false)
    (client : Client) (told : Bool) : (Entry.raised e client told).Inert :=
  Event.inert quiet (fun _ _ _ same => by subst same; exact plain) client told

omit [Environment σ] in
/-- An event that does not concern requests may arise at any time. -/
theorem Kept.announce {e : Event} (h : Kept errand s) (plain : e.IsPlain)
    (quiet : e.isOutcome = false) : Kept errand (s.announce e) :=
  h.of_frame (Or.inr ⟨_, _, rfl⟩) (.cons _ (plain.inert quiet _ _)) rfl rfl id rfl

theorem Warned.kept (warned : Warned s s') (h : Kept errand s) : Kept errand s' := by
  rcases warned with rfl | ⟨count, calls⟩
  · exact h
  · exact calls.kept (h.announce trivial rfl)

omit [Environment σ] in
/-- Making staged transactions active changes nothing for requests, but for an answer in
hand. -/
theorem Booked.migrate {c : Client} {log : List Entry} (h : Booked (.telling owed picked) c log)
    (sane : c.pending.Sane) :
    Booked (.telling owed picked) { c with pending := c.pending.migrate.2 } log := by
  have requests : c.pending.migrate.2.requests = c.pending.requests := by
    unfold Pending.requests
    rw [Pending.migrate_all sane.distinct]
  exact h.of_handled (.refl _) (.of_eq requests) rfl h.hand id

theorem QuietMove.booked (move : QuietMove s s') (sane : s.client.pending.Sane)
    (h : Booked (.telling owed picked) s.client s.log) :
    Booked (.telling owed picked) s'.client s'.log := by
  cases move with
  | call move => exact move.booked h
  | told plain quiet => exact h.of_frame (.cons _ (plain.inert quiet _ _)) rfl rfl id
  | pulsed => exact h.of_frame (.refl _) rfl rfl id
  | migrated => exact h.migrate sane
  | pinged =>
    exact h.of_frame (unmoved_afterSend_of Parting.pingReq.unasked) (by simp) (by simp)
      fun init => by simpa using init

theorem ThreadMove.booked (move : ThreadMove s s') (ordered : Ordered s)
    (sane : s.client.pending.Sane) (here : s'.client.place ≠ .exited)
    (h : Booked .idle s.client s.log) : Booked .idle s'.client s'.log := by
  have begun : s'.client.phase = .init → s.client.phase = .init := fun init =>
    absurd init (move.stands ordered).2
  cases move with
  | turn _ move => exact move.booked sane h
  | obeyed | opened => exact h.of_frame (.cons _ ⟨rfl, fun _ _ => rfl⟩) rfl rfl begun
  | dialled =>
    exact h.of_frame ((unmoved_close s).trans (.cons _ ⟨rfl, fun _ _ => rfl⟩)) (by simp) (by simp)
      begun
  | saluted _ _ _ _ _ written =>
    exact h.of_frame (unmoved_afterSend_of (Parting.connect written).unasked) (by simp) (by simp)
      begun
  | parted _ parting =>
    exact h.of_frame ((unmoved_afterSend_of parting.unasked).trans (unmoved_close _)) (by simp)
      (by simp) begun
  | closed => exact h.of_frame (unmoved_close s) (by simp) (by simp) begun
  | readEnded => exact (h.migrate sane).of_frame (.refl _) rfl rfl begun
  | @greeted reader p waits =>
    have fresh := (ordered.greeting reader waits).2.2
    exact (h.migrate sane).of_frame (.cons_same rfl (if_pos fresh) fun _ _ => fresh) rfl rfl begun
  | left => exact absurd rfl here
  | _ => exact h.of_frame (.refl _) rfl rfl begun

theorem ThreadMove.kept (move : ThreadMove s s') (ordered : Ordered s)
    (sane : s.client.pending.Sane) (h : Kept .idle s) : Kept .idle s' :=
  h.of_booked move.raises fun here =>
    move.booked ordered sane here (h.booked (move.stands ordered).1)

theorem AckKind.isRequest_iff {kind : AckKind} :
    kind.isRequest = true ↔ kind = .subAck ∨ kind = .unsubAck := by
  cases kind <;> simp [isRequest]

/-- What is done with a packet that answers no request leaves requests alone. -/
theorem TurnMove.booked {p : Inbound} (move : TurnMove (some p) s s') (other : ¬ p.IsVerdict)
    (busy : s.Busy) (sane : s.client.pending.Sane)
    (h : Booked (.telling owed picked) s.client s.log) :
    Booked (.telling owed picked) s'.client s'.log := by
  have begun : s'.client.phase = .init → s.client.phase = .init := fun init =>
    absurd init (move.busy busy).2
  have handled (log : s'.log = s.log)
      (requests : s'.client.pending.requests.Perm s.client.pending.requests)
      (subscriptions : s'.client.subscriptions = s.client.subscriptions) :
      Booked (.telling owed picked) s'.client s'.log :=
    h.of_handled (log ▸ .refl _) requests (by rw [subscriptions]) h.hand begun
  cases move with
  | call move => exact move.booked h
  | told _ plain apart =>
    have quiet := Bool.eq_false_iff.2 fun outcome => other (apart outcome p rfl)
    exact h.of_frame (.cons _ (plain.inert quiet _ _)) rfl rfl id
  | filed _ _ verdict => exact absurd (verdict p rfl) other
  | pulsed => exact h.of_frame (.refl _) rfl rfl id
  | delivered _ _ which =>
    rcases which with rfl | rfl
    all_goals exact h.of_frame (.cons _ ⟨rfl, fun _ _ => rfl⟩) rfl rfl id
  | remembered _ _ _ _ _ absent =>
    exact handled rfl (Pending.requests_cons_other (Pending.insert_perm absent) rfl) rfl
  | forgotten => exact handled rfl (Pending.requests_take_other rfl).symm rfl
  | @completed _ _ awaits id t which =>
    have message : awaits.isRequest = false := by rcases which with rfl | rfl <;> rfl
    have taken : Booked (.telling owed picked) (s.client.without awaits id) s.log :=
      h.of_handled (.refl _) (Pending.requests_take_other message).symm rfl h.hand begun
    exact taken.of_frame (.cons _ ⟨rfl, fun _ _ => rfl⟩) rfl rfl fun init => init
  | @advanced _ _ id t began read taken =>
    have absent : (s.client.pending.take .pubRec id).2.contains .pubComp id = false :=
      sane.distinct.absent_of_take taken rfl
    have put := Pending.insert_perm (t := s.client.ending began t id) absent
    exact handled rfl ((Pending.requests_cons_other put rfl).trans
      (Pending.requests_take_other rfl).symm) rfl
  | @answered _ _ awaits id request kind =>
    rcases AckKind.isRequest_iff.1 request with rfl | rfl
    · exact absurd (Or.inl kind) other
    · exact absurd (Or.inr kind) other
  | replied _ owed =>
    exact h.of_frame (unmoved_afterSend_of owed.unasked) (by simp) (by simp) begun

/-! ## Ends of requests -/

/-- What the ledger has in hand when a request is about to end. -/
def Ending.Holds (q : Petition) (hand : Option (Petition × Bytes)) : Ending → Prop
  | .answered codes => hand = some (q, codes)
  | .expired => hand = none
  | .discarded => False

/-- Whether a request that waits by the ledger is gone from both registries, and the first
of the events that its ending calls for is to arise next. -/
structure Closing (q : Petition) (ending : Ending) (picked : List Petition) (c : Client)
    (log : List Entry) : Prop where
  waits : q ∈ (Ledger.read log).waiting
  held : Held ((Ledger.read log).waiting.erase q) picked c
  told : Entry.outcomes log = (Ledger.read log).verdicts
  owed : (Ledger.read log).owed = []
  hand : ending.Holds q (Ledger.read log).hand
  orderly : Ledger.Orderly log
  stated : ∀ p ∈ (Ledger.read log).waiting, p.filters ≠ [] ∧ p.kind.isRequest = true
  begun : c.phase ≠ .init

namespace Petition

theorem isOutcome_of_mem_verdicts {q : Petition} {ending : Ending} {e : Event}
    (member : e ∈ q.verdicts ending) : e.isOutcome = true := by
  have failure (topic : String) : (q.failure topic).isOutcome = true := by
    unfold failure
    split <;> rfl
  have verdict (topic : String) (code : UInt8) : (q.verdict topic code).isOutcome = true := by
    unfold Petition.verdict
    split <;> rfl
  cases ending with
  | discarded => cases member
  | expired =>
    obtain ⟨filter, -, rfl⟩ := List.mem_map.1 member
    exact failure filter.1
  | answered codes =>
    unfold verdicts at member
    dsimp only at member
    split at member
    · split at member
      · obtain ⟨⟨filter, code⟩, -, rfl⟩ := List.mem_map.1 member
        exact verdict filter.1 code
      · obtain ⟨filter, -, rfl⟩ := List.mem_map.1 member
        rfl
    · obtain ⟨filter, -, rfl⟩ := List.mem_map.1 member
      rfl

/-- A request that was not given up ends with an event at least. -/
theorem verdicts_ne_nil {q : Petition} {ending : Ending} (stated : q.filters ≠ [])
    (due : ending ≠ .discarded) : q.verdicts ending ≠ [] := by
  cases ending with
  | discarded => exact absurd rfl due
  | expired => exact mt List.map_eq_nil_iff.1 stated
  | answered codes =>
    unfold verdicts
    dsimp only
    split
    · split
      next same =>
        intro none
        rw [List.map_eq_nil_iff, List.zip_eq_nil_iff] at none
        rcases none with none | none
        · exact stated none
        · rw [none, List.length_nil, List.length_eq_zero_iff] at same
          exact stated same
      · exact mt List.map_eq_nil_iff.1 stated
    · exact mt List.map_eq_nil_iff.1 stated

/-! The events of an ending, by the entries of the request. -/

theorem verdicts_expired (q : Petition) :
    q.verdicts .expired = q.entries.map fun subject => q.failure subject.topic := by
  rw [entries, List.map_map]
  rfl

theorem verdicts_granted {q : Petition} {codes : Bytes} (kind : q.kind = .subAck)
    (same : q.entries.length = codes.length) :
    q.verdicts (.answered codes) =
      (q.entries.zip codes).map fun (subject, code) => q.verdict subject.topic code := by
  rw [entries, List.length_map] at same
  rw [verdicts, if_pos kind, if_pos same, entries, List.zip_map_left, List.map_map]
  rfl

theorem verdicts_refused {q : Petition} {codes : Bytes} (kind : q.kind = .subAck)
    (apart : q.entries.length ≠ codes.length) :
    q.verdicts (.answered codes) =
      q.entries.map fun subject => .subscribeFailed subject.topic q.id := by
  rw [entries, List.length_map] at apart
  rw [verdicts, if_pos kind, if_neg apart, entries, List.map_map]
  rfl

theorem verdicts_dropped {q : Petition} {codes : Bytes} (kind : q.kind = .unsubAck) :
    q.verdicts (.answered codes) =
      q.entries.map fun subject => .unsubscribed subject.topic q.id := by
  rw [verdicts, kind, if_neg AckKind.noConfusion, entries, List.map_map]
  rfl

theorem exists_of_keys {waiting : List Petition} {keys : List (AckKind × UInt16)}
    (waits : ∀ key ∈ keys, ∃ p ∈ waiting, p.key = key) :
    ∃ picked : List Petition, picked.map key = keys ∧ picked ⊆ waiting := by
  induction keys with
  | nil => exact ⟨[], rfl, List.nil_subset _⟩
  | cons first keys ih =>
    obtain ⟨p, member, rfl⟩ := waits first List.mem_cons_self
    obtain ⟨picked, rfl, among⟩ := ih fun key later => waits key (List.mem_cons_of_mem _ later)
    exact ⟨p :: picked, rfl, List.cons_subset.2 ⟨member, among⟩⟩

/-- The first event of a request that expires names the request. -/
theorem id_of_expired {p q : Petition} {e : Event}
    (first : (p.verdicts .expired).head? = some e) (same : (q.verdicts .expired).head? = some e) :
    p.id = q.id := by
  have named {p : Petition} (first : (p.verdicts .expired).head? = some e) :
      e.packetId? = some p.id := by
    obtain ⟨filter, -, rfl⟩ := List.mem_map.1 (List.mem_of_head? first)
    unfold failure
    split <;> rfl
  exact Option.some.inj ((named first).symm.trans (named same))

end Petition

namespace Closing

variable {q : Petition} {ending : Ending} {c : Client} {log : List Entry} {e : Event}
  {rest : List Event}

/-- The first event of a request that ends is told as such by the ledger. -/
theorem tell (h : Closing q ending picked c log) (first : q.verdicts ending = e :: rest) :
    (Ledger.read log).tell e = (Ledger.read log).conclude q ending := by
  have hand := h.hand
  unfold Ledger.tell
  rw [h.owed]
  cases ending with
  | discarded => cases hand
  | answered codes =>
    change (Ledger.read log).hand = some (q, codes) at hand
    rw [hand]
  | expired =>
    have own : (q.verdicts .expired).head? = some e := by rw [first, List.head?_cons]
    have found : (Ledger.read log).waiting.find? (fun p => (p.verdicts .expired).head? == some e) =
        some q := by
      cases search : (Ledger.read log).waiting.find? _ with
      | none =>
        have unfit := List.find?_eq_none.1 search q h.waits
        exact absurd (beq_iff_eq.2 own) unfit
      | some p =>
        have fits := List.find?_some search
        have same := Petition.id_of_expired (beq_iff_eq.1 fits) own
        exact congrArg some (List.inj_on_of_nodup_map h.orderly.nodup
          (List.mem_of_find?_eq_some search) h.waits same)
    change (Ledger.read log).hand = none at hand
    rw [hand]
    dsimp only
    rw [found]

theorem read_announced (h : Closing q ending picked c log) (first : q.verdicts ending = e :: rest)
    (client : Client) (told : Bool) :
    Ledger.read (.raised e client told :: log) = (Ledger.read log).conclude q ending :=
  have outcome := Petition.isOutcome_of_mem_verdicts (first ▸ List.mem_cons_self)
  (Ledger.read_told outcome client told log).trans (h.tell first)

/-- With the first of its events a request has ended, and the others are owed. -/
theorem announced (h : Closing q ending picked c log) (first : q.verdicts ending = e :: rest)
    (client : Client) (told : Bool) :
    Booked (.telling rest picked) c (.raised e client told :: log) := by
  have outcome : e.isOutcome = true :=
    Petition.isOutcome_of_mem_verdicts (first ▸ List.mem_cons_self)
  have read := h.read_announced first client told
  refine ⟨?_, ?_, ?_, ?_, ⟨h.orderly, ?_, fun _ => Entry.noConfusion⟩, ?_,
    fun init => absurd init h.begun⟩
  · rw [read]
    exact h.held
  · rw [read, Entry.outcomes_told outcome, h.told, List.append_assoc]
    change _ ++ (e :: rest) = ((Ledger.read log).close q ending).verdicts
    rw [Ledger.verdicts_close, first]
  · rw [read]
    exact congrArg List.tail first
  · rw [read]
    rfl
  · rw [read]
    exact h.orderly.nodup.sublist (List.erase_sublist.map _)
  · rw [read]
    exact fun p member => h.stated p (List.mem_of_mem_erase member)

end Closing

/-- An event that is owed arises. -/
theorem Booked.announced {c : Client} {log : List Entry} {e : Event} {rest : List Event}
    (h : Booked (.telling (e :: rest) picked) c log) (outcome : e.isOutcome = true)
    (client : Client) (told : Bool) :
    Booked (.telling rest picked) c (.raised e client told :: log) := by
  have owed : (Ledger.read log).owed = e :: rest := h.owed
  have read : Ledger.read (.raised e client told :: log) =
      { Ledger.read log with owed := rest } := by
    rw [Ledger.read_told outcome, Ledger.tell, owed]
  refine ⟨?_, ?_, ?_, ?_, h.orderly_cons (fun _ => Entry.noConfusion) ?_, ?_, ?_⟩
  · rw [read]
    exact h.held
  · rw [read, Entry.outcomes_told outcome, List.append_assoc]
    exact h.told
  · rw [read]
    rfl
  · rw [read]
    exact h.hand
  · rw [read]
    exact h.nodup
  · rw [read]
    exact h.stated
  · rw [read]
    exact h.early

/-- Whether events are to arise in turn, the first of them as one that is owed or as the
first of a request that ends. -/
inductive Due (events : List Event) (picked : List Petition) (s : System σ) : Prop
  | owed : Kept (.telling events picked) s → Due events picked s
  | closing {q : Petition} {ending : Ending} {marked : List Petition} :
    events = q.verdicts ending → Closing q ending picked s.client s.log →
    Shown (Witnessed s.log marked) s.log →
    (∀ p ∈ marked, p ∈ picked ∨ p = q ∧ ending = .expired) → Due events picked s

namespace Due

variable {e : Event} {events rest : List Event}

omit [Environment σ] in
theorem announce (h : Due (e :: rest) picked s) (outcome : e.isOutcome = true) :
    Kept (.telling rest picked) (s.announce e) := by
  have raises : Unraised s (s.announce e) ∨ Raised s (s.announce e) := Or.inr ⟨_, _, rfl⟩
  cases h with
  | owed kept =>
    exact .of_shown kept.shown raises (fun here => (kept.booked here).announced outcome _ _)
      fun _ => Marked.later (suffix_of_raises raises)
  | @closing q ending marked first closing shown fewer =>
    refine .of_shown shown raises (fun _ => closing.announced first.symm _ _) fun p mark => ?_
    rcases mark with ended | member
    · exact Or.inl (Ledger.ended_later (suffix_of_raises raises) ended)
    · rcases fewer p member with still | ⟨rfl, rfl⟩
      · exact Or.inr still
      · refine Or.inl ?_
        rw [System.announce_log, closing.read_announced first.symm]
        exact List.mem_cons_self

theorem tell (h : Due (e :: rest) picked s) (outcome : e.isOutcome = true) :
    Act.Ends (Act.tell e) s fun _ s' => Due rest picked s' :=
  (Act.tell_calls e).imp fun _ _ calls => .owed (calls.kept (h.announce outcome))

omit [Environment σ] in
/-- What was granted may change at any time. -/
theorem filed (h : Due events picked s) {subscriptions : Subscriptions}
    (asked : subscriptions.asked = s.client.subscriptions.asked) :
    Due events picked (s.change fun c => { c with subscriptions }) := by
  cases h with
  | owed kept =>
    exact .owed (kept.of_booked (Or.inl (.of_log rfl)) fun here =>
      (kept.booked here).of_handled (.refl _) (.refl _) asked (kept.booked here).hand id)
  | closing first closing shown fewer =>
    exact .closing first ⟨closing.waits, closing.held.of_same (.refl _) asked, closing.told,
      closing.owed, closing.hand, closing.orderly, closing.stated, closing.begun⟩ shown fewer

omit [Environment σ] in
/-- A request has ended once no events are to arise. -/
theorem done (h : Due [] picked s) : Kept (.telling [] picked) s := by
  cases h with
  | owed kept => exact kept
  | @closing q ending _ none closing =>
    refine absurd none.symm (Petition.verdicts_ne_nil (closing.stated q closing.waits).1 ?_)
    rintro rfl
    exact closing.hand

omit [Environment σ] in
/-- Actions that each raise an event raise all of them. -/
theorem forM {α : Type} {f : α → Act σ Unit} {event : α → Event}
    (each : ∀ (a : α) (rest : List Event) (s : System σ), Due (event a :: rest) picked s →
      Act.Ends (f a) s fun _ s' => Due rest picked s') (as : List α)
    (h : Due (as.map event) picked s) :
    Act.Ends (as.forM f) s fun _ s' => Kept (.telling [] picked) s' := by
  induction as generalizing s with
  | nil => exact h.done
  | cons a as ih =>
    change Act.Ends (f a >>= fun _ => as.forM f) s _
    rw [Act.ends_bind]
    exact (each a _ s h).imp fun _ _ due => ih due

end Due

/-! ## Answers -/

section Answers

variable {kind : AckKind} {id : UInt16} {codes : Bytes} {c : Client} {log : List Entry}

omit [Environment σ] in
/-- An answer that nothing waits for ends nothing. -/
theorem Booked.untaken (h : Booked (.answering (kind, id) codes) c log)
    (missing : (c.pending.take kind id).1 = none) : Booked .idle c log := by
  obtain ⟨-, ⟨nothing, -⟩ | ⟨q, -, -, present⟩⟩ := h.hand
  · exact ⟨h.held, h.told, h.owed, nothing, h.orderly, h.stated, h.early⟩
  · obtain ⟨t, active, own⟩ := Pending.contains_iff.1 present
    exact absurd (Transaction.isFor_iff.2 own) (List.find?_eq_none.1 missing t active)

omit [Environment σ] in
/-- The request that an answer is for ends once it is gone from both registries. -/
theorem Booked.taken (h : Booked (.answering (kind, id) codes) c log) (begun : c.phase ≠ .init)
    {t : Transaction} (taken : (c.pending.take kind id).1 = some t) :
    ∃ q : Petition, q.kind = kind ∧ q.id = id ∧ c.subscriptions.ofRequest id = q.entries ∧
      Closing q (.answered codes) []
        { c.without kind id with subscriptions := c.subscriptions.dropRequest id } log := by
  obtain ⟨active, own⟩ := Pending.of_take_eq_some taken
  obtain ⟨request, ⟨-, absent⟩ | ⟨q, answered, key, -⟩⟩ := h.hand
  · rw [Pending.contains_iff.2 ⟨t, active, own⟩] at absent
    cases absent
  · cases key
    have waits := (Ledger.read_sound log).hand q codes answered
    have perm := Pending.requests_cons (Pending.take_perm taken) (own.2 ▸ request)
    rw [own.1, own.2] at perm
    have held : Held ((Ledger.read log).waiting.erase q) []
        { c.without q.kind q.id with subscriptions := c.subscriptions.dropRequest q.id } :=
      h.held.close h.nodup waits (perm.append_right _) (Subscriptions.asked_dropRequest q.id)
        (List.Subset.refl _)
    exact ⟨q, rfl, rfl, h.held.ofRequest h.nodup waits,
      ⟨waits, held, (List.append_nil _).symm.trans h.told, h.owed, answered, h.orderly, h.stated,
        begun⟩⟩

omit [Environment σ] in
theorem Kept.untaken (h : Kept (.answering (kind, id) codes) s)
    (missing : (s.client.pending.take kind id).1 = none) : Kept .idle s :=
  ⟨fun here => (h.booked here).untaken missing, h.shown⟩

omit [Environment σ] in
theorem Kept.taken (h : Kept (.answering (kind, id) codes) s) (busy : s.Busy) {t : Transaction}
    (taken : (s.client.pending.take kind id).1 = some t) :
    ∃ q : Petition, q.kind = kind ∧ q.id = id ∧ s.client.subscriptions.ofRequest id = q.entries ∧
      Due (q.verdicts (.answered codes)) [] ((s.change (·.without kind id)).change
        fun c => { c with subscriptions := c.subscriptions.dropRequest id }) := by
  have here : s.client.place ≠ .exited := by rw [busy.1]; exact Place.noConfusion
  obtain ⟨q, own, same, listed, closing⟩ := (h.booked here).taken busy.2 taken
  exact ⟨q, own, same, listed, .closing rfl closing h.shown fun _ none => by cases none⟩

namespace Act

omit [Environment σ] in
@[simp]
theorem ends_takeListed {id : UInt16} {Q : List Subject → System σ → Prop} :
    Ends (takeListed id) s Q ↔
      Q (s.client.subscriptions.ofRequest id)
        (s.change fun c => { c with subscriptions := c.subscriptions.dropRequest id }) :=
  Iff.rfl

/-- A code of an answer is told of in one event. -/
theorem settle_due {q : Petition} {subject : Subject} {code : UInt8} {rest : List Event}
    (h : Due (q.verdict subject.topic code :: rest) picked s) :
    Ends (settle q.id subject code) s fun _ s' => Due rest picked s' := by
  unfold Petition.verdict at h
  unfold settle
  cases code : Qos.ofByte? code with
  | none =>
    rw [code] at h
    exact h.tell rfl
  | some qos =>
    rw [code] at h
    rw [ends_bind, ends_update, ends_bind]
    have dropped := h.filed (Subscriptions.asked_dropGranted subject.topic)
    refine (dropped.tell rfl).imp fun _ s₁ due => ?_
    rw [ends_update]
    exact due.filed (Subscriptions.asked_add_confirm subject qos)

theorem onSubAck_kept (h : Kept (.answering (.subAck, id) codes) s) (busy : s.Busy) :
    Ends (onSubAck id codes) s fun _ s' => Kept .idle s' := by
  unfold onSubAck
  rw [ends_bind, ends_take]
  cases taken : (s.client.pending.take .subAck id).1 with
  | none =>
    rw [System.change_without taken]
    exact h.untaken taken
  | some t =>
    obtain ⟨q, kind, rfl, listed, due⟩ := h.taken busy taken
    dsimp only
    rw [ends_bind, ends_takeListed, System.change_client, Client.without, listed]
    split
    next same =>
      rw [Petition.verdicts_granted kind same] at due
      exact due.forM fun (subject, code) rest s due => settle_due due
    next apart =>
      rw [Petition.verdicts_refused kind apart] at due
      exact due.forM fun subject rest s due => due.tell rfl

theorem onUnsubAck_kept (h : Kept (.answering (.unsubAck, id) codes) s) (busy : s.Busy) :
    Ends (onUnsubAck id) s fun _ s' => Kept .idle s' := by
  unfold onUnsubAck
  rw [ends_bind, ends_take]
  cases taken : (s.client.pending.take .unsubAck id).1 with
  | none =>
    rw [System.change_without taken]
    exact h.untaken taken
  | some t =>
    obtain ⟨q, kind, rfl, listed, due⟩ := h.taken busy taken
    dsimp only
    rw [ends_bind, ends_takeListed, System.change_client, Client.without, listed]
    rw [Petition.verdicts_dropped kind] at due
    refine due.forM fun subject rest s due => ?_
    rw [ends_bind, ends_update]
    exact (due.filed (Subscriptions.asked_remove subject.topic)).tell rfl

end Act

theorem Inbound.isRequest_of_verdict {p : Inbound} {key : AckKind × UInt16}
    (verdict : p.verdict? = some (key, codes)) : key.1.isRequest = true := by
  unfold verdict? at verdict
  split at verdict
  · obtain ⟨a, -, same⟩ := Option.map_eq_some_iff.1 verdict
    cases same
    rfl
  · obtain ⟨a, -, same⟩ := Option.map_eq_some_iff.1 verdict
    cases same
    rfl
  · cases verdict

/-- A request that waits is among the active transactions when a packet was read. -/
theorem Booked.answerable (h : Booked .idle c log) (sane : c.pending.Sane) {q : Petition}
    (waits : q ∈ (Ledger.read log).waiting) :
    c.pending.migrate.2.contains q.kind q.id = true := by
  have member : q.key ∈ c.pending.requests := by
    have among := h.held.handled.symm.subset (List.mem_map_of_mem (f := Petition.key) waits)
    rwa [Errand.picked, List.map_nil, List.append_nil] at among
  obtain ⟨-, t, among, kind, own⟩ := Pending.mem_requests.1 member
  rw [Pending.migrate_of_distinct sane.distinct]
  exact Pending.contains_iff.2 ⟨t, among, own, kind⟩

theorem Booked.heard (h : Booked .idle c log) (sane : c.pending.Sane)
    (stale : Entry.isFresh log = false) (p : Inbound) :
    Booked (.upon p) { c with pending := c.pending.migrate.2 } (.received p :: log) := by
  have read : Ledger.read (.received p :: log) = (Ledger.read log).hear p :=
    if_neg (by rw [stale]; exact Bool.false_ne_true)
  have migrated := h.migrate sane
  have nothing : (Errand.upon p).picked = [] ∧ (Errand.upon p).owed = [] := by
    unfold Errand.upon
    split <;> exact ⟨rfl, rfl⟩
  refine ⟨?_, ?_, ?_, ?_, ⟨h.orderly, ?_, fun _ _ _ => h.hand⟩, ?_, ?_⟩
  · rw [read, nothing.1]
    exact migrated.held
  · rw [read, nothing.2]
    exact (congrArg (· ++ []) (List.append_nil _)).trans h.told
  · rw [read, nothing.2]
    exact h.owed
  · rw [read, Errand.upon, Ledger.hear]
    cases verdict : p.verdict? with
    | none => rfl
    | some answer =>
      obtain ⟨key, codes⟩ := answer
      have request := Inbound.isRequest_of_verdict verdict
      cases found : (Ledger.read log).find? key with
      | none =>
        have unasked : ∀ q ∈ (Ledger.read log).waiting, q.key ≠ key := fun q waits same =>
          List.find?_eq_none.1 found q waits (beq_iff_eq.2 same)
        refine ⟨request, Or.inl ⟨?_, migrated.absent request unasked⟩⟩
        exact congrArg (Option.map (·, codes)) found
      | some q =>
        obtain ⟨waits, rfl⟩ := Ledger.mem_of_find? found
        refine ⟨request, Or.inr ⟨q, ?_, rfl, h.answerable sane waits⟩⟩
        exact congrArg (Option.map (·, codes)) found
  · rw [read]
    exact h.nodup
  · rw [read]
    exact h.stated
  · rw [read]
    exact h.early

end Answers

/-! ## Acting on a packet -/

omit [Environment σ] in
theorem System.Busy.here (busy : s.Busy) : s.client.place ≠ .exited := by
  rw [busy.1]
  exact Place.noConfusion

theorem TurnMove.kept {p : Inbound} (move : TurnMove (some p) s s') (other : ¬ p.IsVerdict)
    (busy : s.Busy) (sane : s.client.pending.Sane) (h : Kept .idle s) : Kept .idle s' :=
  h.of_booked move.raises fun _ => move.booked other busy sane (h.booked busy.here)

/-- A reply that failed for good is no request, and neither is closing the transport. -/
theorem Kept.lost {packet : Bytes} (h : Kept .idle s)
    (unasked : ∃ q, Packet.parse? packet = some q ∧ q.asks? = none) (busy : s.Busy) :
    Kept .idle (s.afterSend packet).close := by
  refine h.of_booked (Or.inl (.trans (.afterSend s packet) (.close _))) fun _ => ?_
  have unmoved := (unmoved_afterSend_of unasked).trans (unmoved_close (s.afterSend packet))
  exact (h.booked busy.here).of_frame unmoved (by simp) (by simp) fun init => by simpa using init

/-- An answer to a request is acted on in one way for each of both kinds. -/
theorem Act.dispatch_verdict {p : Inbound} {key : AckKind × UInt16} {codes : Bytes}
    (verdict : p.verdict? = some (key, codes)) :
    key.1 = .subAck ∧ dispatch p = lift (onSubAck (σ := σ) key.2 codes) ∨
      key.1 = .unsubAck ∧ dispatch p = lift (onUnsubAck (σ := σ) key.2) := by
  unfold Inbound.verdict? at verdict
  split at verdict
  next named =>
    obtain ⟨a, read, same⟩ := Option.map_eq_some_iff.1 verdict
    cases same
    refine Or.inl ⟨rfl, ?_⟩
    rw [dispatch, named]
    dsimp only
    rw [ok_of_toOption read]
    rfl
  next named =>
    obtain ⟨a, read, same⟩ := Option.map_eq_some_iff.1 verdict
    cases same
    refine Or.inr ⟨rfl, ?_⟩
    rw [dispatch, named]
    dsimp only
    rw [ok_of_toOption read]
    rfl
  · cases verdict

/-- An answer that does not decode is passed over. -/
theorem Act.dispatch_undecoded {p : Inbound} (answers : p.IsVerdict) (none : p.verdict? = none) :
    dispatch p = (pure () : Try σ Unit) := by
  unfold Inbound.verdict? at none
  rcases answers with named | named
  all_goals
    rw [named] at none
    rw [dispatch, named]
    dsimp only at none ⊢
  · cases read : Packet.SubAck.decode p.body with
    | error e => rfl
    | ok a =>
      rw [read] at none
      cases none
  · cases read : Packet.decodeAck p.body with
    | error e => rfl
    | ok a =>
      rw [read] at none
      cases none

/-- Acting on a packet keeps the registries in step. -/
theorem Kept.afterDispatch {p : Inbound} (h : Kept (.upon p) s) (busy : s.Busy)
    (ordered : Ordered s) (sane : s.client.pending.Sane) : Kept .idle (s.afterDispatch p) := by
  cases verdict : p.verdict? with
  | some answer =>
    obtain ⟨⟨kind, id⟩, codes⟩ := answer
    rw [Errand.upon, verdict] at h
    rcases Act.dispatch_verdict (σ := σ) verdict with ⟨rfl, acts⟩ | ⟨rfl, acts⟩
    · rw [System.afterDispatch, acts]
      exact Act.onSubAck_kept h busy
    · rw [System.afterDispatch, acts]
      exact Act.onUnsubAck_kept h busy
  | none =>
    rw [Errand.upon, verdict] at h
    by_cases answers : p.IsVerdict
    · rw [System.afterDispatch, Act.dispatch_undecoded answers verdict]
      exact h
    · exact (afterDispatch_hold (I := Kept .idle) (J := Kept .idle)
        (fun _ sane busy move => move.kept answers busy sane)
        (fun _ _ busy owed _ h => h.lost owed.unasked busy) (fun _ h => h) busy ordered sane h).2

omit [Environment σ] in
theorem Kept.accept {reader : Frame.Reader} (h : Kept .idle s) (ordered : Ordered s)
    (sane : s.client.pending.Sane) (here : s.client.place = .listening reader) (p : Inbound) :
    Kept (.upon p) (s.accept p) := by
  have stale := ordered.connected (ordered.listening reader here).2
  have read : Unraised s (s.accept p) := .of_entry rfl id
  refine .of_shown h.shown (Or.inl read) (fun _ => ?_) fun q mark => ?_
  · have heard := (h.booked (by rw [here]; exact Place.noConfusion)).heard sane stale p
    exact heard.of_frame (.refl _) rfl rfl id
  · rcases mark with ended | none
    · exact Or.inl (Ledger.ended_later (suffix_of_raises (Or.inl read)) ended)
    · cases none

/-! ## Looking after transactions -/

section Looks

variable {q : Petition} {rest : List Petition} {c : Client} {log : List Entry}

omit [Environment σ] in
/-- A request that was picked expires once its filters are gone, too. -/
theorem Booked.expiring (h : Booked (.telling [] (q :: rest)) c log) (begun : c.phase ≠ .init) :
    c.subscriptions.ofRequest q.id = q.entries ∧
      Closing q .expired rest
        { c with subscriptions := c.subscriptions.dropRequest q.id } log := by
  have waits : q ∈ (Ledger.read log).waiting := h.held.marked List.mem_cons_self
  have held : Held ((Ledger.read log).waiting.erase q) rest
      { c with subscriptions := c.subscriptions.dropRequest q.id } :=
    h.held.close h.nodup waits List.perm_middle (Subscriptions.asked_dropRequest q.id)
      (List.subset_cons_self q rest)
  exact ⟨h.held.ofRequest h.nodup waits, waits, held, (List.append_nil _).symm.trans h.told, h.owed,
    h.hand, h.orderly, h.stated, begun⟩

omit [Environment σ] in
/-- What a look gives up it picks from the requests that wait. -/
theorem Booked.scanned (h : Booked .idle c log) (now limit : UInt32) (force : Bool) :
    ∃ picked : List Petition,
      picked.map Petition.key =
        (c.pending.scan now limit force).1.filterMap Action.expires? ∧
      Booked (.telling [] picked) { c with pending := (c.pending.scan now limit force).2 } log := by
  have requests := c.pending.requests_scan now limit force
  have handled := h.held.handled
  rw [Errand.picked, List.map_nil, List.append_nil] at handled
  have waiting : ∀ key ∈ (c.pending.scan now limit force).1.filterMap Action.expires?,
      ∃ p ∈ (Ledger.read log).waiting, p.key = key := fun key member =>
    List.mem_map.1 (handled.subset (requests.subset (List.mem_append_right _ member)))
  obtain ⟨picked, keys, among⟩ := Petition.exists_of_keys waiting
  refine ⟨picked, keys, ⟨?_, h.held.listed, among⟩, h.told, h.owed, h.hand, h.orderly, h.stated,
    h.early⟩
  rw [Errand.picked, keys]
  exact requests.trans handled

namespace Act

theorem expire_kept {t : Transaction} (key : q.key = (t.awaits, t.packetId))
    (h : Kept (.telling [] (q :: rest)) s) (busy : s.Busy) :
    Ends (expire t) s fun _ s' => Kept (.telling [] rest) s' := by
  obtain ⟨listed, closing⟩ := (h.booked busy.here).expiring busy.2
  have kind : t.awaits = q.kind := (congrArg Prod.fst key).symm
  have own : t.packetId = q.id := (congrArg Prod.snd key).symm
  have stated := Petition.entries_ne_nil (closing.stated q closing.waits).1
  have due : Due (q.verdicts .expired) rest
      (s.change fun c => { c with subscriptions := c.subscriptions.dropRequest q.id }) :=
    .closing rfl closing h.shown fun p member => by
      rcases List.mem_cons.1 member with rfl | later
      · exact Or.inr ⟨rfl, rfl⟩
      · exact Or.inl later
  unfold expire
  rw [ends_bind, ends_takeListed, own, listed, kind]
  dsimp only
  rw [if_neg (by simpa using stated)]
  rw [Petition.verdicts_expired] at due
  refine due.forM fun subject events s due => ?_
  unfold Petition.failure at due
  split
  next first =>
    rw [if_pos first] at due
    exact due.tell rfl
  next second =>
    rw [if_neg second] at due
    exact due.tell rfl

/-- An event that does not concern requests is told of in the middle of a look. -/
theorem tell_kept {e : Event} (h : Kept errand s) (plain : e.IsPlain)
    (quiet : e.isOutcome = false) (busy : s.Busy) :
    Ends (tell e) s fun _ s' => s'.Busy ∧ Kept errand s' :=
  (tell_calls e).imp fun _ _ calls =>
    ⟨calls.busy busy, calls.kept (h.announce plain quiet)⟩

/-- What a look asked for is done, and with it all that was picked has expired. -/
theorem carryActions_kept {actions : List Action} (failure : Option Error) (busy : s.Busy)
    (sendable : ∀ kind id retries packet, .resend kind id retries packet ∈ actions →
      Resendable id kind packet)
    (keys : picked.map Petition.key = actions.filterMap Action.expires?)
    (h : Kept (.telling [] picked) s) :
    Ends (carryActions failure actions) s fun _ s' => Kept .idle s' := by
  induction actions generalizing s failure picked with
  | nil =>
    obtain rfl := List.map_eq_nil_iff.1 keys
    exact h
  | cons a actions ih =>
    have later : ∀ kind id retries packet, .resend kind id retries packet ∈ actions →
        Resendable id kind packet := fun kind id retries packet member =>
      sendable kind id retries packet (List.mem_cons_of_mem _ member)
    cases a with
    | warn kind id retries =>
      rw [carryActions, ends_bind]
      exact (tell_kept (e := .retryWarning kind id retries) h trivial rfl busy).imp
        fun _ _ told => ih failure told.1 later keys told.2
    | expire t =>
      obtain ⟨q, picked, rfl, key, keys⟩ := List.map_eq_cons_iff.1 keys
      rw [carryActions, ends_bind]
      have expired : Ends (expire t) s fun _ s' =>
          Turns none s s' ∧ Kept (.telling [] picked) s' :=
        ⟨expire_turns t, expire_kept key h busy⟩
      exact expired.imp fun _ _ ended => ih failure (ended.1.busy busy) later keys ended.2
    | resend kind id retries packet =>
      cases failure with
      | some e => exact ih (some e) busy later keys h
      | none =>
        have unasked := (sendable kind id retries packet List.mem_cons_self).unasked
        have sent : Kept (.telling [] picked) (s.afterSend packet) :=
          h.of_booked (Or.inl (.afterSend s packet)) fun _ =>
            (h.booked busy.here).of_frame (unmoved_afterSend_of unasked) (by simp) (by simp)
              fun init => by simpa using init
        rw [carryActions, ends_bind, try_transmit]
        cases s.sendResult packet with
        | error e => exact ih _ (busy.afterSend packet) later keys sent
        | ok u =>
          dsimp only
          rw [ends_bind]
          exact (tell_kept (e := .resent kind id retries) sent trivial rfl
            (busy.afterSend packet)).imp fun _ _ told => ih none told.1 later keys told.2

theorem scan_kept (force : Bool) (busy : s.Busy) (sane : s.client.pending.Sane)
    (h : Kept .idle s) : Ends (scan force) s fun _ s' => Kept .idle s' := by
  unfold scan
  rw [ends_bind, ends_client, ends_bind, ends_now, ends_bind, ends_draw]
  let reading := (Environment.now s.outside).1
  let limit := s.client.config.retryWarning
  obtain ⟨picked, keys, booked⟩ := (h.booked busy.here).scanned reading limit force
  refine carryActions_kept none busy (fun kind id retries packet member => ?_)
    keys (.of_shown h.shown (Or.inl (.of_log rfl)) (fun _ => booked) fun p mark => ?_)
  · obtain ⟨t, active, looked⟩ := Pending.mem_scan_actions.1 member
    exact (sane.sound t (Pending.mem_all.2 (Or.inl active))).resendable looked
  · rcases mark with ended | none
    · exact Or.inl ended
    · cases none

end Act

end Looks

/-! ## All runs -/

/-- Every step keeps the registries in step. -/
theorem Step.kept (step : Step s s') (ordered : Ordered s) (sane : s.client.pending.Sane)
    (h : Kept .idle s) : Kept .idle s' := by
  cases step with
  | call move => exact move.kept h
  | thread pace =>
    cases pace with
    | move move => exact move.kept ordered sane h
    | @looked failure force busy run =>
      have looked : Kept .idle ((Act.scan force).run s).2 := Act.scan_kept force busy sane h
      rwa [run] at looked
  | @attended s₁ reader p here warned =>
    obtain ⟨busy, ordered', sane'⟩ := warned.good ordered sane here
    exact (warned.kept (h.accept ordered sane here p)).afterDispatch busy ordered' sane'

omit [Environment σ] in
theorem Kept.fresh (config : Config) (outside : σ) :
    Kept .idle (⟨Client.fresh config, outside, []⟩ : System σ) := by
  refine ⟨fun _ => ⟨⟨.refl _, rfl, List.nil_subset _⟩, rfl, rfl, rfl, trivial,
    fun _ none => (by cases none), fun _ => rfl⟩, fun _ _ _ _ none => ?_⟩
  cases List.suffix_nil.1 none

theorem Reachable.kept (reachable : Reachable s) : Kept .idle s :=
  reachable.induct Kept.fresh fun _ _ ordered sane step => step.kept ordered sane

/-- At every moment before a client is gone its registries are in step with its log. -/
theorem Reachable.witnessed (reachable : Reachable s) {client : Client} {log : List Entry}
    (moment : s.Moment client log) : Witnessed s.log [] client log :=
  moment.holds (fun here => ⟨.idle, reachable.kept.booked here, fun _ none => by cases none⟩)
    reachable.kept.shown

/-! ## Calls -/

/-- The request about filters that a call makes: what answers it, and its filters. -/
def Call.asks? : Call → Option (AckKind × List (String × Qos))
  | .subscribe filter qos => some (.subAck, [(filter, qos)])
  | .subscribeAll filters => some (.subAck, filters)
  | .unsubscribe filter => some (.unsubAck, [(filter, .atMostOnce)])
  | .unsubscribeAll filters => some (.unsubAck, filters.map fun filter => (filter, .atMostOnce))
  | _ => none

theorem Call.isRequest_of_asks {c : Call} {kind : AckKind} {filters : List (String × Qos)}
    (asks : c.asks? = some (kind, filters)) : kind.isRequest = true := by
  cases c <;> cases asks <;> rfl

namespace Act

/-- A request that was submitted is in the ledger. -/
theorem Submitted.makes {r : Request} (issued : r.Issued) (request : r.awaits.isRequest = true)
    {id : UInt16} (submitted : Submitted s r (.ok id) s') :
    Ledger.read s'.log = (Ledger.read s.log).make r.awaits id r.listed := by
  cases submitted with
  | @requested outside _ packet began free written sent =>
    obtain ⟨q, whole, ⟨-, -, asks⟩ | ⟨message, -⟩⟩ := issued.asks written
    · let f (c : Client) := (c.passOver id).register began r.awaits id packet r.subject r.listed
      have result : ((s.shift outside).change f).sendResult packet = .ok () :=
        ((s.shift outside).sendResult_change packet rfl rfl).trans sent
      rcases afterSend_asks (s := (s.shift outside).change f) whole asks with
        ⟨⟨e, failed⟩, -⟩ | ⟨-, a, log, unmoved, last, makes⟩
      · cases failed.symm.trans result
      · change Ledger.read (((s.shift outside).change f).afterSend packet).log = _
        rw [last]
        exact (makes _).trans (congrArg (·.make r.awaits id r.listed) unmoved.read)
    · rw [request] at message
      cases message

theorem submit_makes {r : Request} (issued : r.Issued) (request : r.awaits.isRequest = true) :
    Ends (submit r).run s fun answer s' => ∀ id, answer = .ok id →
      Ledger.read s'.log = (Ledger.read s.log).make r.awaits id r.listed :=
  (submit_submitted issued.isLocal).imp fun _ _ submitted id answered => by
    subst answered
    exact submitted.makes issued request

theorem subscribe_makes (filters : List (String × Qos)) :
    Ends (subscribe filters).run s fun answer s' => ∀ id, answer = .ok id →
      Ledger.read s'.log = (Ledger.read s.log).make .subAck id filters := by
  unfold subscribe
  cases filters with
  | nil => exact fun _ answered => by cases answered
  | cons first rest =>
    refine after_checkFilters (fun checked => ?_) fun _ _ _ answered => by cases answered
    refine after_ensureConnected (fun _ _ => ?_) fun _ _ _ answered => by cases answered
    exact submit_makes (.subscribe first (List.cons_ne_nil first rest)
      (List.forall_mem_map.1 checked)) rfl

theorem unsubscribe_makes (filters : List String) :
    Ends (unsubscribe filters).run s fun answer s' => ∀ id, answer = .ok id →
      Ledger.read s'.log = (Ledger.read s.log).make .unsubAck id
        (filters.map fun filter => (filter, .atMostOnce)) := by
  unfold unsubscribe
  cases filters with
  | nil => exact fun _ answered => by cases answered
  | cons first rest =>
    refine after_checkFilters (fun checked => ?_) fun _ _ _ answered => by cases answered
    refine after_ensureConnected (fun _ _ => ?_) fun _ _ _ answered => by cases answered
    exact submit_makes (.unsubscribe _ (List.cons_ne_nil first rest) checked) rfl

/-- A call about filters that is answered with an identifier makes a request. -/
theorem perform_makes (raise : Event → Act σ Unit) (caller : Caller) {c : Call} {kind : AckKind}
    {filters : List (String × Qos)} (asks : c.asks? = some (kind, filters)) :
    Ends (perform raise caller c) s fun reply s' => ∀ id, reply = .packetId (some id) →
      Ledger.read s'.log = (Ledger.read s.log).make kind id filters := by
  have answered {action : Try σ UInt16}
      (makes : Ends action.run s fun answer s' => ∀ id, answer = .ok id →
        Ledger.read s'.log = (Ledger.read s.log).make kind id filters) :
      Ends (answer (fun id => .packetId (some id)) action) s fun reply s' =>
        ∀ id, reply = .packetId (some id) →
          Ledger.read s'.log = (Ledger.read s.log).make kind id filters := by
    rw [ends_answer]
    refine makes.imp fun answer s' makes id replied => ?_
    cases answer with
    | error e => cases replied
    | ok own =>
      cases replied
      exact makes id rfl
  cases c <;> cases asks
  case subscribe filter qos => exact answered (subscribe_makes [(filter, qos)])
  case subscribeAll => exact answered (subscribe_makes filters)
  case unsubscribe filter => exact answered (unsubscribe_makes [filter])
  case unsubscribeAll filters => exact answered (unsubscribe_makes filters)

end Act

/-! ## Requests settled -/

/-- Whether an event says what became of one filter of a request. -/
def Event.Tells (kind : AckKind) (id : UInt16) (filter : String × Qos) : Event → Prop
  | .subscribed topic _ own | .subscribeFailed topic own =>
    kind = .subAck ∧ topic = filter.1 ∧ own = id
  | .unsubscribed topic own | .unsubscribeFailed topic own =>
    kind = .unsubAck ∧ topic = filter.1 ∧ own = id
  | _ => False

/-- The transactions of a request: those that wait for its answer under its identifier. -/
def Petition.handlers (p : Petition) (c : Client) : Nat :=
  c.pending.all.countP (·.isFor p.kind p.id)

/-- What can have become of a request by a log, and what a client then holds of it. -/
inductive Petition.Stands (p : Petition) (c : Client) (log now : List Entry) : Prop
  /-- It waits, with one transaction and all of its filters in order. -/
  | pending : p ∈ (Ledger.read log).waiting → (∀ ending, (p, ending) ∉ (Ledger.read log).ended) →
    p.handlers c = 1 → c.subscriptions.ofRequest p.id = p.entries → Stands p c log now
  /-- A look under way picked it for expiry, which has come by now. -/
  | picked : p ∈ (Ledger.read log).waiting → (∀ ending, (p, ending) ∉ (Ledger.read log).ended) →
    (p, .expired) ∈ (Ledger.read now).ended → p.handlers c = 0 →
    c.subscriptions.ofRequest p.id = p.entries → Stands p c log now
  /-- It ended once, and nothing is left of it: what stands under its identifier is of a later
  request. -/
  | ended {ending : Ending} {newer older : List (Petition × Ending)} :
    (Ledger.read log).ended = newer ++ (p, ending) :: older →
    p ∉ (Ledger.read log).waiting → (∀ q ∈ newer ++ older, q.1 ≠ p) →
    Entry.outcomes log ++ (Ledger.read log).owed =
      Ledger.due older ++ p.verdicts ending ++ Ledger.due newer →
    (ending ≠ .discarded → List.Forall₂ (Event.Tells p.kind p.id) p.filters (p.verdicts ending)) →
    ((∀ q ∈ (Ledger.read log).waiting, q.key ≠ p.key) → p.handlers c = 0) →
    ((∀ q ∈ (Ledger.read log).waiting, q.id ≠ p.id) → c.subscriptions.ofRequest p.id = []) →
    Stands p c log now

/-- Codes tell of the filters that they belong to. -/
theorem Petition.tells_granted {p : Petition} (kind : p.kind = .subAck)
    (filters : List (String × Qos)) (codes : Bytes) (same : filters.length = codes.length) :
    List.Forall₂ (Event.Tells p.kind p.id) filters
      ((filters.zip codes).map fun (filter, code) => p.verdict filter.1 code) := by
  induction filters generalizing codes with
  | nil => exact .nil
  | cons first filters ih =>
    cases codes with
    | nil => cases same
    | cons code codes =>
      refine .cons ?_ (ih codes (Nat.succ.inj same))
      change (p.verdict first.1 code).Tells p.kind p.id first
      unfold Petition.verdict
      split <;> exact ⟨kind, rfl, rfl⟩

/-- Every ending but discarding tells of each filter of a request, in order. -/
theorem Petition.tells_verdicts {p : Petition} {ending : Ending}
    (request : p.kind.isRequest = true) (due : ending ≠ .discarded) :
    List.Forall₂ (Event.Tells p.kind p.id) p.filters (p.verdicts ending) := by
  have each {event : String × Qos → Event} (tells : ∀ f, (event f).Tells p.kind p.id f) :
      List.Forall₂ (Event.Tells p.kind p.id) p.filters (p.filters.map event) :=
    List.forall₂_map_right_iff.2 (List.forall₂_same.2 fun f _ => tells f)
  have kinds := AckKind.isRequest_iff.1 request
  cases ending with
  | discarded => exact absurd rfl due
  | expired =>
    refine each fun f => ?_
    unfold failure
    split
    next kind => exact ⟨kind, rfl, rfl⟩
    next kind => exact ⟨kinds.resolve_left kind, rfl, rfl⟩
  | answered codes =>
    unfold verdicts
    dsimp only
    split
    next kind =>
      split
      next same => exact tells_granted kind p.filters codes same
      · exact each fun f => ⟨kind, rfl, rfl⟩
    next kind => exact each fun f => ⟨kinds.resolve_left kind, rfl, rfl⟩

namespace Held

variable {waiting picked : List Petition} {c : Client} {p : Petition}

theorem handlers_of_waiting (h : Held waiting picked c) (distinct : (waiting.map Petition.id).Nodup)
    (request : p.kind.isRequest = true) (member : p ∈ waiting) :
    p.handlers c = if p ∈ picked then 0 else 1 := by
  have keys : (waiting.map Petition.key).Nodup :=
    .of_map Prod.snd (by rw [List.map_map]; exact distinct)
  have once := List.nodup_append.1 (h.handled.nodup_iff.2 keys)
  have handlers : p.handlers c = c.pending.requests.count p.key :=
    Pending.countP_isFor request p.id
  rw [handlers]
  split
  next among =>
    exact List.count_eq_zero.2 fun left =>
      once.2.2 _ left _ (List.mem_map_of_mem among) rfl
  next apart =>
    refine List.count_eq_one_of_mem once.1 ?_
    have held := h.handled.symm.subset (List.mem_map_of_mem (f := Petition.key) member)
    refine (List.mem_append.1 held).resolve_right fun other => apart ?_
    obtain ⟨q, among, same⟩ := List.mem_map.1 other
    exact List.inj_on_of_nodup_map keys (h.marked among) member same ▸ among

theorem handlers_of_other (h : Held waiting picked c) (request : p.kind.isRequest = true)
    (other : ∀ q ∈ waiting, q.key ≠ p.key) : p.handlers c = 0 := by
  have handlers : p.handlers c = c.pending.requests.count p.key :=
    Pending.countP_isFor request p.id
  rw [handlers, List.count_eq_zero]
  intro left
  obtain ⟨q, waits, same⟩ := List.mem_map.1 (h.handled.subset (List.mem_append_left _ left))
  exact other q waits same

end Held

/-- Of a request that ended the ledger says so once. -/
theorem Ledger.Sound.split_ended {l : Ledger} (sound : l.Sound) {p : Petition} {ending : Ending}
    (ended : (p, ending) ∈ l.ended) :
    ∃ newer older, l.ended = newer ++ (p, ending) :: older ∧ p ∉ l.waiting ∧
      ∀ q ∈ newer ++ older, q.1 ≠ p := by
  obtain ⟨newer, older, split⟩ := List.append_of_mem ended
  refine ⟨newer, older, split, fun waits => sound.not_ended waits ending ended, ?_⟩
  have once := (List.nodup_append.1 (List.map_append ▸ sound.once)).2.1
  rw [List.map_map, split] at once
  have apart := (List.nodup_cons.1 ((List.perm_middle.map _).nodup_iff.1 once)).1
  intro q among same
  exact apart (List.mem_map.2 ⟨q, among, congrArg Petition.serial same⟩)

/-- A request in the ledger of a client stands in one of three ways. -/
theorem Booked.stands {now log : List Entry} {c : Client} {p : Petition}
    (h : Booked errand c log) (marked : ∀ q ∈ errand.picked, Marked now [] q)
    (request : p.kind.isRequest = true)
    (made : p ∈ (Ledger.read log).waiting ∨ ∃ ending, (p, ending) ∈ (Ledger.read log).ended) :
    p.Stands c log now := by
  have sound := Ledger.read_sound log
  rcases made with waits | ⟨ending, ended⟩
  · have handlers := h.held.handlers_of_waiting h.nodup request waits
    have listed := h.held.ofRequest h.nodup waits
    have going := fun ending => sound.not_ended waits ending
    split at handlers
    next among =>
      refine .picked waits going ((marked p among).resolve_right ?_) handlers listed
      exact List.not_mem_nil
    next apart => exact .pending waits going handlers listed
  · obtain ⟨newer, older, split, gone, once⟩ := sound.split_ended ended
    refine .ended split gone once ?_ (Petition.tells_verdicts request)
      (h.held.handlers_of_other request) h.held.ofRequest_other
    have told := h.told
    rwa [← h.owed, Ledger.verdicts, split, Ledger.due_append, Ledger.due_cons] at told

/-- **Requests settled.**  Of every request about filters that a call was answered with an
identifier for, at every later moment before the client is gone, either it is pending in
both registries, or it is expiring in a look under way, or it has ended once and nothing
is left of it.  The events of filters are exactly those that the endings call for, one
request after the other, and between inputs none is owed and no answer is left to act
on. -/
theorem requests_settled {t t' : System σ} {raise : Event → Act σ Unit} {caller : Caller}
    {c : Call} {kind : AckKind} {filters : List (String × Qos)} {id : UInt16}
    (asks : c.asks? = some (kind, filters))
    (called : (Act.perform raise caller c).run t = (.packetId (some id), t'))
    (reachable : Reachable s) {client : Client} {log : List Entry} (moment : s.Moment client log)
    (later : t'.log <:+ log) (alive : client.place ≠ .exited) :
    Petition.Stands ⟨(Ledger.read t.log).made, kind, id, filters⟩ client log s.log ∧
      Entry.outcomes log ++ (Ledger.read log).owed = (Ledger.read log).verdicts ∧
      (s.client.place ≠ .exited →
        (Ledger.read s.log).owed = [] ∧ (Ledger.read s.log).hand = none) := by
  obtain ⟨errand, booked, marked⟩ := reachable.witnessed moment alive
  have makes : Ledger.read t'.log = (Ledger.read t.log).make kind id filters := by
    have ends := Act.perform_makes (s := t) raise caller asks
    unfold Act.Ends at ends
    rw [called] at ends
    exact ends id rfl
  have made : ⟨(Ledger.read t.log).made, kind, id, filters⟩ ∈ (Ledger.read t'.log).waiting := by
    rw [makes]
    exact List.mem_cons_self
  refine ⟨?_, booked.owed ▸ booked.told, fun here => ?_⟩
  · exact booked.stands marked (Call.isRequest_of_asks asks) (Ledger.waits_later later made)
  · have rests := reachable.kept.booked here
    exact ⟨rests.owed, rests.hand⟩

/-- A client that asked for one filter twice in one request, to drop it in another, and was
answered to the first. -/
def asking : System Script :=
  inSession.takes
    [.call (.subscribeAll [("a/b", .exactlyOnce), ("a/b", .atMostOnce)]),
      .call (.unsubscribe "a/b"), .heard (.ok [0x90, 4]) 0, .heard (.ok [0, 1, 1, 0x80]) 0]

theorem requests_settled_asking :
    Petition.Stands ⟨0, .subAck, 1, [("a/b", .exactlyOnce), ("a/b", .atMostOnce)]⟩
        asking.client asking.log asking.log ∧
      (Ledger.read asking.log).waiting = [⟨1, .unsubAck, 2, [("a/b", .atMostOnce)]⟩] ∧
      Entry.outcomes asking.log =
        [.subscribed "a/b" .atLeastOnce 1, .subscribeFailed "a/b" 1] := by
  have made : (Ledger.read inSession.log).made = 0 := by decide +kernel
  have read : (Ledger.read asking.log).waiting = [⟨1, .unsubAck, 2, [("a/b", .atMostOnce)]⟩] ∧
      Entry.outcomes asking.log =
        [.subscribed "a/b" .atLeastOnce 1, .subscribeFailed "a/b" 1] := by decide +kernel
  let c : Call := .subscribeAll [("a/b", .exactlyOnce), ("a/b", .atMostOnce)]
  have answered : ((Act.perform (Act.raise .application) .application c).run inSession).1 =
      .packetId (some 1) := by decide +kernel
  have reachable : Reachable asking := inSession_reachable.takes _
  obtain ⟨stands, -, -⟩ := requests_settled (c := c) rfl (Prod.ext answered rfl) reachable .now
    (by decide +kernel) (by decide +kernel)
  rw [made] at stands
  exact ⟨stands, read⟩

end Mqtt
