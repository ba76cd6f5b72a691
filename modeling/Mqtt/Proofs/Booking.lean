import Mqtt.Proofs.Ledger
import Mqtt.Proofs.Moments

/-!
# The registries and the ledger

A client keeps a request about filters in two registries: its transaction waits for the
answer, and its filters are listed.  `Booked` says that both hold exactly the requests
that wait by the ledger, but for what the thread is in the middle of (`Errand`): of a
request that a look picked for expiry only the filters are left, and of one that has
ended some events may be owed.  Calls keep it whatever the errand is.
-/

namespace Mqtt

/-- What the requests about filters among some transactions wait for. -/
def Transaction.requests (ts : List Transaction) : List (AckKind × UInt16) :=
  (ts.filter (·.awaits.isRequest)).map fun t => (t.awaits, t.packetId)

/-- What the requests about filters wait for. -/
def Pending.requests (p : Pending) : List (AckKind × UInt16) :=
  Transaction.requests p.all

/-- The entries of the requests that wait, in the order of their coming. -/
def Subscriptions.asked (s : Subscriptions) : List Subject :=
  s.entries.filter (!·.isConfirmed)

/-! ## Transactions of requests -/

namespace Pending

variable {p q : Pending} {t : Transaction}

theorem requests_cons (more : p.all.Perm (t :: q.all)) (request : t.awaits.isRequest = true) :
    p.requests.Perm ((t.awaits, t.packetId) :: q.requests) :=
  (filter_all_cons more request).map _

theorem requests_cons_other (more : p.all.Perm (t :: q.all))
    (message : t.awaits.isRequest = false) : p.requests.Perm q.requests :=
  (filter_all_cons_other more (Bool.eq_false_iff.1 message)).map _

theorem mem_requests {kind : AckKind} {id : UInt16} :
    (kind, id) ∈ p.requests ↔
      kind.isRequest = true ∧ ∃ t ∈ p.all, t.awaits = kind ∧ t.packetId = id := by
  unfold requests Transaction.requests
  rw [List.mem_map]
  constructor
  · rintro ⟨t, member, same⟩
    cases same
    obtain ⟨among, request⟩ := List.mem_filter.1 member
    exact ⟨request, t, among, rfl, rfl⟩
  · rintro ⟨request, t, among, rfl, rfl⟩
    exact ⟨t, List.mem_filter.2 ⟨among, request⟩, rfl⟩

/-- Each transaction of a request is one of what its requests wait for. -/
theorem countP_isFor {kind : AckKind} (request : kind.isRequest = true) (id : UInt16) :
    p.all.countP (·.isFor kind id) = p.requests.count (kind, id) := by
  unfold requests Transaction.requests
  rw [List.count, List.countP_map, List.countP_filter]
  refine List.countP_congr fun t _ => ?_
  rw [Transaction.isFor_iff]
  constructor
  · rintro ⟨rfl, rfl⟩
    simpa using request
  · intro own
    simpa [and_comm] using (Bool.and_eq_true_iff.1 own).1

theorem mem_requests_of_contains {kind : AckKind} {id : UInt16} (request : kind.isRequest = true)
    (present : p.contains kind id = true) : (kind, id) ∈ p.requests := by
  obtain ⟨t, active, own, kind⟩ := contains_iff.1 present
  exact mem_requests.2 ⟨request, t, mem_all.2 (Or.inl active), kind, own⟩

theorem requests_take_other {kind : AckKind} {id : UInt16} (message : kind.isRequest = false) :
    p.requests.Perm (p.take kind id).2.requests := by
  cases taken : (p.take kind id).1 with
  | none => rw [take_of_none taken]
  | some t =>
    obtain ⟨-, -, kind⟩ := of_take_eq_some taken
    exact requests_cons_other (take_perm taken) (kind ▸ message)

end Pending

/-- The request that an action gives up, if it gives up one. -/
def Action.expires? : Action → Option (AckKind × UInt16)
  | .expire t => some (t.awaits, t.packetId)
  | _ => none

namespace Transaction

theorem requests_append (ts us : List Transaction) :
    requests (ts ++ us) = requests ts ++ requests us := by
  simp [requests]

/-- A look at a transaction keeps its request or asks to give it up. -/
theorem look_requests (now limit : UInt32) (force : Bool) (t : Transaction) :
    requests (t.look now limit force).1.toList ++
      (t.look now limit force).2.toList.filterMap Action.expires? = requests [t] := by
  unfold look
  split
  · exact List.append_nil _
  · unfold requests
    split
    next request => rw [List.filter_cons, if_pos request]; rfl
    next lasting =>
      rw [List.filter_cons, if_neg lasting]
      dsimp only
      split <;> simp [again, lasting, Action.expires?]

theorem looks_requests (now limit : UInt32) (force : Bool) (ts : List Transaction) :
    (requests (ts.filterMap fun t => (t.look now limit force).1) ++
      (ts.filterMap fun t => (t.look now limit force).2).filterMap Action.expires?).Perm
        (requests ts) := by
  induction ts with
  | nil => exact .refl _
  | cons t ts ih =>
    have first := t.look_requests now limit force
    have apart {α β : Type} (f : α → Option β) (a : α) (as : List α) :
        (a :: as).filterMap f = (f a).toList ++ as.filterMap f := by
      simp only [List.filterMap_eq_flatMap_toList, List.flatMap_cons]
    have whole : requests (t :: ts) = requests [t] ++ requests ts := requests_append [t] ts
    rw [apart _ t, apart _ t, requests_append, List.filterMap_append, whole, ← first]
    rw [List.perm_iff_count] at ih ⊢
    intro key
    have rest := ih key
    simp only [List.count_append] at rest ⊢
    omega

end Transaction

/-- A look at all transactions keeps the requests but those that it asks to give up. -/
theorem Pending.requests_scan (p : Pending) (now limit : UInt32) (force : Bool) :
    ((p.scan now limit force).2.requests ++
      (p.scan now limit force).1.filterMap Action.expires?).Perm p.requests := by
  have parts (q : Pending) : q.requests =
      Transaction.requests q.active ++ Transaction.requests q.staged.reverse :=
    Transaction.requests_append _ _
  have active := Transaction.looks_requests now limit force p.active
  rw [parts, parts, scan_staged, scan_eq_looks, List.append_assoc]
  refine (List.perm_append_comm.append_left _).trans ?_
  rw [← List.append_assoc]
  exact active.append_right _

/-! ## Entries of requests -/

namespace Subscriptions

variable {s : Subscriptions}

theorem asked_addAll {new : List Subject} (open_ : ∀ e ∈ new, e.isConfirmed = false) :
    (s.addAll new).asked = s.asked ++ new := by
  have kept : new.filter (!·.isConfirmed) = new :=
    List.filter_eq_self.2 fun e member => by rw [open_ e member]; rfl
  unfold asked addAll
  rw [List.filter_append, kept]

/-- What is granted is no entry of a request. -/
theorem asked_add_confirm (subject : Subject) (qos : Qos) :
    (s.add (subject.confirm qos)).asked = s.asked := by
  unfold asked add addAll
  rw [List.filter_append]
  exact List.append_nil _

theorem asked_dropGranted (topic : String) : (s.dropGranted topic).asked = s.asked := by
  unfold asked dropGranted
  rw [List.filter_filter]
  apply List.filter_congr
  intro e _
  cases e.isConfirmed <;> rfl

theorem asked_remove (topic : String) : (s.remove topic).asked = s.asked := by
  unfold asked remove
  dsimp only
  induction s.entries with
  | nil => rfl
  | cons e es ih =>
    rw [List.eraseP_cons]
    cases found : e.isConfirmed && e.topic == topic with
    | true =>
      have granted : e.isConfirmed = true := (Bool.and_eq_true_iff.1 found).1
      rw [cond_true, List.filter_cons, granted]
      rfl
    | false => rw [cond_false, List.filter_cons, List.filter_cons, ih]

theorem ofRequest_eq (id : UInt16) :
    s.ofRequest id = s.asked.filter fun e => e.request == some id := by
  unfold ofRequest asked
  rw [List.filter_filter]
  apply List.filter_congr
  intro e _
  cases own : e.request <;> simp [Subject.isConfirmed, own]

theorem asked_dropRequest (id : UInt16) :
    (s.dropRequest id).asked = s.asked.filter fun e => e.request != some id := by
  unfold dropRequest asked
  rw [List.filter_filter, List.filter_filter]
  exact List.filter_congr fun e _ => Bool.and_comm _ _

end Subscriptions

namespace Petition

variable {p : Petition} {ps : List Petition}

theorem request_of_mem_entries {e : Subject} (member : e ∈ p.entries) :
    e.request = some p.id := by
  obtain ⟨_, _, rfl⟩ := List.mem_map.1 member
  rfl

theorem entries_open : ∀ e ∈ p.entries, e.isConfirmed = false := by
  intro e member
  rw [Subject.isConfirmed, request_of_mem_entries member]
  rfl

theorem entries_ne_nil (stated : p.filters ≠ []) : p.entries ≠ [] :=
  mt List.map_eq_nil_iff.1 stated

/-- Under one identifier stand the entries of the requests with it. -/
theorem entries_filter (ps : List Petition) (id : UInt16) :
    (ps.flatMap entries).filter (fun e => e.request == some id) =
      (ps.filter (·.id == id)).flatMap entries := by
  induction ps with
  | nil => rfl
  | cons p ps ih =>
    rw [List.flatMap_cons, List.filter_append, ih, List.filter_cons]
    by_cases own : p.id = id
    · rw [if_pos (beq_iff_eq.2 own), List.flatMap_cons, List.filter_eq_self.2 fun e member => by
        rw [request_of_mem_entries member, own, beq_self_eq_true]]
    · rw [if_neg (mt beq_iff_eq.1 own), List.filter_eq_nil_iff.2 fun e member => by
        rw [request_of_mem_entries member]; simpa using own, List.nil_append]

theorem entries_filter_other (ps : List Petition) (id : UInt16) :
    (ps.flatMap entries).filter (fun e => e.request != some id) =
      (ps.filter (·.id != id)).flatMap entries := by
  induction ps with
  | nil => rfl
  | cons p ps ih =>
    rw [List.flatMap_cons, List.filter_append, ih, List.filter_cons]
    by_cases own : p.id = id
    · rw [if_neg (by simp [own]), List.filter_eq_nil_iff.2 fun e member => by
        rw [request_of_mem_entries member, own]; simp, List.nil_append]
    · rw [if_pos (by simp [own]), List.flatMap_cons, List.filter_eq_self.2 fun e member => by
        rw [request_of_mem_entries member]; simpa using own]

theorem filter_own (distinct : (ps.map id).Nodup) (member : p ∈ ps) :
    ps.filter (·.id == p.id) = [p] := by
  induction ps with
  | nil => cases member
  | cons q ps ih =>
    obtain ⟨apart, distinct⟩ := List.nodup_cons.1 distinct
    rcases List.mem_cons.1 member with rfl | later
    · rw [List.filter_cons, if_pos (beq_self_eq_true p.id),
        List.filter_eq_nil_iff.2 fun q later => by
          simpa using fun same => apart (List.mem_map.2 ⟨q, later, same⟩)]
    · have other : q.id ≠ p.id := fun same => apart (List.mem_map.2 ⟨p, later, same.symm⟩)
      rw [List.filter_cons, if_neg (mt beq_iff_eq.1 other), ih distinct later]

theorem erase_eq (distinct : (ps.map id).Nodup) (member : p ∈ ps) :
    ps.erase p = ps.filter (·.id != p.id) := by
  rw [(List.Nodup.of_map _ distinct).erase_eq_filter]
  apply List.filter_congr
  intro q among
  by_cases same : q = p
  · rw [same, bne_self_eq_false, bne_self_eq_false]
  · have apart : q.id ≠ p.id := fun own =>
      same (List.inj_on_of_nodup_map distinct among member own)
    rw [bne_iff_ne.2 same, bne_iff_ne.2 apart]

end Petition

/-! ## What both registries hold -/

/-- Whether the registries hold some requests, given the latest first: a transaction of each
of them but of those that were picked for expiry, and the filters of all of them. -/
structure Held (waiting picked : List Petition) (c : Client) : Prop where
  handled : (c.pending.requests ++ picked.map Petition.key).Perm (waiting.map Petition.key)
  listed : c.subscriptions.asked = waiting.reverse.flatMap Petition.entries
  marked : picked ⊆ waiting

namespace Held

variable {waiting picked picked' : List Petition} {c c' : Client} {p : Petition} {id : UInt16}

theorem of_same (h : Held waiting picked c)
    (handled : c'.pending.requests.Perm c.pending.requests)
    (listed : c'.subscriptions.asked = c.subscriptions.asked) : Held waiting picked c' :=
  ⟨(handled.append_right _).trans h.handled, listed.trans h.listed, h.marked⟩

/-- Under the identifier of a request that waits its filters are listed. -/
theorem ofRequest (h : Held waiting picked c) (distinct : (waiting.map Petition.id).Nodup)
    (member : p ∈ waiting) : c.subscriptions.ofRequest p.id = p.entries := by
  rw [Subscriptions.ofRequest_eq, h.listed, Petition.entries_filter, List.filter_reverse,
    Petition.filter_own distinct member]
  exact List.append_nil _

theorem ofRequest_other (h : Held waiting picked c) (other : ∀ p ∈ waiting, p.id ≠ id) :
    c.subscriptions.ofRequest id = [] := by
  have none : waiting.filter (·.id == id) = [] :=
    List.filter_eq_nil_iff.2 fun p member => by simpa using other p member
  rw [Subscriptions.ofRequest_eq, h.listed, Petition.entries_filter, List.filter_reverse, none]
  rfl

/-- An identifier that lists nothing is of no request that waits. -/
theorem other_of_free (h : Held waiting picked c) (distinct : (waiting.map Petition.id).Nodup)
    (stated : ∀ p ∈ waiting, p.filters ≠ []) (free : c.subscriptions.ofRequest id = []) :
    id ∉ waiting.map Petition.id := by
  intro member
  obtain ⟨p, waits, rfl⟩ := List.mem_map.1 member
  rw [h.ofRequest distinct waits] at free
  exact Petition.entries_ne_nil (stated p waits) free

theorem make (h : Held waiting picked c)
    (handled : c'.pending.requests.Perm (p.key :: c.pending.requests))
    (listed : c'.subscriptions.asked = c.subscriptions.asked ++ p.entries) :
    Held (p :: waiting) picked c' := by
  refine ⟨?_, ?_, List.subset_cons_of_subset p h.marked⟩
  · exact (handled.append_right _).trans (h.handled.cons p.key)
  · rw [listed, h.listed, List.reverse_cons, List.flatMap_append]
    exact congrArg _ (List.append_nil _).symm

/-- A request is gone from both registries. -/
theorem close (h : Held waiting picked c) (distinct : (waiting.map Petition.id).Nodup)
    (member : p ∈ waiting)
    (handled : (c.pending.requests ++ picked.map Petition.key).Perm
      (p.key :: (c'.pending.requests ++ picked'.map Petition.key)))
    (listed : c'.subscriptions.asked =
      c.subscriptions.asked.filter fun e => e.request != some p.id)
    (fewer : picked' ⊆ picked) : Held (waiting.erase p) picked' c' := by
  refine ⟨?_, ?_, fun q among => ?_⟩
  · have split : (waiting.map Petition.key).Perm (p.key :: (waiting.erase p).map Petition.key) :=
      (List.perm_cons_erase member).map _
    exact (handled.symm.trans (h.handled.trans split)).cons_inv
  · rw [listed, h.listed, Petition.entries_filter_other, List.filter_reverse,
      Petition.erase_eq distinct member]
  · have keys : (waiting.map Petition.key).Nodup :=
      .of_map Prod.snd (by rw [List.map_map]; exact distinct)
    have once := (handled.symm.trans h.handled).nodup_iff.2 keys
    have apart : q ≠ p := fun same => (List.nodup_cons.1 once).1
      (List.mem_append_right _ (List.mem_map.2 ⟨q, among, congrArg _ same⟩))
    exact (List.mem_erase_of_ne apart).2 (h.marked (fewer among))

end Held

/-! ## Entries that say nothing of requests -/

/-- Whether an entry says nothing of requests about filters. -/
def Entry.Inert (e : Entry) : Prop :=
  e.outcome? = none ∧ ∀ (l : Ledger) earlier, l.enter earlier e = l

/-- Reading a packet may change what is in hand. -/
theorem Entry.Inert.unread {e : Entry} (inert : e.Inert) (p : Inbound) : e ≠ .received p := by
  rintro rfl
  have kept := inert.2 { hand := some (⟨0, .subAck, 0, []⟩, []) } []
  have hand : p.verdict?.bind (fun _ => none) =
      some ((⟨0, .subAck, 0, []⟩ : Petition), ([] : Bytes)) := congrArg Ledger.hand kept
  cases verdict : p.verdict? with
  | none => rw [verdict] at hand; cases hand
  | some => rw [verdict] at hand; cases hand

/-- Whether a later log says no more of requests about filters. -/
structure Unmoved (log log' : List Entry) : Prop where
  read : Ledger.read log' = Ledger.read log
  outcomes : Entry.outcomes log' = Entry.outcomes log
  orderly : Ledger.Orderly log → Ledger.Orderly log'

namespace Unmoved

variable {log log' log'' new : List Entry} {e : Entry}

theorem refl (log : List Entry) : Unmoved log log :=
  ⟨rfl, rfl, id⟩

theorem trans (first : Unmoved log log') (later : Unmoved log' log'') : Unmoved log log'' :=
  ⟨later.read.trans first.read, later.outcomes.trans first.outcomes,
    fun orderly => later.orderly (first.orderly orderly)⟩

theorem cons_same (silent : e.outcome? = none)
    (same : (Ledger.read log).enter log e = Ledger.read log)
    (unread : ∀ p, e = .received p → Entry.isFresh log = true) : Unmoved log (e :: log) := by
  refine ⟨same, ?_, fun orderly => ⟨orderly, ?_, fun p own stale => ?_⟩⟩
  · rw [Entry.outcomes, silent]
    exact List.append_nil _
  · rw [Ledger.read, same]
    exact orderly.nodup
  · rw [unread p own] at stale
    cases stale

theorem cons (log : List Entry) (inert : e.Inert) : Unmoved log (e :: log) :=
  cons_same inert.1 (inert.2 _ _) fun p own => absurd own (inert.unread p)

theorem append (log : List Entry) (inert : ∀ e ∈ new, e.Inert) : Unmoved log (new ++ log) := by
  induction new with
  | nil => exact refl log
  | cons e new ih =>
    exact (ih fun e member => inert e (List.mem_cons_of_mem _ member)).trans
      (cons _ (inert e List.mem_cons_self))

end Unmoved

theorem Entry.inert_of_unasked {a : Transport.Attempt} (unasked : asks? (.sent a) = none) :
    Entry.Inert (.sent a) := by
  refine ⟨rfl, fun l earlier => ?_⟩
  unfold Ledger.enter
  rw [unasked]
  rfl

theorem Entry.inert_of_partial {a : Transport.Attempt} (partly : a.completes = false) :
    Entry.Inert (.sent a) :=
  inert_of_unasked (if_neg (by rw [partly]; exact Bool.false_ne_true))

theorem Entry.IsRemark.inert {e : Entry} (remark : e.IsRemark) : e.Inert := by
  cases e <;> first | exact ⟨rfl, fun _ _ => rfl⟩ | exact absurd remark fun h => h

/-- An event that neither says what became of a filter nor that a transaction was given
up. -/
theorem Event.inert {e : Event} (quiet : e.isOutcome = false)
    (kept : ∀ kind id topic, e ≠ .discarded kind id topic) (client : Client) (told : Bool) :
    (Entry.raised e client told).Inert := by
  cases e <;> first
    | exact ⟨rfl, fun _ _ => rfl⟩
    | exact absurd rfl (kept _ _ _)
    | cases quiet

section Sent

variable {σ : Type} [Environment σ] {s : System σ} {bs : Bytes} {q : Inbound}

/-- A packet that makes no request says nothing of requests. -/
theorem unmoved_afterSend (whole : Packet.parse? bs = some q) (silent : q.asks? = none) :
    Unmoved s.log (s.afterSend bs).log := by
  obtain ⟨new, partly, ⟨-, log⟩ | ⟨-, last, own, full, log⟩⟩ :=
    s.afterSend_cases (Packet.ne_nil_of_parse? whole)
  all_goals
    have offers : Unmoved s.log (new ++ s.log) := .append _ fun e member => by
      obtain ⟨a, rfl, short⟩ := partly e member
      exact Entry.inert_of_partial short
    rw [log]
  · exact offers
  · refine offers.trans (.cons _ (Entry.inert_of_unasked ?_))
    rw [Entry.asks?, if_pos full, own, whole]
    exact silent

/-- A packet that makes a request makes it if sending it ends well. -/
theorem afterSend_asks {kind : AckKind} {id : UInt16} {filters : List (String × Qos)}
    (whole : Packet.parse? bs = some q) (asks : q.asks? = some (kind, id, filters)) :
    ((∃ e, s.sendResult bs = .error e) ∧ Unmoved s.log (s.afterSend bs).log) ∨
      s.sendResult bs = .ok () ∧ ∃ (a : Transport.Attempt) (log : List Entry),
        Unmoved s.log log ∧ (s.afterSend bs).log = .sent a :: log ∧
        ∀ l : Ledger, l.enter log (.sent a) = l.make kind id filters := by
  obtain ⟨new, partly, ⟨failed, log⟩ | ⟨sent, last, own, full, log⟩⟩ :=
    s.afterSend_cases (Packet.ne_nil_of_parse? whole)
  all_goals
    have offers : Unmoved s.log (new ++ s.log) := .append _ fun e member => by
      obtain ⟨a, rfl, short⟩ := partly e member
      exact Entry.inert_of_partial short
  · exact Or.inl ⟨failed, log ▸ offers⟩
  · have asked : Entry.asks? (.sent last) = some (kind, id, filters) := by
      rw [Entry.asks?, if_pos full, own, whole]
      exact asks
    refine Or.inr ⟨sent, _, _, offers, log, fun l => ?_⟩
    unfold Ledger.enter
    rw [asked]

end Sent

/-! ## What the thread is in the middle of -/

/-- What the thread is in the middle of, as far as requests about filters go. -/
inductive Errand where
  /-- An answer was read, and is not acted on yet. -/
  | answering (key : AckKind × UInt16) (codes : Bytes)
  /-- Events are raised: those owed to a request that has ended, then those of the requests
  that were picked for expiry. -/
  | telling (owed : List Event) (picked : List Petition)

namespace Errand

/-- The thread is in the middle of nothing. -/
abbrev idle : Errand :=
  telling [] []

def owed : Errand → List Event
  | answering .. => []
  | telling owed _ => owed

def picked : Errand → List Petition
  | answering .. => []
  | telling _ picked => picked

/-- What there is to do about requests once a packet was read. -/
def upon (p : Inbound) : Errand :=
  match p.verdict? with
  | none => idle
  | some (key, codes) => answering key codes

/-- Whether an answer in hand is the one that is to be acted on: it has a request if a
transaction waits for it. -/
def Holds (hand : Option (Petition × Bytes)) (p : Pending) : Errand → Prop
  | telling .. => hand = none
  | answering key codes => key.1.isRequest = true ∧
    (hand = none ∧ p.contains key.1 key.2 = false ∨
      ∃ q, hand = some (q, codes) ∧ q.key = key ∧ p.contains key.1 key.2 = true)

theorem Holds.of_contains {errand : Errand} {hand : Option (Petition × Bytes)} {p q : Pending}
    (h : errand.Holds hand p) (same : ∀ kind id, kind.isRequest = true →
      q.contains kind id = p.contains kind id) : errand.Holds hand q := by
  cases errand with
  | telling => exact h
  | answering key codes =>
    obtain ⟨request, held⟩ := h
    rw [← same key.1 key.2 request] at held
    exact ⟨request, held⟩

end Errand

/-- Whether the registries hold the requests that wait by the ledger, and the outcomes of
those that ended were told, but for the errand of the thread. -/
structure Booked (errand : Errand) (c : Client) (log : List Entry) : Prop where
  held : Held (Ledger.read log).waiting errand.picked c
  told : Entry.outcomes log ++ errand.owed = (Ledger.read log).verdicts
  owed : (Ledger.read log).owed = errand.owed
  hand : errand.Holds (Ledger.read log).hand c.pending
  orderly : Ledger.Orderly log
  stated : ∀ p ∈ (Ledger.read log).waiting, p.filters ≠ [] ∧ p.kind.isRequest = true
  early : c.phase = .init → (Ledger.read log).waiting = []

namespace Booked

variable {errand : Errand} {c c' : Client} {log log' : List Entry} {e : Entry}

theorem nodup (h : Booked errand c log) : ((Ledger.read log).waiting.map Petition.id).Nodup :=
  h.orderly.nodup

/-- What says nothing of requests and keeps what the registries hold of them. -/
theorem of_handled (h : Booked errand c log) (unmoved : Unmoved log log')
    (handled : c'.pending.requests.Perm c.pending.requests)
    (listed : c'.subscriptions.asked = c.subscriptions.asked)
    (hand : errand.Holds (Ledger.read log).hand c'.pending)
    (phase : c'.phase = .init → c.phase = .init) : Booked errand c' log' := by
  constructor
  · rw [unmoved.read]
    exact h.held.of_same handled listed
  · rw [unmoved.read, unmoved.outcomes]
    exact h.told
  · rw [unmoved.read]
    exact h.owed
  · rw [unmoved.read]
    exact hand
  · exact unmoved.orderly h.orderly
  · rw [unmoved.read]
    exact h.stated
  · rw [unmoved.read]
    exact fun init => h.early (phase init)

theorem of_unmoved (h : Booked errand c log) (unmoved : Unmoved log log')
    (handled : c'.pending.requests.Perm c.pending.requests)
    (listed : c'.subscriptions.asked = c.subscriptions.asked)
    (active : ∀ kind id, kind.isRequest = true →
      c'.pending.contains kind id = c.pending.contains kind id)
    (phase : c'.phase = .init → c.phase = .init) : Booked errand c' log' :=
  h.of_handled unmoved handled listed (h.hand.of_contains active) phase

theorem of_frame (h : Booked errand c log) (unmoved : Unmoved log log')
    (pending : c'.pending = c.pending) (subscriptions : c'.subscriptions = c.subscriptions)
    (phase : c'.phase = .init → c.phase = .init) : Booked errand c' log' :=
  h.of_unmoved unmoved (by rw [pending]) (by rw [subscriptions]) (fun _ _ _ => by rw [pending])
    phase

theorem orderly_cons (h : Booked errand c log) (unread : ∀ p, e ≠ .received p)
    (now : ((Ledger.read (e :: log)).waiting.map Petition.id).Nodup) :
    Ledger.Orderly (e :: log) :=
  ⟨h.orderly, now, fun p own => absurd own (unread p)⟩

/-- A transaction that is active is of a request that waits. -/
theorem waits (h : Booked errand c log) {kind : AckKind} {id : UInt16}
    (member : (kind, id) ∈ c.pending.requests) :
    ∃ q, (Ledger.read log).find? (kind, id) = some q := by
  have among := h.held.handled.subset (List.mem_append_left _ member)
  obtain ⟨q, waits, same⟩ := List.mem_map.1 among
  exact Option.isSome_iff_exists.1 (List.find?_isSome.2 ⟨q, waits, beq_iff_eq.2 same⟩)

/-- Under one identifier one request waits at most. -/
theorem unique (h : Booked errand c log) {p q : Petition} (p_waits : p ∈ (Ledger.read log).waiting)
    (q_waits : q ∈ (Ledger.read log).waiting) (same : p.id = q.id) : p = q :=
  List.inj_on_of_nodup_map h.nodup p_waits q_waits same

/-- A request is made. -/
theorem make (h : Booked errand c log) {kind : AckKind} {id : UInt16}
    {filters : List (String × Qos)} (request : kind.isRequest = true) (stated : filters ≠ [])
    (free : c.subscriptions.ofRequest id = []) {a : Transport.Attempt}
    (makes : ∀ l : Ledger, l.enter log (.sent a) = l.make kind id filters)
    (handled : c'.pending.requests.Perm ((kind, id) :: c.pending.requests))
    (listed : c'.subscriptions.asked =
      c.subscriptions.asked ++ filters.map fun (topic, qos) => .asked topic qos id)
    (active : c'.pending.active = c.pending.active) (begun : c'.phase ≠ .init) :
    Booked errand c' (.sent a :: log) := by
  let p : Petition := ⟨(Ledger.read log).made, kind, id, filters⟩
  have read : Ledger.read (.sent a :: log) = (Ledger.read log).make kind id filters := makes _
  have new : id ∉ (Ledger.read log).waiting.map Petition.id :=
    h.held.other_of_free h.nodup (fun p waits => (h.stated p waits).1) free
  constructor
  · rw [read]
    exact h.held.make (p := p) handled listed
  · rw [read]
    exact (congrArg (· ++ errand.owed) (List.append_nil _)).trans h.told
  · rw [read]
    exact h.owed
  · rw [read]
    exact h.hand.of_contains fun _ _ _ => by rw [Pending.contains, active]; rfl
  · refine h.orderly_cons (fun _ => Entry.noConfusion) ?_
    rw [read]
    exact List.nodup_cons.2 ⟨new, h.nodup⟩
  · rw [read]
    exact List.forall_mem_cons.2 ⟨⟨stated, request⟩, h.stated⟩
  · exact fun init => absurd init begun

/-- Without a request in the ledger none is active. -/
theorem absent (h : Booked errand c log) {kind : AckKind} {id : UInt16}
    (request : kind.isRequest = true)
    (none : ∀ p ∈ (Ledger.read log).waiting, p.key ≠ (kind, id)) :
    c.pending.contains kind id = false := by
  rw [Bool.eq_false_iff]
  intro present
  obtain ⟨q, found⟩ := h.waits (Pending.mem_requests_of_contains request present)
  obtain ⟨waits, same⟩ := Ledger.mem_of_find? found
  exact none q waits same

/-- What is in hand after a request was given up. -/
theorem holds_giveUp (h : Booked errand c log) {q : Petition}
    (waits : q ∈ (Ledger.read log).waiting)
    (held : Held ((Ledger.read log).waiting.erase q) errand.picked (c.giveUp q.kind q.id)) :
    errand.Holds ((Ledger.read log).hand.filter (·.1 != q)) (c.giveUp q.kind q.id).pending := by
  have hand := h.hand
  cases errand with
  | telling =>
    change (Ledger.read log).hand = none at hand
    rw [hand]
    rfl
  | answering key codes =>
    obtain ⟨request, ⟨nothing, absent⟩ | ⟨p, answered, own, present⟩⟩ := hand
    · refine ⟨request, Or.inl ⟨by rw [nothing]; rfl, ?_⟩⟩
      rw [Bool.eq_false_iff] at absent ⊢
      exact fun present =>
        absent (Pending.contains_of_subset (Pending.remove_active_subset _ _ _) present)
    · have p_waits := (Ledger.read_sound log).hand p codes answered
      by_cases same : p = q
      · subst same
        refine ⟨request, Or.inl ⟨by rw [answered]; simp [Option.filter], ?_⟩⟩
        rw [Bool.eq_false_iff]
        intro still
        have among := held.handled.subset
          (List.mem_append_left _ (Pending.mem_requests_of_contains request still))
        obtain ⟨other, left, key⟩ := List.mem_map.1 among
        obtain ⟨apart, waiting⟩ := (List.Nodup.of_map _ h.nodup).mem_erase_iff.1 left
        exact apart (h.unique waiting waits (congrArg Prod.snd (key.trans own.symm)))
      · refine ⟨request, Or.inr ⟨p, by rw [answered]; simp [Option.filter, same], own, ?_⟩⟩
        refine (Pending.contains_remove_other fun given => same ?_).trans present
        subst own
        exact h.unique p_waits waits given.2.symm

/-- The application gives up a request. -/
theorem giveUp_request (h : Booked errand c log) {q : Petition} {t : Transaction} {topic : String}
    {told : Bool} (found : (Ledger.read log).find? q.key = some q)
    (removed : (c.pending.remove q.kind q.id).1 = some t) (client : Client) :
    Booked errand (c.giveUp q.kind q.id)
      (.raised (.discarded q.kind q.id topic) client told :: log) := by
  obtain ⟨waits, -⟩ := Ledger.mem_of_find? found
  have request := (h.stated q waits).2
  obtain ⟨among, own, kind⟩ := Pending.of_remove_eq_some removed
  have handled := Pending.requests_cons (Pending.remove_perm removed) (kind ▸ request)
  rw [kind, own] at handled
  have held : Held ((Ledger.read log).waiting.erase q) errand.picked (c.giveUp q.kind q.id) := by
    refine h.held.close h.nodup waits (handled.append_right _) ?_ (List.Subset.refl _)
    rw [Client.giveUp, request]
    exact Subscriptions.asked_dropRequest q.id
  have read : Ledger.read (.raised (.discarded q.kind q.id topic) client told :: log) =
      { (Ledger.read log).close q .discarded with
        hand := (Ledger.read log).hand.filter (·.1 != q) } := by
    change (Ledger.read log).giveUp q.key = _
    rw [Ledger.giveUp, found]
  refine ⟨?_, ?_, ?_, ?_, ?_, ?_, fun init => ?_⟩
  · rw [read]
    exact held
  · have closed : ((Ledger.read log).close q .discarded).verdicts = (Ledger.read log).verdicts :=
      (Ledger.verdicts_close _ q .discarded).trans (List.append_nil _)
    rw [read, Entry.outcomes]
    exact (congrArg (· ++ errand.owed) (List.append_nil _)).trans (h.told.trans closed.symm)
  · rw [read]
    exact h.owed
  · rw [read]
    exact h.holds_giveUp waits held
  · refine h.orderly_cons (fun _ => Entry.noConfusion) ?_
    rw [read]
    exact h.nodup.sublist (List.erase_sublist.map _)
  · rw [read]
    exact fun p member => h.stated p (List.mem_of_mem_erase member)
  · rw [h.early init] at waits
    cases waits

/-- The application gives up a transaction. -/
theorem giveUp (h : Booked errand c log) {awaits : AckKind} {id : UInt16} {t : Transaction}
    {topic : String} {told : Bool} (removed : (c.pending.remove awaits id).1 = some t)
    (client : Client) :
    Booked errand (c.giveUp awaits id)
      (.raised (.discarded awaits id topic) client told :: log) := by
  have perm := Pending.remove_perm removed
  obtain ⟨among, own, kind⟩ := Pending.of_remove_eq_some removed
  cases request : awaits.isRequest with
  | false =>
    have none : (Ledger.read log).find? (awaits, id) = none := by
      refine List.find?_eq_none.2 fun p waits same => ?_
      have kind : p.kind = awaits := congrArg Prod.fst (beq_iff_eq.1 same)
      have asks := (h.stated p waits).2
      rw [kind, request] at asks
      cases asks
    refine h.of_unmoved (.cons_same rfl ?_ fun _ => Entry.noConfusion) ?_ ?_ ?_ fun init => init
    · change (Ledger.read log).giveUp (awaits, id) = _
      rw [Ledger.giveUp, none]
    · exact (Pending.requests_cons_other perm (kind ▸ request)).symm
    · rw [Client.giveUp, request]
      rfl
    · intro other id' asks
      refine Pending.contains_remove_other fun same => ?_
      rw [← same.1, request] at asks
      cases asks
  | true =>
    have member := Pending.mem_requests.2 ⟨request, t, among, kind, own⟩
    obtain ⟨q, found⟩ := h.waits member
    obtain ⟨-, same⟩ := Ledger.mem_of_find? found
    cases same
    exact h.giveUp_request found removed client

end Booked

/-! ## Calls -/

/-- What the packet of a call asks for: a request about filters is for what is listed. -/
theorem Act.Request.Issued.asks {r : Act.Request} (issued : r.Issued) {id : UInt16}
    {packet : Bytes} (written : Packet.encode (r.packet id) = .ok packet) :
    ∃ q, Packet.parse? packet = some q ∧
      (r.awaits.isRequest = true ∧ r.listed ≠ [] ∧ q.asks? = some (r.awaits, id, r.listed) ∨
        r.awaits.isRequest = false ∧ r.listed = [] ∧ q.asks? = none) := by
  cases issued with
  | subscribe _ stated =>
    obtain ⟨body, whole, read⟩ := Packet.Subscribe.read_put written
    refine ⟨_, whole, Or.inl ⟨rfl, stated, ?_⟩⟩
    rw [Inbound.asks?, read]
    rfl
  | unsubscribe _ stated =>
    obtain ⟨body, whole, read⟩ := Packet.Unsubscribe.read_put written
    refine ⟨_, whole, Or.inl ⟨rfl, mt List.map_eq_nil_iff.1 stated, ?_⟩⟩
    rw [Inbound.asks?, read]
    rfl
  | atLeastOnce | exactlyOnce =>
    obtain ⟨_, flags, body, -, whole, -⟩ := Packet.Publish.parse?_put written
    exact ⟨_, whole, Or.inr ⟨rfl, rfl, rfl⟩⟩

theorem unmoved_close {σ : Type} (s : System σ) : Unmoved s.log s.close.log := by
  rw [System.close_log]
  split
  · exact .cons _ ⟨rfl, fun _ _ => rfl⟩
  · exact .refl _

variable {σ : Type} [Environment σ] {s s' : System σ} {errand : Errand}

/-- A request that was sent is booked. -/
theorem Booked.requested (h : Booked errand s.client s.log) {r : Act.Request} {id : UInt16}
    {packet : Bytes} (began : UInt32) (issued : r.Issued)
    (connected : s.client.phase = .connected) (free : s.client.isFree id = true)
    (written : Packet.encode (r.packet id) = .ok packet) (sent : s.sendResult packet = .ok ()) :
    Booked errand
      ((s.change fun c => (c.passOver id).register began r.awaits id packet r.subject
        r.listed).afterSend packet).client
      ((s.change fun c => (c.passOver id).register began r.awaits id packet r.subject
        r.listed).afterSend packet).log := by
  let f (c : Client) := (c.passOver id).register began r.awaits id packet r.subject r.listed
  have result : (s.change f).sendResult packet = .ok () :=
    (s.sendResult_change packet rfl rfl).trans sent
  let t : Transaction :=
    { awaits := r.awaits, packetId := id, timer := ⟨began, s.client.config.ackTimeout⟩,
      packet := .request packet, subject := .asked r.subject.1 r.subject.2 id }
  have pending : ((s.change f).afterSend packet).client.pending = s.client.pending.stage t := by
    simp [f, Client.register, Client.passOver, t]
  have subscriptions : ((s.change f).afterSend packet).client.subscriptions =
      s.client.subscriptions.addAll (r.listed.map fun (topic, qos) => .asked topic qos id) := by
    simp [f, Client.register, Client.passOver]
  have perm := s.client.pending.stage_perm t
  obtain ⟨q, whole, ⟨request, stated, asks⟩ | ⟨message, unlisted, silent⟩⟩ := issued.asks written
  · rcases afterSend_asks (s := s.change f) whole asks with
      ⟨⟨e, failed⟩, -⟩ | ⟨-, a, log, unmoved, last, makes⟩
    · cases failed.symm.trans result
    · have before : Booked errand s.client log := h.of_frame unmoved rfl rfl fun init => init
      change Booked errand ((s.change f).afterSend packet).client
        ((s.change f).afterSend packet).log
      rw [last]
      refine before.make request stated (Client.isFree_iff.1 free).2 makes ?_ ?_ ?_ ?_
      · rw [pending]
        exact Pending.requests_cons perm request
      · rw [subscriptions]
        exact Subscriptions.asked_addAll (Petition.entries_open (p := ⟨0, r.awaits, id, r.listed⟩))
      · rw [pending]
        rfl
      · simp [f, Client.register, Client.passOver, connected]
  · refine h.of_unmoved (unmoved_afterSend (s := s.change f) whole silent) ?_ ?_ ?_ ?_
    · change ((s.change f).afterSend packet).client.pending.requests.Perm _
      rw [pending]
      exact Pending.requests_cons_other perm message
    · change ((s.change f).afterSend packet).client.subscriptions.asked = _
      rw [subscriptions, unlisted]
      exact (Subscriptions.asked_addAll fun _ none => by cases none).trans (List.append_nil _)
    · intro kind id' _
      change ((s.change f).afterSend packet).client.pending.contains kind id' = _
      rw [pending]
      rfl
    · intro init
      simp [Client.register, Client.passOver, connected] at init

/-- Calls keep the books. -/
theorem CallMove.booked (move : CallMove s s') (h : Booked errand s.client s.log) :
    Booked errand s'.client s'.log := by
  cases move with
  | remarked e remark => exact h.of_frame (.cons _ remark.inert) rfl rfl id
  | started => exact h.of_frame (.refl _) rfl rfl fun init => by cases init
  | undone =>
    exact h.of_frame (.cons _ (Event.inert rfl (fun _ _ _ same => by cases same) _ _)) rfl rfl id
  | released _ early =>
    have none := h.early early
    have held := h.held
    rw [none] at held
    have handled : s.client.pending.requests = [] :=
      (List.append_eq_nil_iff.1 (List.perm_nil.1 held.handled)).1
    refine h.of_unmoved (unmoved_close s) ?_ ?_ ?_ fun _ => early
    · rw [handled]
      simp [Client.release, Pending.purge, Pending.requests, Transaction.requests, Pending.all]
    · rw [held.listed]
      simp [Client.release, Subscriptions.asked]
    · intro kind id request
      rw [h.absent request fun p waits => by rw [none] at waits; cases waits]
      simp [Client.release, Pending.purge, Pending.contains]
  | discarded removed => exact h.giveUp removed _
  | configured => exact h.of_unmoved (.refl _) (.refl _) rfl (fun _ _ _ => rfl) id
  | requested began issued _ connected free written sent =>
    exact h.requested began issued connected free written sent
  | @refused r own packet e issued _ _ _ written failed =>
    have result : (s.change (·.passOver own)).sendResult packet = .error e :=
      (s.sendResult_change packet rfl rfl).trans failed
    have unmoved : Unmoved s.log ((s.change (·.passOver own)).afterSend packet).log := by
      obtain ⟨q, whole, ⟨-, -, asks⟩ | ⟨-, -, silent⟩⟩ := issued.asks written
      · rcases afterSend_asks (s := s.change (·.passOver own)) whole asks with
          ⟨-, unmoved⟩ | ⟨sent, -⟩
        · exact unmoved
        · cases sent.symm.trans result
      · exact unmoved_afterSend (s := s.change (·.passOver own)) whole silent
    exact h.of_frame unmoved (by simp [Client.passOver]) (by simp [Client.passOver])
      fun init => by simpa [Client.passOver] using init
  | sent _ _ _ _ written =>
    obtain ⟨_, flags, body, -, whole, -⟩ := Packet.Publish.parse?_put written
    exact h.of_frame (unmoved_afterSend whole rfl) (by simp) (by simp) fun init => by
      simpa using init
  | _ => exact h.of_frame (.refl _) rfl rfl id

end Mqtt
