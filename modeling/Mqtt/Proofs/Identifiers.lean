import Mathlib.Logic.Function.Iterate
import Mqtt.Proofs.Found
import Mqtt.Proofs.Requests
import Mqtt.Proofs.Vacant

/-!
# Packet identifiers

The counter goes round the identifiers 1 to 65534.  An identifier is in use while a transaction
of the client's own has it or the entry of a request does; the registries are emptied at different
times, and callbacks claim identifiers in between.  What is handed out is always the first in the
round that nothing uses (`Found.identifiers`).
-/

namespace Mqtt

namespace Client

/-- The identifier `k` places after the counter, in the round of 1 to 65534. -/
def candidate (c : Client) (k : Nat) : UInt16 :=
  .ofNat ((c.nextId.toNat - 1 + k) % 65534 + 1)

/-- Whether a transaction that waits for anything but PUBREL has an identifier, or an entry of a
request does. -/
def Uses (c : Client) (id : UInt16) : Prop :=
  (∃ t ∈ c.pending.all, t.awaits ≠ .pubRel ∧ t.packetId = id) ∨
    ∃ e ∈ c.subscriptions.entries, e.request = some id

/-- The transactions that wait for PUBREL, under identifiers of the broker. -/
def memories (c : Client) : List Transaction :=
  c.pending.all.filter (·.awaits = .pubRel)

/-- Whether the counter is one of 1 to 65534. -/
def Numbered (c : Client) : Prop :=
  0 < c.nextId.toNat ∧ c.nextId.toNat ≤ 65534

theorem isLocal_iff {kind : AckKind} : kind.isLocal = true ↔ kind ≠ .pubRel := by
  cases kind <;> decide

theorem isFree_eq_false_iff {c : Client} {id : UInt16} : c.isFree id = false ↔ c.Uses id := by
  rw [← Bool.not_eq_true, isFree_iff, Pending.idInUse_eq_false_iff, not_and_or]
  refine or_congr ?_ ?_
  · simp only [not_forall, Bool.not_eq_false, Transaction.holds_iff, isLocal_iff, exists_prop]
    exact ⟨fun ⟨t, among, own, kind⟩ => ⟨t, among, kind, own⟩,
      fun ⟨t, among, kind, own⟩ => ⟨t, among, own, kind⟩⟩
  · simp [Subscriptions.ofRequest, List.filter_eq_nil_iff]

theorem isFree_iff_not_uses {c : Client} {id : UInt16} : c.isFree id = true ↔ ¬ c.Uses id := by
  rw [← isFree_eq_false_iff, Bool.not_eq_false]

/-! ## The round -/

/-- After each identifier of the round comes the next, and after the last the first. -/
theorem toNat_idAfter {id : UInt16} (last : id.toNat ≤ 65534) :
    (idAfter id).toNat = id.toNat % 65534 + 1 := by
  unfold idAfter lastId
  split
  next reached =>
    have : 65534 ≤ id.toNat := UInt16.le_iff_toNat_le.1 reached
    have own : id.toNat = 65534 := by omega
    rw [own]
    rfl
  next before =>
    have : ¬ 65534 ≤ id.toNat := fun reached => before (UInt16.le_iff_toNat_le.2 reached)
    rw [UInt16.toNat_add, Nat.mod_eq_of_lt (by omega : id.toNat < 65534)]
    change (id.toNat + 1) % 65536 = _
    omega

theorem toNat_candidate (c : Client) (k : Nat) :
    (c.candidate k).toNat = (c.nextId.toNat - 1 + k) % 65534 + 1 := by
  unfold candidate
  rw [UInt16.toNat_ofNat']
  omega

/-- Going on from the counter leads through the round. -/
theorem iterate_idAfter {c : Client} (numbered : c.Numbered) (k : Nat) :
    idAfter^[k] c.nextId = c.candidate k := by
  obtain ⟨first, last⟩ := numbered
  induction k with
  | zero =>
    apply UInt16.toNat_inj.1
    rw [toNat_candidate]
    change c.nextId.toNat = _
    omega
  | succ k ih =>
    apply UInt16.toNat_inj.1
    rw [Function.iterate_succ_apply', ih, toNat_idAfter (by rw [toNat_candidate]; omega),
      toNat_candidate, toNat_candidate]
    omega

/-- A search finds the first free identifier, or there is none where it looks. -/
theorem freeFrom?_cases (c : Client) (tries : Nat) (start : UInt16) :
    (∃ k < tries, c.freeFrom? tries start = some (idAfter^[k] start) ∧
      c.isFree (idAfter^[k] start) = true ∧ ∀ j < k, c.isFree (idAfter^[j] start) = false) ∨
    c.freeFrom? tries start = none ∧ ∀ k < tries, c.isFree (idAfter^[k] start) = false := by
  induction tries generalizing start with
  | zero => exact Or.inr ⟨rfl, fun _ none => by cases none⟩
  | succ tries ih =>
    unfold freeFrom?
    cases free : c.isFree start with
    | true => exact Or.inl ⟨0, Nat.succ_pos tries, rfl, free, fun _ none => by cases none⟩
    | false =>
      -- What was looked at first is in use; the rest of the search begins one place later.
      have taken {bound : Nat}
          (later : ∀ j < bound, c.isFree (idAfter^[j] (idAfter start)) = false) :
          ∀ j < bound + 1, c.isFree (idAfter^[j] start) = false := fun j less => by
        cases j with
        | zero => exact free
        | succ j => exact later j (Nat.lt_of_succ_lt_succ less)
      rcases ih (idAfter start) with ⟨k, less, found, own, before⟩ | ⟨none, all⟩
      · exact Or.inl ⟨k + 1, Nat.succ_lt_succ less, found, own, taken before⟩
      · exact Or.inr ⟨none, taken all⟩

/-- An identifier claimed is the first in the round that nothing uses. -/
theorem of_claimId_eq_some {c : Client} (numbered : c.Numbered) {id : UInt16}
    (claimed : c.claimId.1 = some id) :
    ∃ k < 65534, id = c.candidate k ∧ ¬ c.Uses id ∧ ∀ j < k, c.Uses (c.candidate j) := by
  unfold claimId at claimed
  rcases c.freeFrom?_cases lastId.toNat c.nextId with ⟨k, less, found, free, before⟩ | ⟨none, -⟩
  · rw [found] at claimed
    cases claimed
    rw [iterate_idAfter numbered] at free ⊢
    refine ⟨k, less, rfl, isFree_iff_not_uses.1 free, fun j earlier => ?_⟩
    rw [← iterate_idAfter numbered]
    exact isFree_eq_false_iff.1 (before j earlier)
  · rw [none] at claimed
    cases claimed

/-- Where none can be claimed all of the round are in use. -/
theorem of_claimId_eq_none {c : Client} (numbered : c.Numbered) (claimed : c.claimId.1 = none)
    {id : UInt16} (first : 0 < id.toNat) (last : id.toNat ≤ 65534) : c.Uses id := by
  unfold claimId at claimed
  rcases c.freeFrom?_cases lastId.toNat c.nextId with ⟨k, less, found, -⟩ | ⟨-, all⟩
  · rw [found] at claimed
    cases claimed
  · -- The identifier comes up somewhere in the round.
    let k := (id.toNat + 65534 - c.nextId.toNat) % 65534
    have less : k < lastId.toNat := Nat.mod_lt _ (by decide)
    have own : idAfter^[k] c.nextId = id := by
      rw [iterate_idAfter numbered]
      apply UInt16.toNat_inj.1
      rw [toNat_candidate]
      obtain ⟨start, stop⟩ := numbered
      omega
    exact isFree_eq_false_iff.1 (own ▸ all k less)

/-- The counter moves on within the round. -/
theorem numbered_passOver (c : Client) (id : UInt16) : (c.passOver id).Numbered := by
  change 0 < (idAfter id).toNat ∧ (idAfter id).toNat ≤ 65534
  by_cases last : id.toNat ≤ 65534
  · rw [toNat_idAfter last]
    omega
  · have reached : lastId ≤ id := UInt16.le_iff_toNat_le.2 (by change 65534 ≤ id.toNat; omega)
    rw [idAfter, if_pos reached]
    decide

theorem Numbered.of_nextId {c c' : Client} (h : c.Numbered) (same : c'.nextId = c.nextId) :
    c'.Numbered := by
  unfold Numbered
  rw [same]
  exact h

end Client

variable {σ : Type} [Environment σ] {s s' : System σ}

/-! ## The counter -/

theorem CallMove.numbered (move : CallMove s s') (h : s.client.Numbered) : s'.client.Numbered := by
  cases move with
  | @passed id => exact s.client.numbered_passOver id
  | @requested r id =>
    exact (s.client.numbered_passOver id).of_nextId (by simp [Client.register])
  | @refused r id => exact (s.client.numbered_passOver id).of_nextId (by simp)
  | released => exact h.of_nextId (by simp [Client.release])
  | sent => exact h.of_nextId (by simp)
  | _ => exact h

theorem Keeps.numbered : Keeps fun _ (s : System σ) => s.client.Numbered where
  call _ _ move h := move.numbered h
  thread _ _ move h := by
    cases move with
    | turn _ move =>
      cases move with
      | call move => exact move.numbered h
      | pinged => exact h.of_nextId (by simp)
      | _ => exact h
    | left => exact h.of_nextId (by simp [Client.release])
    | dialled | saluted | parted | closed => exact h.of_nextId (by simp)
    | _ => exact h
  accept _ _ _ _ h := h
  turn _ _ _ move h := by
    cases move with
    | call move => exact move.numbered h
    | replied | resent | pinged => exact h.of_nextId (by simp)
    | _ => exact h
  lost _ _ _ _ _ h := h.of_nextId (by simp)
  done _ h := h

/-! ## Answers -/

/-- What an answer says of identifiers: one that is handed out was claimed and leaves the
transactions of the broker alone, and there are none left only if none could be claimed. -/
structure Reply.Candid (reply : Reply) (c c' : Client) : Prop where
  claimed : ∀ id, reply = .packetId (some id) → c.claimId.1 = some id ∧ c'.memories = c.memories
  exhausted : reply = .failed .idsExhausted → c.claimId.1 = none

namespace Reply.Candid

variable {c c' : Client}

theorem failed {e : Error} (other : e ≠ .idsExhausted) : (Reply.failed e).Candid c c' :=
  ⟨fun _ => Reply.noConfusion, fun same => absurd (Reply.failed.inj same) other⟩

/-- Most answers say nothing of identifiers. -/
theorem silent {reply : Reply} (unfailed : ∀ e, reply ≠ .failed e)
    (unnumbered : ∀ id, reply ≠ .packetId (some id)) : reply.Candid c c' :=
  ⟨fun id same => absurd same (unnumbered id), fun same => absurd same (unfailed _)⟩

theorem done : Reply.done.Candid c c' :=
  silent (fun _ => Reply.noConfusion) fun _ => Reply.noConfusion

end Reply.Candid

theorem System.sendResult_ne_exhausted (s : System σ) (bs : Bytes) :
    s.sendResult bs ≠ .error .idsExhausted := by
  unfold System.sendResult
  split
  · split <;> exact fun same => by cases same
  · exact fun same => by cases same

namespace Act

/-- A request is submitted under the identifier that was claimed for it. -/
theorem submit_claims (r : Request) :
    Ends (submit r).run s fun answer _ => (∀ id, answer = .ok id → s.client.claimId.1 = some id) ∧
      (answer = .error .idsExhausted → s.client.claimId.1 = none) := by
  unfold submit
  rw [try_bind, try_lift, ends_draw]
  cases claimed : s.client.claimId.1 with
  | none => exact ⟨fun _ same => (by cases same), fun _ => rfl⟩
  | some id =>
    dsimp only
    cases written : Packet.encode (r.packet id) with
    | error e => exact ⟨fun _ same => (by cases same), fun same => by cases same⟩
    | ok packet =>
      simp only [try_bind, try_lift, ends_now, ends_update, try_tryCatch, try_transmit, try_throw,
        try_pure]
      generalize System.change (System.shift _ _) _ = t
      have failed := t.sendResult_ne_exhausted packet
      cases result : t.sendResult packet with
      | ok u => exact ⟨fun _ same => congrArg some (Except.ok.inj same), fun same => by cases same⟩
      | error e =>
        rw [result] at failed
        exact ⟨fun _ same => (by cases same),
          fun same => absurd (congrArg _ (Except.error.inj same)) failed⟩

/-- Requests of the client leave the transactions of the broker alone. -/
theorem submit_memories {r : Request} (own : r.awaits.isLocal = true) :
    Ends (submit r).run s fun _ s' => s'.client.memories = s.client.memories := by
  refine (submit_submitted own).imp fun answer s' submitted => ?_
  have kept {c c' : Client} (pending : c'.pending = c.pending) : c'.memories = c.memories := by
    rw [Client.memories, pending]
    rfl
  cases submitted with
  | exhausted => rfl
  | unwritten => exact kept rfl
  | refused => exact kept (by simp [Client.passOver])
  | @requested outside id packet began =>
    have other : r.awaits ≠ .pubRel := Client.isLocal_iff.1 own
    simp [Client.memories, Client.register, Client.passOver, Pending.stage_all, other]

theorem submit_candid {r : Request} (issued : r.Issued) :
    Ends (answer (fun id => .packetId (some id)) (submit r)) s
      fun reply s' => reply.Candid s.client s'.client := by
  rw [ends_answer]
  refine ((submit_claims r).and (submit_memories issued.isLocal)).imp
    fun answer s' ⟨claims, memories⟩ => ?_
  cases answer with
  | ok own =>
    refine ⟨fun id same => ?_, Reply.noConfusion⟩
    obtain rfl : own = id := Option.some.inj (Reply.packetId.inj same)
    exact ⟨claims.1 own rfl, memories⟩
  | error e =>
    exact ⟨fun _ => Reply.noConfusion, fun same => claims.2 (congrArg _ (Reply.failed.inj same))⟩

theorem subscribe_candid (filters : List (String × Qos)) :
    Ends (answer (fun id => .packetId (some id)) (subscribe filters)) s
      fun reply s' => reply.Candid s.client s'.client := by
  rw [ends_answer]
  unfold subscribe
  cases filters with
  | nil => exact .failed Error.noConfusion
  | cons first rest =>
    refine after_checkFilters (fun checked => ?_) fun _ => .failed
    refine after_ensureConnected (fun _ _ => ?_) fun _ => .failed
    exact ends_answer.1 (submit_candid (.subscribe first (List.cons_ne_nil first rest)
      (List.forall_mem_map.1 checked)))

theorem unsubscribe_candid (filters : List String) :
    Ends (answer (fun id => .packetId (some id)) (unsubscribe filters)) s
      fun reply s' => reply.Candid s.client s'.client := by
  rw [ends_answer]
  unfold unsubscribe
  cases filters with
  | nil => exact .failed Error.noConfusion
  | cons first rest =>
    refine after_checkFilters (fun checked => ?_) fun _ => .failed
    refine after_ensureConnected (fun _ _ => ?_) fun _ => .failed
    exact ends_answer.1 (submit_candid (.unsubscribe _ (List.cons_ne_nil first rest) checked))

theorem publish_candid (topic : String) (payload : Bytes) (qos : Qos) (retain : Bool) :
    Ends (answer .packetId (publish topic payload qos retain)) s
      fun reply s' => reply.Candid s.client s'.client := by
  rw [ends_answer]
  unfold publish
  refine after_checkName ?_ fun _ => .failed
  refine after_ensureConnected (fun _ _ => ?_) fun _ => .failed
  cases qos with
  | atMostOnce =>
    rw [try_bind, try_transmitPacket]
    split
    · cases Packet.encode _ with
      | error e => exact .failed Error.noConfusion
      | ok packet =>
        have failed := s.sendResult_ne_exhausted packet
        dsimp only
        cases result : s.sendResult packet with
        | error e => exact .failed fun same => failed (result.trans (congrArg _ same))
        | ok u => exact .silent (fun _ same => by cases same) fun _ same => by cases same
    · exact .failed Error.noConfusion
  | atLeastOnce =>
    rw [try_bind]
    refine (ends_answer.1 (submit_candid (.atLeastOnce topic payload retain))).imp
      fun answer _ candid => ?_
    cases answer <;> exact candid
  | exactlyOnce =>
    rw [try_bind]
    refine (ends_answer.1 (submit_candid (.exactlyOnce topic payload retain))).imp
      fun answer _ candid => ?_
    cases answer <;> exact candid

omit [Environment σ] in
theorem join_candid (caller : Caller) :
    Ends (join caller) s fun reply s' => reply.Candid s.client s'.client := by
  unfold join
  rw [ends_bind, ends_client]
  split
  · exact .done
  · cases caller with
    | thread => exact .failed Error.noConfusion
    | application =>
      refine ends_bind.2 (ends_update.2 (ends_pure.2 ?_))
      split
      · exact .done
      · exact .silent (fun _ => Reply.noConfusion) fun _ => Reply.noConfusion

/-- Every call is answered with an identifier only if it was claimed for it. -/
theorem perform_candid (raise : Event → Act σ Unit) (caller : Caller) (c : Call) :
    Ends (perform raise caller c) s fun reply s' => reply.Candid s.client s'.client := by
  cases c <;> simp only [perform]
  case subscribe filter qos => exact subscribe_candid [(filter, qos)]
  case subscribeAll filters => exact subscribe_candid filters
  case unsubscribe filter => exact unsubscribe_candid [filter]
  case unsubscribeAll filters => exact unsubscribe_candid filters
  case publish topic payload qos retain => exact publish_candid topic payload qos retain
  case start =>
    refine ends_answer.2 (after_ensureAlive (fun _ => ?_) fun _ => .failed)
    simp only [try_bind, try_lift, ends_client]
    split
    · exact .failed Error.noConfusion
    · simp only [try_bind, try_lift, ends_spawn]
      split
      · exact .done
      · exact .failed Error.noConfusion
  case destroy =>
    refine ends_answer.2 (after_ensureAlive (fun _ => ?_) fun _ => .failed)
    exact try_lift.2 Reply.Candid.done
  case join => exact join_candid caller
  case tryJoin =>
    unfold tryJoin
    simp only [ends_bind, ends_client]
    split
    · exact .silent (fun _ => Reply.noConfusion) fun _ => Reply.noConfusion
    · exact join_candid caller
  case makeWill topic payload qos retain =>
    rw [ends_answer]
    unfold makeWill
    split
    · exact .failed Error.noConfusion
    · exact .done
  case reconnect =>
    refine ends_answer.2 (after_ensureAlive (fun _ => ?_) fun _ => .failed)
    exact after_ensureStarted (fun _ => .done) fun _ => .failed
  case disconnect notify =>
    refine ends_answer.2 (after_ensureAlive (fun _ => ?_) fun _ => .failed)
    exact after_ensureStarted (fun _ => .done) fun _ => .failed
  case discard awaits id =>
    rw [ends_answer]
    unfold discard
    simp only [try_bind, try_lift, ends_draw]
    split
    · exact try_lift.2 Reply.Candid.done
    · exact .failed Error.noConfusion
  case configure settings =>
    rw [ends_answer]
    unfold configure
    simp only [try_bind, try_lift, ends_client]
    split
    · exact .failed Error.noConfusion
    · exact .done
  case setWill | enable | disable => exact .done
  all_goals exact .silent (fun _ => Reply.noConfusion) fun _ => Reply.noConfusion

end Act

/-! ## All runs -/

/-- No two distinct transactions of the client's own are under one identifier. -/
theorem Pending.Distinct.countP_le_one {p : Pending} (h : p.Distinct) (id : UInt16) :
    p.all.countP (fun t => t.awaits ≠ .pubRel ∧ t.packetId = id) ≤ 1 := by
  rw [List.countP_eq_length_filter]
  have apart := h.apart.filter fun t => t.awaits ≠ .pubRel ∧ t.packetId = id
  have own : ∀ t ∈ p.all.filter fun t => t.awaits ≠ .pubRel ∧ t.packetId = id,
      t.awaits.isLocal = true ∧ t.packetId = id := fun t member => by
    have fits := of_decide_eq_true (List.mem_filter.1 member).2
    exact ⟨Client.isLocal_iff.2 fits.1, fits.2⟩
  revert apart own
  generalize p.all.filter _ = ts
  intro apart own
  match ts with
  | [] | [_] => exact Nat.le_add_left _ _
  | t :: u :: rest =>
    have first := own t List.mem_cons_self
    have second := own u (List.mem_cons_of_mem t List.mem_cons_self)
    have differ := (List.pairwise_cons.1 apart).1 u List.mem_cons_self
    exact absurd (first.2.trans second.2.symm) (differ (first.1.trans second.1.symm))

/-- What always holds of the identifiers of a client and its log. -/
structure Allotted (c : Client) (log : List Entry) : Prop where
  sane : c.pending.Sane
  numbered : c.Numbered
  gone : c.place = .exited → c.Vacant
  booked : c.place ≠ .exited → ∃ errand, Booked errand c log

namespace Allotted

theorem call (move : CallMove s s') (h : Allotted s.client s.log) :
    Allotted s'.client s'.log where
  sane := move.sane h.sane
  numbered := move.numbered h.numbered
  gone exited := (move.vacant (h.gone (move.exited exited))).1
  booked here := by
    obtain ⟨errand, booked⟩ := h.booked (move.stands.2 here)
    exact ⟨errand, move.booked booked⟩

theorem reached (reachable : Reachable s) {client : Client} {log : List Entry}
    (moment : s.Moment client log) : Allotted client log where
  sane := reachable.keepMoments (P := fun c _ => c.pending.Sane)
    (I := fun _ s => s.client.pending.Sane)
    { call := fun _ sane move _ => move.sane sane
      thread := fun _ sane move _ => move.sane sane
      accept := fun _ _ sane _ _ => sane.migrate
      turn := fun _ sane _ move _ => move.sane sane
      lost := fun _ sane _ _ _ _ => by simpa using sane
      done := fun _ sane => sane }
    (fun _ _ sane => sane)
    (fun config _ => Pending.Sane.purge (p := (Client.fresh config).pending)) moment
  numbered := reachable.keepMoments (P := fun c _ => c.Numbered) Keeps.numbered
    (fun _ _ numbered => numbered) (fun _ _ => ⟨Nat.one_pos, Nat.le_add_left 1 65533⟩) moment
  gone := reachable.vacant moment
  booked here := by
    obtain ⟨errand, booked, -⟩ := reachable.witnessed moment here
    exact ⟨errand, booked⟩

/-- The entries under an identifier are those of one request that waits, and so are the
transactions of requests under it. -/
theorem ofRequest {c : Client} {log : List Entry} (h : Allotted c log) {e : Subject} {id : UInt16}
    (member : e ∈ c.subscriptions.entries) (own : e.request = some id) :
    ∃ p ∈ (Ledger.read log).waiting, p.id = id ∧ c.subscriptions.ofRequest id = p.entries ∧
      (∀ q ∈ (Ledger.read log).waiting, q.id = id → q = p) ∧
      ∀ t ∈ c.pending.all, t.awaits.isRequest = true → t.packetId = id → t.awaits = p.kind := by
  have here : c.place ≠ .exited := fun gone => by
    rw [(h.gone gone).entries] at member
    cases member
  obtain ⟨errand, booked⟩ := h.booked here
  have listed : e ∈ c.subscriptions.ofRequest id := List.mem_filter.2 ⟨member, by simp [own]⟩
  -- Without a request under the identifier nothing would be listed for it.
  obtain ⟨p, waits, rfl⟩ : ∃ p ∈ (Ledger.read log).waiting, p.id = id := by
    by_contra none
    have empty : c.subscriptions.ofRequest id = [] :=
      booked.held.ofRequest_other fun p waits same => none ⟨p, waits, same⟩
    rw [empty] at listed
    cases listed
  have unique : ∀ q ∈ (Ledger.read log).waiting, q.id = p.id → q = p := fun q q_waits same =>
    booked.unique q_waits waits same
  refine ⟨p, waits, rfl, booked.held.ofRequest booked.nodup waits, unique, ?_⟩
  intro t among request same
  obtain ⟨q, found⟩ := booked.waits (Pending.mem_requests.2 ⟨request, t, among, rfl, same⟩)
  obtain ⟨q_waits, key⟩ := Ledger.mem_of_find? found
  have one := unique q q_waits (congrArg Prod.snd key)
  exact one ▸ (congrArg Prod.fst key).symm

end Allotted

/-- **Packet identifiers.**  Wherever an application finds a client, inside callbacks too, the
counter is one of 1 to 65534, one transaction of the client's own at most is under each identifier,
and the entries under an identifier are those of one request that waits.  Every identifier that a
call is answered with is the first in the round from the counter that no transaction of the
client's own and no entry of a request has, and none is handed out only if all of the round are in
use; transactions under identifiers of the broker neither stand in the way nor change. -/
theorem Found.identifiers (found : Found s) :
    s.client.Numbered ∧
    (∀ id, s.client.pending.all.countP (fun t => t.awaits ≠ .pubRel ∧ t.packetId = id) ≤ 1) ∧
    (∀ e ∈ s.client.subscriptions.entries, ∀ id, e.request = some id →
      ∃ p ∈ (Ledger.read s.log).waiting, p.id = id ∧
        s.client.subscriptions.ofRequest id = p.entries ∧
        (∀ q ∈ (Ledger.read s.log).waiting, q.id = id → q = p) ∧
        ∀ t ∈ s.client.pending.all, t.awaits.isRequest = true → t.packetId = id →
          t.awaits = p.kind) ∧
    ∀ (raise : Event → Act σ Unit) (caller : Caller) (c : Call),
      let answered := (Act.perform raise caller c).run s
      (∀ id, answered.1 = .packetId (some id) →
        (∃ k < 65534, id = s.client.candidate k ∧ ¬ s.client.Uses id ∧
          ∀ j < k, s.client.Uses (s.client.candidate j)) ∧
        answered.2.client.memories = s.client.memories) ∧
      (answered.1 = .failed .idsExhausted →
        ∀ id : UInt16, 0 < id.toNat → id.toNat ≤ 65534 → s.client.Uses id) := by
  have allotted : Allotted s.client s.log := found.holds
    (fun reachable moment => .reached reachable moment) fun move => .call move
  refine ⟨allotted.numbered, allotted.sane.distinct.countP_le_one,
    fun e member id own => allotted.ofRequest member own, fun raise caller c => ?_⟩
  have candid := Act.perform_candid (s := s) raise caller c
  refine ⟨fun id replied => ?_, fun replied id => ?_⟩
  · obtain ⟨claimed, memories⟩ := candid.claimed id replied
    exact ⟨Client.of_claimId_eq_some allotted.numbered claimed, memories⟩
  · exact Client.of_claimId_eq_none allotted.numbered (candid.exhausted replied)

/-- A client that delivers a message under the broker's identifier 1 and has a request of its own
under its own identifier 1. -/
def crossed : System Script :=
  inSession.takes
    [.heard (.ok [0x34, 8]) 0, .heard (.ok [0, 3, 97, 47, 98, 0, 1, 7]) 0, .turn,
      .call (.subscribe "a/b" .exactlyOnce)]

theorem identifiers_crossed :
    crossed.client.pending.all.map (fun t => (t.awaits, t.packetId)) =
      [(.pubRel, 1), (.subAck, 1)] ∧
    crossed.client.Numbered ∧
    crossed.client.pending.all.countP (fun t => t.awaits ≠ .pubRel ∧ t.packetId = 1) ≤ 1 ∧
    ∃ k < 65534, 2 = crossed.client.candidate k ∧ ¬ crossed.client.Uses 2 ∧
      ∀ j < k, crossed.client.Uses (crossed.client.candidate j) := by
  obtain ⟨numbered, once, -, answered⟩ :=
    Found.identifiers (.reachable (inSession_reachable.takes _) : Found crossed)
  obtain ⟨claimed, -⟩ := answered (Act.raiseAt 0 .application) .application (.unsubscribe "a/b")
  exact ⟨by decide +kernel, numbered, once 1, (claimed 2 (by decide +kernel)).1⟩

end Mqtt
