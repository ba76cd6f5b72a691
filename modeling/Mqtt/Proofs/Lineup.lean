import Mqtt.Proofs.Accounts

/-!
# The order of transactions

Nothing is ever put before a transaction that waits already, so transactions stand in the
order in which they were made: those of messages as their messages were sent, and those that
end a handshake as the broker said that it holds their messages.  Identifiers are used again
and tell no order; the log does (`sentAt`, `heldAt`).  `InOrder` is what holds of the
transactions and the log at every moment, with one lemma for each thing that is done to the
transactions.
-/

namespace Mqtt

namespace Entry

/-- The identifier of the message that the broker says it holds, if an entry after others
is such an answer in a session. -/
def holds? (earlier : List Entry) : Entry → Option UInt16
  | .received p => if isFresh earlier then none else p.ack? .pubRec
  | _ => none

/-- When the latest message under an identifier was sent, counted in entries; zero if none
was. -/
def sentAt (id : UInt16) : List Entry → Nat
  | [] => 0
  | e :: earlier => if (e.opens? id).isSome then earlier.length + 1 else sentAt id earlier

/-- When the broker first said that it holds the latest message under an identifier, counted
in entries; zero if it did not since the message was sent. -/
def heldAt (id : UInt16) : List Entry → Nat
  | [] => 0
  | e :: earlier =>
    if (e.opens? id).isSome then 0
    else if heldAt id earlier = 0 ∧ e.holds? earlier = some id then earlier.length + 1
    else heldAt id earlier

variable {id : UInt16} {e : Entry} {log log' : List Entry}

theorem sentAt_le (id : UInt16) (log : List Entry) : sentAt id log ≤ log.length := by
  induction log with
  | nil => exact Nat.le_refl 0
  | cons e log ih =>
    unfold sentAt
    rw [List.length_cons]
    split <;> omega

theorem heldAt_le (id : UInt16) (log : List Entry) : heldAt id log ≤ log.length := by
  induction log with
  | nil => exact Nat.le_refl 0
  | cons e log ih =>
    unfold heldAt
    rw [List.length_cons]
    split
    · omega
    · split <;> omega

theorem sentAt_of_opens {m : Packet.Publish} (opens : e.opens? id = some m) :
    sentAt id (e :: log) = log.length + 1 := by
  rw [sentAt, opens]
  rfl

theorem heldAt_of_opens {m : Packet.Publish} (opens : e.opens? id = some m) :
    heldAt id (e :: log) = 0 := by
  rw [heldAt, opens]
  rfl

/-- Whether the times of an identifier are the same in two logs. -/
def SameTimes (id : UInt16) (log log' : List Entry) : Prop :=
  sentAt id log' = sentAt id log ∧ heldAt id log' = heldAt id log

theorem SameTimes.refl (id : UInt16) (log : List Entry) : SameTimes id log log :=
  ⟨rfl, rfl⟩

theorem SameTimes.trans {log'' : List Entry} (h : SameTimes id log log')
    (h' : SameTimes id log' log'') : SameTimes id log log'' :=
  ⟨h'.1.trans h.1, h'.2.trans h.2⟩

theorem sameTimes_cons (unopened : e.opens? id = none) (unheld : e.holds? log ≠ some id) :
    SameTimes id log (e :: log) := by
  constructor
  · rw [sentAt, unopened]
    rfl
  · rw [heldAt, unopened, Option.isSome_none, if_neg Bool.false_ne_true,
      if_neg fun held => unheld held.2]

/-- Whether an entry is none of those that tell the order. -/
def IsUntimed (e : Entry) : Prop :=
  ∀ id, e.opens? id = none ∧ ∀ earlier, e.holds? earlier = none

theorem isUntimed_of_partial {a : Transport.Attempt} (partly : a.completes = false) :
    IsUntimed (.sent a) :=
  fun id => ⟨(idle_of_partial partly id).1, fun _ => rfl⟩

theorem isUntimed_raised (event : Event) (client : Client) (told : Bool) :
    IsUntimed (.raised event client told) :=
  fun _ => ⟨rfl, fun _ => rfl⟩

theorem IsRemark.isUntimed (remark : e.IsRemark) : e.IsUntimed := by
  cases e <;> first | exact fun _ => ⟨rfl, fun _ => rfl⟩ | exact absurd remark id

theorem sameTimes_append {new : List Entry} (untimed : ∀ e ∈ new, e.IsUntimed) :
    SameTimes id log (new ++ log) := by
  induction new with
  | nil => exact .refl id log
  | cons e new ih =>
    obtain ⟨unopened, unheld⟩ := untimed e List.mem_cons_self id
    have earlier := ih fun e member => untimed e (List.mem_cons_of_mem _ member)
    exact earlier.trans (sameTimes_cons unopened (by rw [unheld]; exact nofun))

end Entry

open Entry

/-! ## Queues in order -/

/-- What a transaction waits for, and under which identifier. -/
def Transaction.key (t : Transaction) : AckKind × UInt16 :=
  (t.awaits, t.packetId)

/-- Whether one transaction may stand before another: messages as they were sent, and ends of
handshakes as the broker had the messages. -/
def Precedes (log : List Entry) (k l : AckKind × UInt16) : Prop :=
  (k.1.isPublish = true → l.1.isPublish = true → sentAt k.2 log < sentAt l.2 log) ∧
    (k.1 = .pubComp → l.1 = .pubComp → heldAt k.2 log < heldAt l.2 log)

/-- What holds of the transactions, the active ones and the staged ones, the latest of these
first, and of a log.  The thread may have a PUBREC in its hand. -/
structure InOrder (hand : Option UInt16) (active staged : List (AckKind × UInt16))
    (log : List Entry) : Prop where
  ordered : (active ++ staged.reverse).Pairwise (Precedes log)
  sent : ∀ k ∈ active ++ staged.reverse, k.1.isPublish = true → sentAt k.2 log ≠ 0
  held : ∀ k ∈ active, k.1 = .pubComp → heldAt k.2 log ≠ 0
  waiting : ∀ id, (.pubRec, id) ∈ active → hand ≠ some id → heldAt id log = 0
  staged : ∀ k ∈ staged, k.1 ≠ .pubComp ∧ (k.1 = .pubRec → heldAt k.2 log = 0)
  heard : ∀ id ∈ hand, (.pubRec, id) ∈ active → heldAt id log ≠ 0 ∧
    ∀ k ∈ active, k.1 = .pubComp → heldAt k.2 log < heldAt id log

namespace InOrder

variable {hand : Option UInt16} {active staged active' staged' : List (AckKind × UInt16)}
  {log log' : List Entry} {k : AckKind × UInt16} {id : UInt16}

theorem empty (hand : Option UInt16) (log : List Entry) : InOrder hand [] [] log := by
  refine ⟨.nil, ?_, ?_, ?_, ?_, ?_⟩
  all_goals simp

/-- What is written while the times of what waits stay the same disturbs no order. -/
theorem later (h : InOrder hand active staged log)
    (same : ∀ k ∈ active ++ staged.reverse, k.1 ∈ AckKind.ofSender → SameTimes k.2 log log') :
    InOrder hand active staged log' := by
  have publish {k : AckKind × UInt16} (member : k ∈ active ++ staged.reverse)
      (kind : k.1.isPublish = true) : SameTimes k.2 log log' :=
    same k member (AckKind.mem_ofSender_of_isPublish kind)
  have ending {k : AckKind × UInt16} (member : k ∈ active) (kind : k.1 = .pubComp) :
      SameTimes k.2 log log' :=
    same k (List.mem_append_left _ member) (by rw [kind]; decide)
  have first {id : UInt16} (member : (AckKind.pubRec, id) ∈ active) : SameTimes id log log' :=
    same _ (List.mem_append_left _ member) (AckKind.mem_ofSender_of_isPublish rfl)
  refine ⟨?_, ?_, ?_, ?_, ?_, ?_⟩
  · refine h.ordered.imp_of_mem fun {k l} member later before => ⟨fun kind kind' => ?_,
      fun kind kind' => ?_⟩
    · rw [(publish member kind).1, (publish later kind').1]
      exact before.1 kind kind'
    · rw [(same k member (by rw [kind]; decide)).2, (same l later (by rw [kind']; decide)).2]
      exact before.2 kind kind'
  · intro k member kind
    rw [(publish member kind).1]
    exact h.sent k member kind
  · intro k member kind
    rw [(ending member kind).2]
    exact h.held k member kind
  · intro id member free
    rw [(first member).2]
    exact h.waiting id member free
  · intro k member
    refine ⟨(h.staged k member).1, fun kind => ?_⟩
    have present := List.mem_append_right active (List.mem_reverse.2 member)
    rw [(publish present (by rw [kind]; rfl)).2]
    exact (h.staged k member).2 kind
  · intro id own member
    obtain ⟨read, latest⟩ := h.heard id own member
    rw [(first member).2]
    refine ⟨read, fun k present kind => ?_⟩
    rw [(ending present kind).2]
    exact latest k present kind

/-- To take some out disturbs no order. -/
theorem of_sublist (h : InOrder hand active staged log) (fewer : active'.Sublist active)
    (fewer' : staged'.Sublist staged) : InOrder hand active' staged' log := by
  have all := fewer.append fewer'.reverse
  exact ⟨h.ordered.sublist all, fun k member => h.sent k (all.subset member),
    fun k member => h.held k (fewer.subset member),
    fun id member => h.waiting id (fewer.subset member),
    fun k member => h.staged k (fewer'.subset member),
    fun id own member => (h.heard id own (fewer.subset member)).imp_right
      fun latest k present => latest k (fewer.subset present)⟩

/-- What is staged stands behind all others. -/
theorem stage (h : InOrder hand active staged log) (kind : k.1 ≠ .pubComp)
    (latest : k.1.isPublish = true → sentAt k.2 log ≠ 0 ∧
      ∀ l ∈ active ++ staged.reverse, l.1.isPublish = true → sentAt l.2 log < sentAt k.2 log)
    (unheld : k.1 = .pubRec → heldAt k.2 log = 0) :
    InOrder hand active (k :: staged) log := by
  have behind : active ++ (k :: staged).reverse = active ++ staged.reverse ++ [k] := by
    rw [List.reverse_cons, List.append_assoc]
  refine ⟨?_, ?_, h.held, h.waiting, ?_, h.heard⟩
  · rw [behind, List.pairwise_append]
    refine ⟨h.ordered, List.pairwise_singleton _ _, fun l member last own => ?_⟩
    cases List.mem_singleton.1 own
    exact ⟨fun before publish => (latest publish).2 l member before,
      fun _ ends => absurd ends kind⟩
  · rw [behind]
    intro l member publish
    rcases List.mem_append.1 member with old | new
    · exact h.sent l old publish
    · cases List.mem_singleton.1 new
      exact (latest publish).1
  · intro l member
    rcases List.mem_cons.1 member with rfl | old
    · exact ⟨kind, unheld⟩
    · exact h.staged l old

/-- What is put in is behind all active transactions. -/
theorem push (h : InOrder hand active staged log) (other : k.1.isPublish = false)
    (held : k.1 = .pubComp → heldAt k.2 log ≠ 0 ∧
      ∀ l ∈ active, l.1 = .pubComp → heldAt l.2 log < heldAt k.2 log)
    (left : k.1 = .pubComp → ∀ id ∈ hand, (.pubRec, id) ∉ active) :
    InOrder hand (active ++ [k]) staged log := by
  have split := List.pairwise_append.1 h.ordered
  have notPublish : ¬ k.1.isPublish = true := by rw [other]; exact Bool.false_ne_true
  have old {l : AckKind × UInt16} (member : l ∈ active ++ [k]) (apart : l ≠ k) : l ∈ active :=
    (List.mem_append.1 member).resolve_right fun new => apart (List.mem_singleton.1 new)
  have first {id : UInt16} : (AckKind.pubRec, id) ≠ k := by
    rintro rfl
    exact notPublish rfl
  refine ⟨?_, ?_, ?_, fun id member => h.waiting id (old member first), h.staged, ?_⟩
  · rw [List.append_assoc, List.pairwise_append, List.singleton_append, List.pairwise_cons]
    refine ⟨split.1, ⟨fun l staged => ?_, split.2.1⟩, fun l member m later => ?_⟩
    · exact ⟨fun publish => absurd publish notPublish,
        fun _ ends => absurd ends (h.staged l (List.mem_reverse.1 staged)).1⟩
    · rcases List.mem_cons.1 later with rfl | staged
      · exact ⟨fun _ publish => absurd publish notPublish, fun before ends =>
          (held ends).2 l member before⟩
      · exact split.2.2 l member m staged
  · intro l member publish
    refine h.sent l ?_ publish
    rw [List.append_assoc, List.mem_append, List.singleton_append, List.mem_cons] at member
    rcases member with active | rfl | staged
    · exact List.mem_append_left _ active
    · exact absurd publish notPublish
    · exact List.mem_append_right _ staged
  · intro l member ends
    rcases List.mem_append.1 member with before | new
    · exact h.held l before ends
    · cases List.mem_singleton.1 new
      exact (held ends).1
  · intro id own member
    obtain ⟨read, latest⟩ := h.heard id own (old member first)
    refine ⟨read, fun l present ends => ?_⟩
    by_cases last : l = k
    · subst last
      exact absurd (old member first) (left ends id own)
    · exact latest l (old present last) ends

/-- The staged transactions become active in their order. -/
theorem migrate (h : InOrder none active staged log) :
    InOrder none (active ++ staged.reverse) [] log := by
  refine ⟨by simpa using h.ordered, by simpa using h.sent, ?_, ?_, ?_, ?_⟩
  · intro k member ends
    rcases List.mem_append.1 member with old | new
    · exact h.held k old ends
    · exact absurd ends (h.staged k (List.mem_reverse.1 new)).1
  · intro id member free
    rcases List.mem_append.1 member with old | new
    · exact h.waiting id old free
    · exact (h.staged _ (List.mem_reverse.1 new)).2 rfl
  · intro k none
    cases none
  · intro id none
    cases none

/-- A packet of a session that is read is the latest; if it is the first PUBREC for a message,
that message is held later than all others. -/
theorem hear (h : InOrder none active [] log) (p : Inbound) (stale : isFresh log = false) :
    InOrder (p.ack? .pubRec) active [] (.received p :: log) := by
  have holds : holds? log (.received p) = p.ack? .pubRec := by
    rw [holds?, stale]
    exact if_neg Bool.false_ne_true
  have sent (id : UInt16) : sentAt id (.received p :: log) = sentAt id log := rfl
  have known {id : UInt16} (held : heldAt id log ≠ 0) :
      heldAt id (.received p :: log) = heldAt id log := by
    change (if heldAt id log = 0 ∧ _ then _ else _) = _
    rw [if_neg fun new => held new.1]
  refine ⟨?_, h.sent, ?_, ?_, fun k none => (by cases none), ?_⟩
  · rw [List.reverse_nil, List.append_nil]
    have ordered := h.ordered
    rw [List.reverse_nil, List.append_nil] at ordered
    refine ordered.imp_of_mem fun {k l} member later before => ⟨before.1, fun ends ends' => ?_⟩
    rw [known (h.held k member ends), known (h.held l later ends')]
    exact before.2 ends ends'
  · intro k member ends
    rw [known (h.held k member ends)]
    exact h.held k member ends
  · intro id member free
    have none := h.waiting id member nofun
    change (if _ ∧ holds? log (.received p) = some id then _ else _) = _
    rw [holds, if_neg fun new => free new.2]
    exact none
  · intro id own member
    have none := h.waiting id member nofun
    -- no PUBREC came before, so this one gives the message its time
    have first : heldAt id (.received p :: log) = log.length + 1 := by
      change (if _ ∧ holds? log (.received p) = some id then _ else _) = _
      rw [holds, if_pos ⟨none, own⟩]
    rw [first]
    refine ⟨Nat.succ_ne_zero _, fun k present ends => ?_⟩
    rw [known (h.held k present ends)]
    exact Nat.lt_succ_of_le (heldAt_le k.2 log)

/-- The end of a handshake is waited for in the place of its beginning. -/
theorem advance (h : InOrder (some id) active staged log) (present : (.pubRec, id) ∈ active)
    (fewer : active'.Sublist active) (gone : (.pubRec, id) ∉ active') :
    InOrder (some id) (active' ++ [(.pubComp, id)]) staged log := by
  obtain ⟨read, latest⟩ := h.heard id rfl present
  refine (h.of_sublist fewer (.refl _)).push rfl ?_ ?_
  · exact fun _ => ⟨read, fun l member => latest l (fewer.subset member)⟩
  · rintro - other own
    cases own
    exact gone

/-- A PUBREC that nothing waits for any more may be put down. -/
theorem done (h : InOrder hand active staged log)
    (spent : ∀ id ∈ hand, (.pubRec, id) ∉ active) : InOrder none active staged log :=
  ⟨h.ordered, h.sent, h.held,
    fun id member _ => h.waiting id member fun own => spent id own member, h.staged,
    fun _ none => by cases none⟩

end InOrder

namespace Pending

variable {p : Pending} {kind : AckKind} {id : UInt16}

theorem mem_keys_iff : (kind, id) ∈ p.active.map Transaction.key ↔ p.contains kind id = true := by
  rw [contains_iff, List.mem_map]
  constructor
  · rintro ⟨t, member, same⟩
    obtain ⟨rfl, rfl⟩ := Prod.mk.inj same
    exact ⟨t, member, rfl, rfl⟩
  · rintro ⟨t, member, rfl, rfl⟩
    exact ⟨t, member, rfl⟩

theorem ne_of_mem_keys {k : AckKind × UInt16} (free : p.idInUse id = false)
    (member : k ∈ p.active.map Transaction.key ++ (p.staged.map Transaction.key).reverse)
    (own : k.1 ∈ AckKind.ofSender) : k.2 ≠ id := by
  rw [← List.map_reverse, ← List.map_append] at member
  obtain ⟨t, among, rfl⟩ := List.mem_map.1 member
  exact fun same => not_isLocal_of_free free among same (AckKind.of_ofSender _ own).1

/-- Looks leave transactions where they are. -/
theorem keys_scan (p : Pending) (now limit : UInt32) (force : Bool) :
    ((p.scan now limit force).2.active.map Transaction.key).Sublist
      (p.active.map Transaction.key) := by
  rw [scan_eq_looks]
  dsimp only
  induction p.active with
  | nil => exact .slnil
  | cons t ts ih =>
    rw [List.filterMap_cons]
    cases looked : (t.look now limit force).1 with
    | none => exact ih.cons _
    | some u =>
      obtain ⟨kind, own, -⟩ := Transaction.of_look_eq_some looked
      have same : u.key = t.key := by
        unfold Transaction.key
        rw [kind, own]
      rw [List.map_cons, List.map_cons, same]
      exact ih.cons_cons _

end Pending

/-! ## Clients -/

variable {σ : Type}

/-- Whether the transactions of a client stand in order, with a packet of the session in the
hand of its thread or with none. -/
def Lined (hand : Option Inbound) (s : System σ) : Prop :=
  InOrder (hand.bind (·.ack? .pubRec)) (s.client.pending.active.map Transaction.key)
    (s.client.pending.staged.map Transaction.key) s.log

namespace Lined

variable {hand : Option Inbound} {s s' : System σ}

/-- Order is kept where transactions are at most taken out and nothing is written that tells
of it. -/
theorem fewer (h : Lined hand s) (writes : Writes Entry.IsUntimed s s')
    (active : (s'.client.pending.active.map Transaction.key).Sublist
      (s.client.pending.active.map Transaction.key))
    (staged : (s'.client.pending.staged.map Transaction.key).Sublist
      (s.client.pending.staged.map Transaction.key)) : Lined hand s' := by
  obtain ⟨new, log, untimed⟩ := writes
  unfold Lined
  rw [log]
  exact InOrder.later (InOrder.of_sublist h active staged) fun _ _ _ => sameTimes_append untimed

theorem untimed (h : Lined hand s) (writes : Writes Entry.IsUntimed s s')
    (active : s'.client.pending.active = s.client.pending.active)
    (staged : s'.client.pending.staged = s.client.pending.staged) : Lined hand s' := by
  have same : s'.client.pending.active.map Transaction.key =
      s.client.pending.active.map Transaction.key := by rw [active]
  have same' : s'.client.pending.staged.map Transaction.key =
      s.client.pending.staged.map Transaction.key := by rw [staged]
  exact h.fewer writes (same ▸ .refl _) (same' ▸ .refl _)

theorem remove {f : Client → Client} (h : Lined hand s) {awaits : AckKind} {id : UInt16}
    (pending : (f s.client).pending = (s.client.pending.remove awaits id).2) :
    Lined hand (s.change f) := by
  refine h.fewer (.of_log rfl) ?_ ?_
  all_goals
    rw [System.change_client, pending]
    unfold Pending.remove
    split
  · exact .refl _
  · exact List.eraseP_sublist.map _
  · exact (Pending.dropOldest_sublist _ _).map _
  · exact .refl _

theorem take (h : Lined hand s) (awaits : AckKind) (id : UInt16) :
    Lined hand (s.change (·.without awaits id)) :=
  h.fewer (.of_log rfl) (List.eraseP_sublist.map _) (.refl _)

theorem migrate {f : Client → Client} (h : Lined none s) (distinct : s.client.pending.Distinct)
    (pending : (f s.client).pending = s.client.pending.migrate.2) : Lined none (s.change f) := by
  unfold Lined
  rw [System.change_client, pending, Pending.migrate_of_distinct distinct]
  have all := InOrder.migrate h
  rw [← List.map_reverse, ← List.map_append] at all
  exact all

theorem close (h : Lined hand s) : Lined hand s.close :=
  h.untimed (.close s fun _ => ⟨rfl, fun _ => rfl⟩) (by simp) (by simp)

/-- Nothing is left of the transactions. -/
theorem of_purge (p : Pending) (purged : s.client.pending = p.purge) : Lined hand s := by
  unfold Lined
  rw [purged]
  exact .empty _ _

end Lined

section Moves

variable [Environment σ] {s s' : System σ} {hand : Option Inbound}

theorem Writes.afterSend_untimed (s : System σ) {bs : Bytes}
    (plain : ∃ q, Packet.parse? bs = some q ∧ ∀ id, q.opens? id = none) :
    Writes Entry.IsUntimed s (s.afterSend bs) := by
  obtain ⟨q, whole, unopened⟩ := plain
  refine .afterSend s fun a own id => ⟨?_, fun _ => rfl⟩
  rw [Entry.opens?, own, whole]
  split
  · exact unopened id
  · rfl

/-- A message that is sent is the latest under its identifier, and the times of the others stay. -/
theorem times_afterSend {bs : Bytes} {q : Inbound} {id : UInt16} {m : Packet.Publish}
    (whole : Packet.parse? bs = some q) (opens : q.opens? id = some m)
    (others : ∀ other, other ≠ id → q.opens? other = none) (sent : s.sendResult bs = .ok ()) :
    s.log.length < sentAt id (s.afterSend bs).log ∧ heldAt id (s.afterSend bs).log = 0 ∧
      ∀ other, other ≠ id → SameTimes other s.log (s.afterSend bs).log := by
  obtain ⟨new, partly, ⟨⟨e, failed⟩, -⟩ | ⟨-, last, own, full, log⟩⟩ :=
    s.afterSend_cases (Packet.ne_nil_of_parse? whole)
  · cases failed.symm.trans sent
  have read (i : UInt16) : Entry.opens? i (.sent last) = q.opens? i := by
    rw [Entry.opens?, if_pos full, own, whole]
    rfl
  rw [log]
  refine ⟨?_, heldAt_of_opens ((read id).trans opens), fun other apart => ?_⟩
  · rw [sentAt_of_opens ((read id).trans opens), List.length_append]
    omega
  · have untimed : ∀ e ∈ new, e.IsUntimed := fun e member => by
      obtain ⟨a, rfl, short⟩ := partly e member
      exact isUntimed_of_partial short
    exact (sameTimes_append untimed).trans
      (sameTimes_cons ((read other).trans (others other apart)) fun held => by cases held)

/-- Requests go behind all that waits. -/
theorem lined_requested {r : Act.Request} {id : UInt16} {packet : Bytes} (began : UInt32)
    (issued : r.Issued) (free : s.client.isFree id = true)
    (written : Packet.encode (r.packet id) = .ok packet) (sent : s.sendResult packet = .ok ())
    (h : Lined hand s) :
    Lined hand ((s.change fun c => (c.passOver id).register began r.awaits id packet
      r.subject r.listed).afterSend packet) := by
  let f (c : Client) := (c.passOver id).register began r.awaits id packet r.subject r.listed
  have result : (s.change f).sendResult packet = .ok () :=
    (s.sendResult_change packet rfl rfl).trans sent
  have unused := (Client.isFree_iff.1 free).1
  have staged : InOrder (hand.bind (·.ack? .pubRec))
      (s.client.pending.active.map Transaction.key)
      ((r.awaits, id) :: s.client.pending.staged.map Transaction.key)
      ((s.change f).afterSend packet).log := by
    obtain ⟨q, whole, ⟨request, unopened⟩ | ⟨m, sends, opened, others⟩⟩ := issued.opens written
    · obtain ⟨new, log, untimed⟩ := Writes.afterSend_untimed (s.change f) ⟨q, whole, unopened⟩
      rw [log]
      obtain ⟨other, last⟩ := AckKind.of_isRequest request
      refine (InOrder.later h fun _ _ _ => sameTimes_append untimed).stage last
        (fun publish => ?_) fun first => ?_
      · exact absurd (publish.symm.trans other) Bool.noConfusion
      · have kind : r.awaits = .pubRec := first
        rw [kind] at other
        cases other
    · obtain ⟨latest, unheld, same⟩ := times_afterSend whole opened others result
      -- the identifier was free, so all that waits keeps its times
      have apart {k : AckKind × UInt16} (member : k ∈ _) (own : k.1 ∈ AckKind.ofSender) :=
        same k.2 (Pending.ne_of_mem_keys unused member own)
      refine (InOrder.later h fun k => apart).stage (AckKind.ne_pubComp sends.isPublish)
        (fun _ => ⟨Nat.ne_zero_of_lt latest, fun l member publish => ?_⟩) fun _ => unheld
      rw [(apart member (AckKind.mem_ofSender_of_isPublish publish)).1]
      exact Nat.lt_of_le_of_lt (sentAt_le l.2 _) latest
  unfold Lined
  rw [System.afterSend_client, Client.pass_pending]
  exact staged

theorem CallMove.lined (move : CallMove s s') (h : Lined hand s) : Lined hand s' := by
  cases move with
  | remarked e remark => exact h.untimed (.of_entry rfl remark.isUntimed) rfl rfl
  | undone => exact h.untimed (.of_entry rfl (Entry.isUntimed_raised _ _ _)) rfl rfl
  | released => exact .of_purge s.client.pending (by simp [Client.release])
  | discarded =>
    exact (h.remove rfl).untimed (.of_entry rfl (Entry.isUntimed_raised _ _ _)) rfl rfl
  | requested began issued _ _ free written sent =>
    exact lined_requested began issued free written sent h
  | @refused r own packet e issued _ _ _ written failed =>
    have result : (s.change (·.passOver own)).sendResult packet = .error e :=
      (s.sendResult_change packet rfl rfl).trans failed
    obtain ⟨q, whole, -⟩ := (Requested.request issued written).parse?
    obtain ⟨new, partly, ⟨-, log⟩ | ⟨sent, -⟩⟩ :=
      (s.change (·.passOver own)).afterSend_cases (Packet.ne_nil_of_parse? whole)
    · refine h.untimed ⟨new, log, fun e member => ?_⟩ (by simp [Client.passOver])
        (by simp [Client.passOver])
      obtain ⟨a, rfl, short⟩ := partly e member
      exact isUntimed_of_partial short
    · cases sent.symm.trans result
  | sent lowest _ _ _ written =>
    obtain ⟨q, whole, unopened, -⟩ := Inbound.opens?_of_put written
    exact h.untimed (.afterSend_untimed s ⟨q, whole, unopened (Or.inl lowest)⟩) (by simp) (by simp)
  | _ => exact h.untimed (.of_log rfl) rfl rfl

theorem TurnMove.lined (move : TurnMove hand s s') (sane : s.client.pending.Sane)
    (h : Lined hand s) : Lined hand s' := by
  cases move with
  | call move => exact move.lined h
  | told | delivered => exact h.untimed (.of_entry rfl (Entry.isUntimed_raised _ _ _)) rfl rfl
  | filed | pulsed => exact h.untimed (.of_log rfl) rfl rfl
  | @remembered _ p m id began _ _ _ absent =>
    have put := Pending.insert_of_absent (t := s.client.memory began m id) absent
    unfold Lined
    rw [System.change_client, Client.keep, put, List.map_append]
    exact InOrder.push h rfl (fun last => by cases last) fun last => by cases last
  | forgotten => exact h.take _ _
  | answered => exact h.take _ _
  | completed =>
    exact (h.take _ _).untimed (.of_entry rfl (Entry.isUntimed_raised _ _ _)) rfl rfl
  | @advanced _ p id t began read taken =>
    have absent : (s.client.pending.take .pubRec id).2.contains .pubComp id = false :=
      sane.distinct.absent_of_take taken rfl
    have put := Pending.insert_of_absent (t := s.client.ending began t id) absent
    obtain ⟨active, own, first⟩ := Pending.of_take_eq_some taken
    have gone := Pending.contains_take_self sane.distinct .pubRec id
    have held : (some p).bind (·.ack? .pubRec) = some id := read
    unfold Lined at h ⊢
    rw [held] at h ⊢
    rw [System.change_client, Client.keep, Client.without, put, List.map_append]
    have present := Pending.contains_iff.2 ⟨t, active, own, first⟩
    exact InOrder.advance h (Pending.mem_keys_iff.2 present)
      (List.eraseP_sublist.map _) fun left => Bool.false_ne_true
        (gone.symm.trans (Pending.mem_keys_iff.1 left))
  | replied _ owed => exact h.untimed (.afterSend_untimed s owed.unopened) (by simp) (by simp)
  | migrated => exact h.migrate sane.distinct rfl
  | scanned _ now limit force =>
    refine h.fewer (.of_log rfl) (Pending.keys_scan _ _ _ _) ?_
    have same := s.client.pending.scan_staged now limit force
    exact same ▸ .refl _
  | resent _ again => exact h.untimed (.afterSend_untimed s again.unopened) (by simp) (by simp)
  | pinged =>
    refine h.untimed (.afterSend_untimed s ⟨_, Packet.parse?_pingReq, ?_⟩) (by simp) (by simp)
    exact Inbound.opens?_eq_none Packet.Kind.noConfusion

theorem ThreadMove.lined (move : ThreadMove s s') (ordered : Ordered s)
    (sane : s.client.pending.Sane) (h : Lined none s) : Lined none s' := by
  cases move with
  | turn _ move => exact move.turn.lined sane h
  | obeyed | opened => exact h.untimed (.of_entry rfl fun _ => ⟨rfl, fun _ => rfl⟩) rfl rfl
  | dialled =>
    exact h.close.untimed (.of_entry rfl fun _ => ⟨rfl, fun _ => rfl⟩) (by simp) (by simp)
  | saluted _ _ _ _ _ written =>
    obtain ⟨body, whole⟩ := Packet.Connect.parse?_put written
    refine h.untimed (.afterSend_untimed s ⟨_, whole, ?_⟩) (by simp) (by simp)
    exact Inbound.opens?_eq_none Packet.Kind.noConfusion
  | parted _ parting =>
    obtain ⟨q, whole, other, -⟩ := parting.parse?
    refine Lined.close (h.untimed (.afterSend_untimed s ⟨q, whole, ?_⟩) (by simp) (by simp))
    exact Inbound.opens?_eq_none other
  | closed => exact h.close
  | readEnded => exact h.migrate sane.distinct rfl
  | @greeted reader p here =>
    have fresh := (ordered.greeting _ here).2.2
    have unheld (id : UInt16) : holds? s.log (.received p) ≠ some id := by
      rw [holds?, fresh]
      exact nofun
    have read : Lined none (s.note (.received p)) :=
      InOrder.later h fun k _ _ => sameTimes_cons rfl (unheld k.2)
    exact read.migrate sane.distinct rfl
  | left => exact .of_purge s.client.pending (by simp [Client.release])
  | _ => exact h.untimed (.of_log rfl) rfl rfl

omit [Environment σ] in
theorem Lined.accept (h : Lined none s) (stale : isFresh s.log = false)
    (distinct : s.client.pending.Distinct) (p : Inbound) : Lined (some p) (s.accept p) := by
  have active : Lined none (s.change fun c =>
      { c with place := .running, pending := c.pending.migrate.2 }) := h.migrate distinct rfl
  have empty : s.client.pending.migrate.2.staged = [] := by
    rw [Pending.migrate_of_distinct distinct]
  unfold Lined at active ⊢
  rw [System.change_client, empty] at active
  change InOrder (p.ack? .pubRec) (s.client.pending.migrate.2.active.map Transaction.key)
    (s.client.pending.migrate.2.staged.map Transaction.key) (.received p :: s.log)
  rw [empty]
  exact InOrder.hear active p stale

/-! ## Acting on PUBREC -/

theorem Warned.absent (warned : Warned s s') {awaits : AckKind} {id : UInt16}
    (absent : s.client.pending.contains awaits id = false) :
    s'.client.pending.contains awaits id = false := by
  rcases warned with rfl | ⟨count, calls⟩
  · exact absent
  · exact calls.absent absent

namespace Act

/-- The thread is done with PUBREC once no active transaction waits for it. -/
theorem onPubRec_spent (distinct : s.client.pending.Distinct) (id : UInt16) :
    Ends (onPubRec id).run s fun _ s' => s'.client.pending.contains .pubRec id = false := by
  unfold onPubRec
  rw [try_bind, try_lift, ends_take]
  have gone : (s.change (·.without .pubRec id)).client.pending.contains .pubRec id = false :=
    Pending.contains_take_self distinct .pubRec id
  dsimp only
  cases (s.client.pending.take .pubRec id).1 with
  | none =>
    dsimp only
    rw [try_bind, try_lift, ends_client]
    dsimp only
    split
    · rw [try_transmit]
      simpa using gone
    · exact gone
  | some t =>
    dsimp only
    rw [try_bind, try_lift]
    refine (track_warned _ _ _ _).imp fun _ s₁ ⟨outside, began, warned⟩ => ?_
    rw [try_transmit, System.afterSend_client, Client.pass_pending]
    refine warned.absent ?_
    exact (Pending.contains_insert_other fun same => AckKind.noConfusion same.1).trans gone

end Act

theorem afterDispatch_spent (distinct : s.client.pending.Distinct) {p : Inbound} {id : UInt16}
    (read : p.ack? .pubRec = some id) :
    (s.afterDispatch p).client.pending.contains .pubRec id = false := by
  refine afterDispatch_of_ends (Q := fun s => s.client.pending.contains .pubRec id = false) ?_
  rw [Act.dispatch_pubRec read]
  exact (Act.onPubRec_spent distinct id).imp fun _ _ spent => ⟨spent, fun _ => by simpa using spent⟩

/-! ## Reachable clients -/

theorem Step.lined (step : Step s s') (ordered : Ordered s) (sane : s.client.pending.Sane)
    (h : Lined none s) : Lined none s' := by
  have turn {hand : Option Inbound} {s s' : System σ} (_ : Ordered s)
      (sane : s.client.pending.Sane) (_ : s.Busy) (move : TurnMove hand s s') (h : Lined hand s) :
      Lined hand s' := move.lined sane h
  cases step with
  | call move => exact move.lined h
  | thread pace =>
    cases pace with
    | move move => exact move.lined ordered sane h
    | looked _ busy _ turns => exact (turns.hold turn busy ordered sane h).2.2.2
  | @attended s₁ reader p here warned =>
    have stale := ordered.connected (ordered.listening reader here).2
    obtain ⟨busy, ordered', sane', heard⟩ := Turns.hold (I := Lined (some p)) turn warned.turns
      (accept_busy ordered here p) (ordered.accept here p) sane.migrate
      (h.accept stale sane.distinct p)
    have acted := (afterDispatch_hold (J := Lined (some p)) turn
      (fun _ _ _ owed _ h => Lined.close
        (h.untimed (.afterSend_untimed _ owed.unopened) (by simp) (by simp)))
      (fun _ h => h) busy ordered' sane' heard).2
    -- a PUBREC is put down only once its transaction was taken out
    refine InOrder.done acted fun id own left => ?_
    have read : p.ack? .pubRec = some id := own
    have gone := afterDispatch_spent sane'.distinct read
    exact Bool.false_ne_true (gone.symm.trans (Pending.mem_keys_iff.1 left))

theorem Reachable.lined (reachable : Reachable s) : Lined none s :=
  reachable.induct (fun _ _ => .empty _ _) fun _ _ ordered sane step => step.lined ordered sane

end Moves

end Mqtt
