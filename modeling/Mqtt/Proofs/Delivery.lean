import Mqtt.Proofs.Exchange
import Mqtt.Proofs.Reach

/-!
# Messages sent

A client and a conforming broker with lossy channels between them.  `Tallies` relates
the transactions of the client to what is under way under each identifier: a transaction
waits for an answer exactly when the handshake of the latest use is not over, and keeps
the message of that use.  Every move keeps it, so of each message sent the broker
forwards what was promised (`forwarded_once`).
-/

namespace Mqtt

/-- Whether what a transaction sends again is the message of the latest use. -/
def Transaction.Repeats (t : Transaction) (k : Desk) : Prop :=
  t.awaits.isPublish = true → ∃ (m : Packet.Publish) (packet : Bytes),
    t.packet = .request packet ∧ Packet.encode m.put = .ok packet ∧ m.qos ≠ .atMostOnce ∧
      m.packetId = some t.packetId ∧ k.Bears m

/-- The answer in the hand of the thread, if it is under an identifier and an active
transaction waits for it. -/
def Client.due (c : Client) (hand : Option Inbound) (id : UInt16) : List AckKind :=
  (((hand.bind Inbound.receipt?).filter fun r => r.id == id && c.pending.contains r.kind id).map
    (·.kind)).toList

/-- Whether the transactions under an identifier are what the handshakes under it ask for,
an answer in hand being still under way. -/
structure Accords (hand : Option Inbound) (c : Client) (id : UInt16) (a : Affair)
    (awaits : Option AckKind) : Prop where
  stands : Affair.Stands awaits { a with ins := c.due hand id ++ a.ins }
  waits : ∀ t ∈ c.pending.all, t.packetId = id → t.awaits ∈ AckKind.ofSender →
    awaits = some t.awaits ∧ t.Repeats a.desk
  kept : c.destroyed = false → ∀ kind, awaits = some kind →
    ∃ t ∈ c.pending.all, t.isFor kind id = true

/-- Whether the transactions of a client are what the handshakes ask for. -/
def Agrees (hand : Option Inbound) (c : Client) (x : Exchange) : Prop :=
  ∀ id, ∃ awaits, Accords hand c id (x.under id) awaits

/-- Whether the transactions are what the handshakes ask for, whatever the broker and the
channels did. -/
def Tallies {σ : Type} (hand : Option Inbound) (s : System σ) : Prop :=
  ∀ x, Exchange.Beside s.log x → Agrees hand s.client x

/-! ## What the broker and the channels do -/

section

variable {hand hand' : Option Inbound} {c c' : Client} {id : UInt16} {a b : Affair}
  {awaits : Option AckKind} {x y : Exchange}

theorem Affair.Moved.bears (moved : a.Moved b) {m : Packet.Publish} (bears : a.desk.Bears m) :
    b.desk.Bears m := by
  cases moved with
  | served => exact (Desk.bears_serve _).2 bears
  | lost => exact bears

/-- An answer in hand is read before all that are under way. -/
theorem Affair.Moved.behind (moved : a.Moved b) (read : List AckKind) :
    Affair.Moved { a with ins := read ++ a.ins } { b with ins := read ++ b.ins } := by
  cases moved with
  | served w outs ins desk =>
    have step := Affair.Moved.served w outs (read ++ ins) desk
    rw [List.append_assoc] at step
    exact step
  | lost desk fewer fewer' => exact .lost desk fewer ((List.Sublist.refl read).append fewer')

theorem Accords.moved (h : Accords hand c id a awaits) (moved : a.Moved b) :
    Accords hand c id b awaits := by
  refine ⟨h.stands.moved (moved.behind _), fun t member own ofSender => ?_, h.kept⟩
  obtain ⟨same, repeats⟩ := h.waits t member own ofSender
  refine ⟨same, fun publish => ?_⟩
  obtain ⟨m, packet, keeps, written, level, given, bears⟩ := repeats publish
  exact ⟨m, packet, keeps, written, level, given, moved.bears bears⟩

theorem Agrees.moved (h : Agrees hand c x) (moved : x.Moved y) : Agrees hand c y := by
  intro id
  obtain ⟨awaits, accords⟩ := h id
  exact ⟨awaits, accords.moved (moved.under id)⟩

theorem Agrees.moves (h : Agrees hand c x) (moves : Relation.ReflTransGen Exchange.Moved x y) :
    Agrees hand c y := by
  induction moves with
  | refl => exact h
  | tail _ moved ih => exact ih.moved moved

/-! ## What waits under an identifier -/

/-- Whether the same is waited for under an identifier, with the same messages. -/
structure Pending.Alike (id : UInt16) (p q : Pending) : Prop where
  back : ∀ u ∈ q.all, u.packetId = id → u.awaits ∈ AckKind.ofSender →
    ∃ t ∈ p.all, t.packetId = id ∧ t.awaits = u.awaits ∧ ∀ k, t.Repeats k → u.Repeats k
  forth : ∀ t ∈ p.all, t.packetId = id → t.awaits ∈ AckKind.ofSender →
    ∃ u ∈ q.all, u.isFor t.awaits id = true

namespace Pending.Alike

variable {p q : Pending}

theorem of_mem (same : ∀ t : Transaction, t.packetId = id → t.awaits ∈ AckKind.ofSender →
    (t ∈ q.all ↔ t ∈ p.all)) : Pending.Alike id p q := by
  constructor
  · intro u member own ofSender
    exact ⟨u, (same u own ofSender).1 member, own, rfl, fun _ repeats => repeats⟩
  · intro t member own ofSender
    exact ⟨t, (same t own ofSender).2 member, Transaction.isFor_iff.2 ⟨own, rfl⟩⟩

theorem of_all (same : q.all = p.all) : Pending.Alike id p q :=
  of_mem fun t _ _ => by rw [same]

/-- Taking out one transaction leaves all that it could not be. -/
theorem take (kind : AckKind) {other : UInt16}
    (apart : ¬ (other = id ∧ kind ∈ AckKind.ofSender)) :
    Pending.Alike id p (p.take kind other).2 := by
  apply of_mem
  intro t own ofSender
  have unfit : t.isFor kind other = false := by
    rw [← Bool.not_eq_true, Transaction.isFor_iff]
    intro fits
    rcases fits with ⟨same, rfl⟩
    exact apart ⟨same.symm.trans own, ofSender⟩
  rw [mem_all, mem_all, mem_take_active unfit]
  exact Iff.rfl

theorem insert {u : Transaction} (absent : p.contains u.awaits u.packetId = false)
    (apart : ¬ (u.packetId = id ∧ u.awaits ∈ AckKind.ofSender)) :
    Pending.Alike id p (p.insert u).2 := by
  apply of_mem
  intro t own ofSender
  have other : t ≠ u := by
    intro same
    subst same
    exact apart ⟨own, ofSender⟩
  rw [mem_insert_of_absent absent]
  simp [other]

theorem stage {u : Transaction} (apart : ¬ (u.packetId = id ∧ u.awaits ∈ AckKind.ofSender)) :
    Pending.Alike id p (p.stage u) := by
  apply of_mem
  intro t own ofSender
  have other : t ≠ u := by
    intro same
    subst same
    exact apart ⟨own, ofSender⟩
  rw [stage_all]
  simp [other]

theorem trans {r : Pending} (first : Pending.Alike id p q) (later : Pending.Alike id q r) :
    Pending.Alike id p r := by
  constructor
  · intro u member own ofSender
    obtain ⟨t, middle, own', kind', repeats'⟩ := later.back u member own ofSender
    obtain ⟨t', before, own'', kind'', repeats''⟩ := first.back t middle own' (kind' ▸ ofSender)
    exact ⟨t', before, own'', kind''.trans kind', fun k h => repeats' k (repeats'' k h)⟩
  · intro t member own ofSender
    obtain ⟨u, middle, fits⟩ := first.forth t member own ofSender
    obtain ⟨own', kind'⟩ := Transaction.isFor_iff.1 fits
    obtain ⟨v, after, fits'⟩ := later.forth u middle own' (kind' ▸ ofSender)
    exact ⟨v, after, kind' ▸ fits'⟩

end Pending.Alike

/-- A message that is marked is still the same message. -/
theorem Transaction.Repeats.look {t u : Transaction} {now limit : UInt32} {force : Bool} {k : Desk}
    (looked : (t.look now limit force).1 = some u) (h : t.Repeats k) : u.Repeats k := by
  obtain ⟨kind, own, -, packet⟩ := of_look_eq_some looked
  intro publish
  rw [kind] at publish
  obtain ⟨m, packet', keeps, written, level, given, bears⟩ := h publish
  rw [← own] at given
  rcases packet with same | ⟨-, marked⟩
  · exact ⟨m, packet', same.trans keeps, written, level, given, bears⟩
  · refine ⟨m.again, Packet.markDup packet', ?_, Packet.Publish.markDup_put written, level, given,
      bears⟩
    rw [marked, keeps]
    rfl

theorem Pending.Alike.scan (p : Pending) (now limit : UInt32) (force : Bool) :
    Pending.Alike id p (p.scan now limit force).2 := by
  constructor
  · intro u member own ofSender
    rcases Pending.mem_all.1 member with active | staged
    · obtain ⟨t, before, looked⟩ := Pending.mem_scan_active.1 active
      obtain ⟨kind, own', -⟩ := Transaction.of_look_eq_some looked
      exact ⟨t, Pending.mem_all.2 (Or.inl before), own'.symm.trans own, kind.symm,
        fun _ repeats => repeats.look looked⟩
    · rw [Pending.scan_staged] at staged
      exact ⟨u, Pending.mem_all.2 (Or.inr staged), own, rfl, fun _ repeats => repeats⟩
  · intro t member own ofSender
    rcases Pending.mem_all.1 member with active | staged
    · have lasting := (AckKind.of_ofSender _ ofSender).2
      obtain ⟨u, looked⟩ := @Transaction.look_isSome now limit force t lasting
      obtain ⟨kind, own', -⟩ := Transaction.of_look_eq_some looked
      exact ⟨u, Pending.mem_all.2 (Or.inl (Pending.mem_scan_active.2 ⟨t, active, looked⟩)),
        Transaction.isFor_iff.2 ⟨own'.trans own, kind⟩⟩
    · refine ⟨t, Pending.mem_all.2 (Or.inr ?_), Transaction.isFor_iff.2 ⟨own, rfl⟩⟩
      rw [Pending.scan_staged]
      exact staged

/-! ## What the client does -/

/-- No more is in hand than an answer that was awaited before. -/
theorem due_sublist (fewer : ∀ kind ∈ AckKind.ofSender, c'.pending.contains kind id = true →
    c.pending.contains kind id = true) :
    (c'.due hand id).Sublist (c.due hand id) := by
  unfold Client.due
  cases read : hand.bind Inbound.receipt? with
  | none => exact .refl _
  | some r =>
    obtain ⟨p, -, receipt⟩ := Option.bind_eq_some_iff.1 read
    by_cases due : r.id = id ∧ c'.pending.contains r.kind id = true
    · have before := fewer r.kind (Inbound.kind_of_receipt? receipt) due.2
      simp [Option.filter, due, before]
    · have none : (r.id == id && c'.pending.contains r.kind id) = false := by simpa using due
      simp [Option.filter, none]

theorem due_eq_nil (absent : ∀ kind ∈ AckKind.ofSender, c.pending.contains kind id = false) :
    c.due hand id = [] := by
  unfold Client.due
  cases read : hand.bind Inbound.receipt? with
  | none => rfl
  | some r =>
    obtain ⟨p, -, receipt⟩ := Option.bind_eq_some_iff.1 read
    have none := absent r.kind (Inbound.kind_of_receipt? receipt)
    by_cases own : r.id = id
    · simp [Option.filter, own, none]
    · simp [Option.filter, own]

/-- With an answer in hand that is awaited, just that is due. -/
theorem due_of_receipt {p : Inbound} {kind : AckKind} (read : p.receipt? = some ⟨id, kind⟩)
    (present : c.pending.contains kind id = true) : c.due (some p) id = [kind] := by
  simp [Client.due, read, Option.filter, present]

theorem due_of_absent {p : Inbound} {kind : AckKind} (read : p.receipt? = some ⟨id, kind⟩)
    (absent : c.pending.contains kind id = false) : c.due (some p) id = [] := by
  simp [Client.due, read, Option.filter, absent]

theorem Accords.of_alike (h : Accords hand c id a awaits)
    (alike : Pending.Alike id c.pending c'.pending)
    (alive : c'.destroyed = false → c.destroyed = false)
    (due : (c'.due hand' id).Sublist (c.due hand id)) : Accords hand' c' id a awaits := by
  have stands : Affair.Stands awaits { a with ins := c'.due hand' id ++ a.ins } :=
    h.stands.lost (.refl _) (due.append (.refl _))
  refine ⟨stands, fun u member own ofSender => ?_, fun living kind same => ?_⟩
  · obtain ⟨t, before, own', same, repeats⟩ := alike.back u member own ofSender
    have waits := h.waits t before own' (same ▸ ofSender)
    exact ⟨same ▸ waits.1, repeats _ waits.2⟩
  · obtain ⟨t, before, fits⟩ := h.kept (alive living) kind same
    obtain ⟨own, rfl⟩ := Transaction.isFor_iff.1 fits
    have ofSender : t.awaits ∈ AckKind.ofSender := by
      subst same
      rcases h.stands.awaits_cases with same | same | same <;> simp [AckKind.ofSender, same]
    exact alike.forth t before own ofSender

theorem Agrees.of_alike (h : Agrees hand c x)
    (alike : ∀ id, Pending.Alike id c.pending c'.pending)
    (alive : c'.destroyed = false → c.destroyed = false)
    (due : ∀ id, (c'.due hand' id).Sublist (c.due hand id)) : Agrees hand' c' x := by
  intro id
  obtain ⟨awaits, accords⟩ := h id
  exact ⟨awaits, accords.of_alike (alike id) alive (due id)⟩

/-- Nothing changes while the transactions are the same. -/
theorem Agrees.same (h : Agrees hand c x) (active : c'.pending.active = c.pending.active)
    (staged : c'.pending.staged = c.pending.staged)
    (alive : c'.destroyed = false → c.destroyed = false) : Agrees hand c' x := by
  refine h.of_alike (fun id => .of_all ?_) alive fun id => due_sublist fun kind _ present => ?_
  · unfold Pending.all
    rw [active, staged]
  · unfold Pending.contains at present ⊢
    rw [← active]
    exact present

/-- With nothing in hand the transactions may change sides. -/
theorem Agrees.unheld (h : Agrees hand c x)
    (alike : ∀ id, Pending.Alike id c.pending c'.pending)
    (alive : c'.destroyed = false → c.destroyed = false) : Agrees none c' x :=
  h.of_alike alike alive fun _ => List.nil_sublist _

/-- One more parcel of a handshake that goes on is no matter. -/
theorem Agrees.carry (h : Agrees hand c x) (d : Parcel)
    (goesOn : ∀ awaits, Accords hand c d.id (x.under d.id) awaits →
      Affair.Stands awaits { x.under d.id with
        outs := (x.under d.id).outs ++ [d.what]
        ins := c.due hand d.id ++ (x.under d.id).ins }) : Agrees hand c (x.carry d) := by
  intro id
  by_cases own : d.id = id
  · subst own
    obtain ⟨awaits, accords⟩ := h d.id
    refine ⟨awaits, ?_⟩
    rw [Exchange.under_carry_self rfl]
    exact ⟨goesOn awaits accords, accords.waits, accords.kept⟩
  · rw [Exchange.under_carry_other own]
    exact h id

/-- Nothing of the client waits under an identifier that is free. -/
theorem absent_of_free (free : c.pending.idInUse id = false) {t : Transaction}
    (member : t ∈ c.pending.all) (own : t.packetId = id) : t.awaits ∉ AckKind.ofSender :=
  fun ofSender => Pending.not_isLocal_of_free free member own (AckKind.of_ofSender _ ofSender).1

theorem contains_of_free (free : c.pending.idInUse id = false) :
    ∀ kind ∈ AckKind.ofSender, c.pending.contains kind id = false := by
  intro kind ofSender
  rw [Bool.eq_false_iff]
  intro present
  obtain ⟨t, member, own, rfl⟩ := Pending.contains_iff.1 present
  exact absent_of_free free (Pending.mem_all.2 (Or.inl member)) own ofSender

/-- Under a free identifier nothing is waited for. -/
theorem Accords.settled (h : Accords hand c id a awaits) (alive : c.destroyed = false)
    (free : c.pending.idInUse id = false) : awaits = none ∧ Affair.Stands none a := by
  have none_ : awaits = none := by
    cases some_ : awaits with
    | none => rfl
    | some kind =>
      subst some_
      obtain ⟨u, member, fits⟩ := h.kept alive kind rfl
      obtain ⟨own, rfl⟩ := Transaction.isFor_iff.1 fits
      refine absurd ?_ (absent_of_free free member own)
      rcases h.stands.awaits_cases with same | same | same <;> simp [AckKind.ofSender, same]
  have idle : c.due hand id = [] := due_eq_nil (contains_of_free free)
  have stands := h.stands
  rw [none_, idle] at stands
  exact ⟨none_, stands⟩

/-- Where nothing is under way a message sent for the first time begins another use. -/
theorem Accords.engage {outs ins} {desk : Desk} (h : Accords hand c id ⟨outs, ins, desk⟩ awaits)
    (alive : c.destroyed = false) (free : c.pending.idInUse id = false) (unsent : outs = [])
    (unread : ins = []) {m : Packet.Publish} {packet : Bytes}
    (written : Packet.encode m.put = .ok packet) {t : Transaction}
    (level : m.qos = .atLeastOnce ∧ t.awaits = .pubAck ∨ m.qos = .exactlyOnce ∧ t.awaits = .pubRec)
    (given : m.packetId = some id) (own : t.packetId = id) (keeps : t.packet = .request packet)
    (pending : c'.pending = c.pending.stage t) :
    Accords hand c' id ⟨outs ++ [.message m], ins, desk.engage m⟩ (some t.awaits) := by
  have stands := (h.settled alive free).2
  have idle : c'.due hand id = [] := by
    apply due_eq_nil
    intro kind ofSender
    rw [pending]
    exact contains_of_free free kind ofSender
  refine ⟨?_, fun u member own' ofSender => ?_, fun _ kind same => ?_⟩
  · rw [idle]
    exact stands.engage unsent unread level
  · rw [pending, Pending.stage_all] at member
    rcases List.mem_append.1 member with before | last
    · exact absurd ofSender (absent_of_free free before own')
    · cases List.mem_singleton.1 last
      have higher : m.qos ≠ .atMostOnce := by
        rcases level with ⟨low, -⟩ | ⟨high, -⟩
        · rw [low]
          exact Qos.noConfusion
        · rw [high]
          exact Qos.noConfusion
      exact ⟨rfl, fun _ =>
        ⟨m, packet, keeps, written, higher, own ▸ given, Desk.bears_engage _ _⟩⟩
  · cases same
    refine ⟨t, ?_, Transaction.isFor_iff.2 ⟨own, rfl⟩⟩
    rw [pending, Pending.stage_all]
    exact List.mem_append_right _ List.mem_cons_self

/-- A message sent for the first time puts its free identifier to another use. -/
theorem Agrees.engage (h : Agrees hand c x) (alive : c.destroyed = false)
    (free : c.pending.idInUse id = false) {m : Packet.Publish} {packet : Bytes}
    (written : Packet.encode m.put = .ok packet) (new : m.dup = false)
    (posted : x.post ⟨id, .message m⟩ = some y) {t : Transaction}
    (level : m.qos = .atLeastOnce ∧ t.awaits = .pubAck ∨ m.qos = .exactlyOnce ∧ t.awaits = .pubRec)
    (given : m.packetId = some id) (own : t.packetId = id) (keeps : t.packet = .request packet)
    (pending : c'.pending = c.pending.stage t) (living : c'.destroyed = c.destroyed) :
    Agrees hand c' y := by
  have ⟨clear, begun⟩ : x.isClear id = true ∧
      y = (x.alter id (·.engage m)).carry ⟨id, .message m⟩ := by
    rcases Exchange.post_cases posted with ⟨-, again⟩ | ⟨m', what, -, clear, begun⟩
    · rw [again m rfl] at new
      cases new
    · cases what
      exact ⟨clear, begun⟩
  subst begun
  intro other
  obtain ⟨awaits, accords⟩ := h other
  by_cases same : id = other
  · subst same
    obtain ⟨outs, ins⟩ := Exchange.under_of_isClear clear
    refine ⟨some t.awaits, ?_⟩
    rw [Exchange.under_carry_self rfl, Exchange.under_alter_self]
    exact accords.engage alive free outs ins written level given own keeps pending
  · refine ⟨awaits, ?_⟩
    rw [Exchange.under_carry_other same, Exchange.under_alter_other (Ne.symm same)]
    refine accords.of_alike ?_ (fun alive' => living ▸ alive')
      (due_sublist fun kind _ present => ?_)
    · rw [pending]
      exact .stage fun own' => same (own.symm.trans own'.1)
    · rw [pending] at present
      exact present

/-- Nothing is asked of a client that was torn down. -/
theorem Agrees.purge (h : Agrees hand c x) (destroyed : c'.destroyed = true)
    (purged : c'.pending = c.pending.purge) : Agrees hand' c' x := by
  have idle (id : UInt16) : c'.due hand' id = [] := by
    apply due_eq_nil
    intro kind _
    rw [purged]
    rfl
  intro id
  obtain ⟨awaits, accords⟩ := h id
  refine ⟨awaits, ?_, fun t member => ?_, fun alive => ?_⟩
  · rw [idle id]
    exact accords.stands.lost (.refl _) (List.sublist_append_right _ _)
  · rw [purged] at member
    cases member
  · rw [destroyed] at alive
    cases alive

/-- A request about filters is of no concern to the handshakes. -/
theorem Agrees.stage (h : Agrees hand c x) {t : Transaction} (other : t.awaits ∉ AckKind.ofSender)
    (pending : c'.pending = c.pending.stage t) (living : c'.destroyed = c.destroyed) :
    Agrees hand c' x := by
  refine h.of_alike (fun id => ?_) (fun alive => living ▸ alive)
    fun id => due_sublist fun kind _ present => ?_
  · rw [pending]
    exact .stage fun own => other own.2
  · rw [pending] at present
    exact present

/-- An answer that was read is in hand instead of under way. -/
theorem Agrees.fetch (h : Agrees none c x) {p : Inbound} {r : Receipt}
    (read : p.receipt? = some r) (fetched : x.fetch r = some y) : Agrees (some p) c y := by
  intro id
  obtain ⟨awaits, accords⟩ := h id
  obtain ⟨outs, desk, ins⟩ := Exchange.under_fetch fetched id
  have held : (c.due (some p) id).Sublist (if r.id = id then [r.kind] else []) := by
    unfold Client.due
    rw [Option.bind_some, read]
    by_cases own : r.id = id
    · by_cases present : c.pending.contains r.kind id = true
      · simp [Option.filter, own, present]
      · simp [Option.filter, own, present]
    · simp [Option.filter, own]
  refine ⟨awaits, ?_, fun t member own ofSender => ?_, accords.kept⟩
  · have stands := accords.stands
    change Affair.Stands awaits ⟨(x.under id).outs, [] ++ (x.under id).ins, (x.under id).desk⟩
      at stands
    rw [outs, desk, ins] at stands
    exact stands.lost (.refl _) (held.append (.refl _))
  · rw [← desk]
    exact accords.waits t member own ofSender

/-- What is left once the transaction of a handshake is taken has no part in it. -/
theorem absent_of_take (distinct : c.pending.Distinct) {kind : AckKind} {t : Transaction}
    (ofSender : kind ∈ AckKind.ofSender) (taken : (c.pending.take kind id).1 = some t)
    {u : Transaction} (left : u ∈ (c.pending.take kind id).2.all) (own : u.packetId = id) :
    u.awaits ∉ AckKind.ofSender := by
  intro ofSender'
  obtain ⟨-, own', rfl⟩ := Pending.of_take_eq_some taken
  refine distinct.apart_of_take taken left ?_ (own.trans own'.symm)
  rw [(AckKind.of_ofSender _ ofSender).1, (AckKind.of_ofSender _ ofSender').1]

theorem contains_of_take (distinct : c.pending.Distinct) {kind : AckKind} {t : Transaction}
    (ofSender : kind ∈ AckKind.ofSender) (taken : (c.pending.take kind id).1 = some t) :
    ∀ kind' ∈ AckKind.ofSender, (c.pending.take kind id).2.contains kind' id = false :=
  fun kind' ofSender' => distinct.absent_of_take taken <| by
    rw [(AckKind.of_ofSender _ ofSender).1, (AckKind.of_ofSender _ ofSender').1]

/-- An answer that is taken was the one waited for, and was still under way in hand. -/
theorem Accords.taken {p : Inbound} {kind : AckKind} {t : Transaction}
    (h : Accords (some p) c id a awaits) (ofSender : kind ∈ AckKind.ofSender)
    (read : p.ack? kind.packetKind = some id) (taken : (c.pending.take kind id).1 = some t) :
    awaits = some kind ∧ Affair.Stands (some kind) { a with ins := kind :: a.ins } := by
  obtain ⟨active, own, same⟩ := Pending.of_take_eq_some taken
  obtain ⟨waits, -⟩ := h.waits t (Pending.mem_all.2 (Or.inl active)) own (same ▸ ofSender)
  rw [same] at waits
  have present : c.pending.contains kind id = true := Pending.contains_iff.2 ⟨t, active, own, same⟩
  have stands := h.stands
  rw [due_of_receipt (Inbound.receipt?_of_ack ofSender read) present, waits] at stands
  exact ⟨waits, stands⟩

/-- A message is published with the last answer of its handshake. -/
theorem Agrees.complete {p : Inbound} {kind : AckKind} {t : Transaction} (h : Agrees (some p) c x)
    (distinct : c.pending.Distinct) (last : kind = .pubAck ∨ kind = .pubComp)
    (read : p.ack? kind.packetKind = some id) (taken : (c.pending.take kind id).1 = some t) :
    Agrees (some p) (c.without kind id) (x.alter id Desk.confirm) := by
  have ofSender : kind ∈ AckKind.ofSender := by
    rcases last with rfl | rfl <;> simp [AckKind.ofSender]
  intro other
  obtain ⟨awaits, accords⟩ := h other
  by_cases same : id = other
  · subst same
    obtain ⟨-, stands⟩ := accords.taken ofSender read taken
    have completed := stands.complete last List.mem_cons_self
    have idle : (c.without kind id).due (some p) id = [] :=
      due_eq_nil (contains_of_take distinct ofSender taken)
    refine ⟨none, ?_⟩
    rw [Exchange.under_alter_self]
    refine ⟨?_, fun u left own ofSender' => ?_, fun _ kind' waits => by cases waits⟩
    · rw [idle, List.nil_append]
      exact completed.lost (.refl _) (List.sublist_cons_self _ _)
    · exact absurd ofSender' (absent_of_take distinct ofSender taken left own)
  · refine ⟨awaits, ?_⟩
    rw [Exchange.under_alter_other (Ne.symm same)]
    refine accords.of_alike (.take _ fun own => same own.1) (fun living => living)
      (due_sublist fun kind' _ present => ?_)
    exact (Pending.contains_take_other fun own => same own.2).symm.trans present

/-- With PUBREC the end of the handshake is waited for. -/
theorem Accords.advance {p : Inbound} {t : Transaction} (h : Accords (some p) c id a awaits)
    (distinct : c.pending.Distinct) (read : p.ack? .pubRec = some id)
    (taken : (c.pending.take .pubRec id).1 = some t) (began : UInt32) :
    Accords (some p) ((c.without .pubRec id).keep (c.ending began t id)) id a (some .pubComp) := by
  have ofSender : AckKind.pubRec ∈ AckKind.ofSender := by simp [AckKind.ofSender]
  have absent := contains_of_take distinct ofSender taken
  have free : (c.without .pubRec id).pending.contains .pubComp id = false :=
    absent _ (by simp [AckKind.ofSender])
  have answered : ((c.without .pubRec id).keep (c.ending began t id)).pending.contains
      .pubRec id = false := by
    refine Eq.trans (Pending.contains_insert_other fun same => ?_) (absent _ ofSender)
    cases same.1
  have idle := due_of_absent (Inbound.receipt?_of_ack ofSender read) answered
  have advanced := (h.taken ofSender read taken).2.advance List.mem_cons_self
  refine ⟨?_, fun u member own ofSender' => ?_, fun _ kind waits => ?_⟩
  · rw [idle, List.nil_append]
    exact advanced.lost (.refl _) (List.sublist_cons_self _ _)
  · rcases (Pending.mem_insert_of_absent free).1 member with left | rfl
    · exact absurd ofSender' (absent_of_take distinct ofSender taken left own)
    · exact ⟨rfl, fun publish => by cases publish⟩
  · cases waits
    exact ⟨_, (Pending.mem_insert_of_absent free).2 (Or.inr rfl),
      Transaction.isFor_iff.2 ⟨rfl, rfl⟩⟩

theorem Agrees.advance {p : Inbound} {t : Transaction} (h : Agrees (some p) c x)
    (distinct : c.pending.Distinct) (read : p.ack? .pubRec = some id)
    (taken : (c.pending.take .pubRec id).1 = some t) (began : UInt32) :
    Agrees (some p) ((c.without .pubRec id).keep (c.ending began t id)) x := by
  intro other
  obtain ⟨awaits, accords⟩ := h other
  by_cases same : id = other
  · subst same
    exact ⟨some .pubComp, accords.advance distinct read taken began⟩
  · have free : (c.without .pubRec id).pending.contains .pubComp id = false :=
      contains_of_take distinct (by simp [AckKind.ofSender]) taken _ (by simp [AckKind.ofSender])
    refine ⟨awaits, accords.of_alike ?_ (fun living => living)
      (due_sublist fun kind _ present => ?_)⟩
    · exact (Pending.Alike.take _ fun own => same own.1).trans
        (.insert free fun own => same own.1)
    · have left : (c.pending.take .pubRec id).2.contains kind other =
          c.pending.contains kind other := Pending.contains_take_other fun own => same own.2
      have put : ((c.without .pubRec id).keep (c.ending began t id)).pending.contains kind other =
          (c.pending.take .pubRec id).2.contains kind other :=
        Pending.contains_insert_other fun own => same own.2
      rw [← left, ← put]
      exact present

end

/-! ## What the client writes -/

section

variable {σ : Type} {s s' : System σ} {hand hand' : Option Inbound}

theorem Tallies.of_log (h : Tallies hand s) (log : s'.log = s.log)
    (step : ∀ x, Agrees hand s.client x → Agrees hand' s'.client x) : Tallies hand' s' := by
  intro x beside
  rw [log] at beside
  exact step x (h x beside)

theorem Tallies.of_entry (h : Tallies hand s) {e : Entry} (log : s'.log = e :: s.log)
    (step : ∀ x y, x.follow s.log e = some y → Agrees hand s.client x →
      Agrees hand' s'.client y) : Tallies hand' s' := by
  intro z beside
  rw [log] at beside
  obtain ⟨x, y, before, follows, later⟩ := beside.of_cons
  exact (step x y follows (h x before)).moves later

/-- An entry of no concern to the handshakes changes nothing. -/
theorem Tallies.of_remark (h : Tallies hand s) {e : Entry} (log : s'.log = e :: s.log)
    (idle : ∀ x : Exchange, x.follow s.log e = some x)
    (step : ∀ x, Agrees hand s.client x → Agrees hand' s'.client x) : Tallies hand' s' := by
  apply h.of_entry log
  intro x y follows agrees
  rw [idle] at follows
  cases follows
  exact step x agrees

theorem Tallies.close (h : Tallies hand s) : Tallies hand s.close := by
  have same (x : Exchange) (agrees : Agrees hand s.client x) : Agrees hand s.close.client x := by
    refine agrees.same ?_ ?_ ?_ <;> simp
  by_cases linked : s.client.linked = true
  · refine h.of_remark (e := .closed) ?_ (fun _ => rfl) same
    rw [System.close_log, if_pos linked]
  · refine h.of_log ?_ same
    rw [System.close_log, if_neg linked]

variable [Environment σ]

namespace Exchange.Beside

variable {log : List Entry} {x y : Exchange}

/-- Offers that do not end a packet bring nothing under way. -/
theorem of_unfinished {new : List Entry}
    (unfinished : ∀ e ∈ new, ∃ a : Transport.Attempt, e = .sent a ∧ a.completes = false)
    (beside : Beside (new ++ log) y) : Beside log y := by
  induction new generalizing y with
  | nil => exact beside
  | cons e new ih =>
    rw [List.cons_append] at beside
    obtain ⟨x, z, before, follows, later⟩ := of_cons beside
    obtain ⟨a, rfl, short⟩ := unfinished e List.mem_cons_self
    have same : x.follow (new ++ log) (.sent a) = some x := by simp [follow, short]
    rw [same] at follows
    cases follows
    exact ih (fun e member => unfinished e (List.mem_cons_of_mem _ member)) (before.later later)

/-- A packet is under way when sending it ended well, and only then. -/
theorem of_afterSend {bs : Bytes} {q : Inbound} (whole : Packet.parse? bs = some q)
    (beside : Beside (s.afterSend bs).log y) :
    (∃ e, s.sendResult bs = .error e) ∧ Beside s.log y ∨
      s.sendResult bs = .ok () ∧ ∃ x z, Beside s.log x ∧ x.pass q = some z ∧
        Relation.ReflTransGen Moved z y := by
  obtain ⟨new, partly, ⟨failed, log⟩ | ⟨sent, last, own, full, log⟩⟩ :=
    s.afterSend_cases (Packet.ne_nil_of_parse? whole)
  · rw [log] at beside
    exact Or.inl ⟨failed, of_unfinished partly beside⟩
  · rw [log] at beside
    obtain ⟨x, z, beside, follows, later⟩ := of_cons beside
    rw [follow, if_pos full, own, whole] at follows
    exact Or.inr ⟨sent, x, z, of_unfinished partly beside, follows, later⟩

end Exchange.Beside

/-- What sending a packet brings under way, if it ends well. -/
theorem tallies_afterSend {bs : Bytes} {q : Inbound} (whole : Packet.parse? bs = some q)
    (ill : ∀ e x, s.sendResult bs = .error e → Exchange.Beside s.log x → Agrees hand s.client x)
    (well : ∀ x y, s.sendResult bs = .ok () → Exchange.Beside s.log x → x.pass q = some y →
      Agrees hand s.client y) : Tallies hand (s.afterSend bs) := by
  have same {x : Exchange} (agrees : Agrees hand s.client x) :
      Agrees hand (s.afterSend bs).client x := by
    refine agrees.same ?_ ?_ ?_ <;> simp
  intro y beside
  rcases beside.of_afterSend whole with ⟨⟨e, failed⟩, before⟩ | ⟨sent, x, z, before, passes, later⟩
  · exact same (ill e y failed before)
  · exact same ((well x z sent before passes).moves later)

theorem Tallies.afterSend (h : Tallies hand s) {bs : Bytes} {q : Inbound}
    (whole : Packet.parse? bs = some q)
    (step : ∀ x y, Exchange.Beside s.log x → x.pass q = some y → Agrees hand s.client x →
      Agrees hand s.client y) : Tallies hand (s.afterSend bs) :=
  tallies_afterSend whole (fun _ x _ before => h x before)
    fun x y _ before passes => step x y before passes (h x before)

/-- Packets of no concern to the handshakes may be sent. -/
theorem Tallies.sends (h : Tallies hand s) {bs : Bytes} {q : Inbound}
    (whole : Packet.parse? bs = some q) (plain : q.parcel? = none) :
    Tallies hand (s.afterSend bs) := by
  apply h.afterSend whole
  intro x y _ passes agrees
  rw [Exchange.pass_of_none plain] at passes
  cases passes
  exact agrees

theorem Tallies.acks (h : Tallies hand s) {kind : Packet.Kind} (id : UInt16)
    (unsent : kind ≠ .publish) (kept : kind ≠ .pubRel) :
    Tallies hand (s.afterSend (Packet.ack kind id)) :=
  h.sends (Packet.parse?_ack kind id) (Inbound.parcel?_eq_none unsent kept)

/-- A release may be sent while its answer is waited for. -/
theorem Tallies.releases (h : Tallies hand s) {id : UInt16}
    (waiting : (∃ t ∈ s.client.pending.all, t.isFor .pubComp id = true) ∨
      Entry.GaveUp s.log .pubComp id) :
    Tallies hand (s.afterSend (Packet.ack .pubRel id)) := by
  refine h.afterSend (Packet.parse?_ack .pubRel id) fun x y before passes agrees => ?_
  rw [Exchange.pass_of_some (Inbound.parcel?_pubRel id)] at passes
  cases passes
  obtain ⟨t, member, fits⟩ := waiting.resolve_right before.keeps
  obtain ⟨own, kind⟩ := Transaction.isFor_iff.1 fits
  apply agrees.carry ⟨id, .release⟩
  intro awaits accords
  obtain ⟨waits, -⟩ := accords.waits t member own (by simp [AckKind.ofSender, kind])
  have stands := accords.stands
  rw [waits, kind] at stands ⊢
  exact stands.release

/-- A message may be sent again while its first answer is waited for. -/
theorem Tallies.again (h : Tallies hand s) {awaits : AckKind} {id : UInt16} {packet : Bytes}
    (publish : awaits.isPublish = true) (again : Resendable id awaits packet)
    (asked : s.client.pending.Asks awaits id packet ∨ Entry.GaveUp s.log awaits id) :
    Tallies hand (s.afterSend packet) := by
  obtain ⟨q, whole, -⟩ := again.parse?
  apply h.afterSend whole
  intro x y before passes agrees
  obtain ⟨t, active, fits, marked⟩ := asked.resolve_right before.keeps
  obtain ⟨own, rfl⟩ := Transaction.isFor_iff.1 fits
  have member : t ∈ s.client.pending.all := Pending.mem_all.2 (Or.inl active)
  have ofSender := AckKind.mem_ofSender_of_isPublish publish
  obtain ⟨_, found⟩ := agrees id
  obtain ⟨m, packet', keeps, written, level, given, bears⟩ :=
    (found.waits t member own ofSender).2 publish
  rw [keeps] at marked
  subst marked
  obtain ⟨q', whole', -, carries⟩ := Inbound.parcel?_of_put (Packet.Publish.markDup_put written)
  cases whole.symm.trans whole'
  rw [Exchange.pass_of_some (carries id level (own ▸ given))] at passes
  cases passes
  apply agrees.carry ⟨id, .message m.again⟩
  intro awaits accords
  have stands := accords.stands
  rw [(accords.waits t member own ofSender).1] at stands ⊢
  exact stands.again publish bears

/-- A request that was sent is kept. -/
theorem Tallies.requests (h : Tallies hand s) {r : Act.Request} {id : UInt16} {packet : Bytes}
    {q : Inbound} (began : UInt32) (whole : Packet.parse? packet = some q)
    (sent : s.sendResult packet = .ok ())
    (well : ∀ x y : Exchange, x.pass q = some y → Agrees hand s.client x →
      Agrees hand ((s.client.passOver id).register began r.awaits id packet r.subject r.listed) y) :
    Tallies hand ((s.change fun c =>
      (c.passOver id).register began r.awaits id packet r.subject r.listed).afterSend packet) := by
  refine tallies_afterSend whole (fun e x failed => ?_) fun x y _ before passes => ?_
  · rw [System.sendResult_change s packet rfl rfl, sent] at failed
    cases failed
  · exact well x y passes (h x before)

/-- A request about filters is no more than kept. -/
theorem Tallies.requestsFilters (h : Tallies hand s) {r : Act.Request} {id : UInt16}
    {packet : Bytes} {q : Inbound} (began : UInt32) (whole : Packet.parse? packet = some q)
    (sent : s.sendResult packet = .ok ()) (request : r.awaits.isRequest = true)
    (unsent : q.kind ≠ .publish) (kept : q.kind ≠ .pubRel) :
    Tallies hand ((s.change fun c =>
      (c.passOver id).register began r.awaits id packet r.subject r.listed).afterSend packet) := by
  apply h.requests began whole sent
  intro x y passes agrees
  rw [Exchange.pass_of_none (Inbound.parcel?_eq_none unsent kept)] at passes
  cases passes
  exact agrees.stage (AckKind.notMem_ofSender request) rfl rfl

/-! ## Moves -/

omit [Environment σ] in
theorem Event.IsPlain.idle {e : Event} (plain : e.IsPlain) {log : List Entry} {client : Client}
    {told : Bool} (x : Exchange) : x.follow log (.raised e client told) = some x := by
  cases e <;> first | rfl | exact absurd plain fun impossible => impossible

theorem CallMove.tallies (move : CallMove s s') (h : Tallies hand s) : Tallies hand s' := by
  cases move with
  | outside | started | spoilt | awaited | asked | configured | willed | masked | passed =>
    exact h.of_log rfl fun x agrees => agrees.same rfl rfl id
  | remarked e remark =>
    refine h.of_remark rfl (fun x => ?_) fun x agrees => agrees
    cases e <;> first | rfl | exact absurd remark fun impossible => impossible
  | condemned => exact h.of_log rfl fun x agrees => agrees.same rfl rfl fun alive => by cases alive
  | undone =>
    exact h.of_remark rfl (fun _ => rfl) fun x agrees =>
      agrees.same rfl rfl fun alive => by cases alive
  | released destroyed =>
    have closed : Tallies hand s.close := h.close
    refine closed.of_log rfl fun x agrees => agrees.purge ?_ rfl
    simpa [Client.release] using destroyed
  | discarded removed =>
    apply h.of_entry rfl
    intro x y follows
    cases follows
  | @requested r id packet began issued alive _ free written sent =>
    have unused := (Client.isFree_iff.1 free).1
    cases issued with
    | subscribe =>
      obtain ⟨body, whole⟩ := Packet.Subscribe.parse?_put written
      exact h.requestsFilters began whole sent rfl Packet.Kind.noConfusion Packet.Kind.noConfusion
    | unsubscribe =>
      obtain ⟨body, whole⟩ := Packet.Unsubscribe.parse?_put written
      exact h.requestsFilters began whole sent rfl Packet.Kind.noConfusion Packet.Kind.noConfusion
    | atLeastOnce =>
      obtain ⟨q, whole, -, carries⟩ := Inbound.parcel?_of_put written
      apply h.requests began whole sent
      intro x y passes agrees
      rw [Exchange.pass_of_some (carries id Qos.noConfusion rfl)] at passes
      exact agrees.engage alive unused written rfl passes (Or.inl ⟨rfl, rfl⟩) rfl rfl rfl rfl rfl
    | exactlyOnce =>
      obtain ⟨q, whole, -, carries⟩ := Inbound.parcel?_of_put written
      apply h.requests began whole sent
      intro x y passes agrees
      rw [Exchange.pass_of_some (carries id Qos.noConfusion rfl)] at passes
      exact agrees.engage alive unused written rfl passes (Or.inr ⟨rfl, rfl⟩) rfl rfl rfl rfl rfl
  | @refused r id packet e issued _ _ _ written failed =>
    obtain ⟨q, whole, -⟩ := (Requested.request issued written).parse?
    refine tallies_afterSend whole (fun _ x _ before => ?_) fun x y sent => ?_
    · exact (h x before).same rfl rfl fun alive => alive
    · rw [System.sendResult_change s packet rfl rfl, failed] at sent
      cases sent
  | @sent m packet lowest _ _ _ written =>
    obtain ⟨q, whole, plain, -⟩ := Inbound.parcel?_of_put written
    exact h.sends whole (plain lowest)

theorem Owed.tallies {p : Inbound} {packet : Bytes} (owed : Owed p s packet) (h : Tallies hand s) :
    Tallies hand (s.afterSend packet) := by
  cases owed with
  | pubAck => exact h.acks _ Packet.Kind.noConfusion Packet.Kind.noConfusion
  | pubRec => exact h.acks _ Packet.Kind.noConfusion Packet.Kind.noConfusion
  | pubComp => exact h.acks _ Packet.Kind.noConfusion Packet.Kind.noConfusion
  | pubRel _ waiting =>
    refine h.releases (waiting.imp_left fun present => ?_)
    obtain ⟨t, active, own, kind⟩ := Pending.contains_iff.1 present
    exact ⟨t, Pending.mem_all.2 (Or.inl active), Transaction.isFor_iff.2 ⟨own, kind⟩⟩

theorem Resendable.tallies {awaits : AckKind} {id : UInt16} {packet : Bytes}
    (again : Resendable id awaits packet)
    (asked : s.client.pending.Asks awaits id packet ∨ Entry.GaveUp s.log awaits id)
    (h : Tallies hand s) : Tallies hand (s.afterSend packet) := by
  have sendable := again
  cases again with
  | pubAck => exact h.again rfl sendable asked
  | pubRec => exact h.again rfl sendable asked
  | pubRel => exact h.acks _ Packet.Kind.noConfusion Packet.Kind.noConfusion
  | pubComp =>
    refine h.releases (asked.imp_left fun asks => ?_)
    rcases asks with ⟨t, active, fits, -⟩
    exact ⟨t, Pending.mem_all.2 (Or.inl active), fits⟩

theorem TurnMove.tallies (move : TurnMove hand s s') (sane : s.client.pending.Sane)
    (h : Tallies hand s) : Tallies hand s' := by
  cases move with
  | call move => exact move.tallies h
  | told _ plain => exact h.of_remark rfl plain.idle fun x agrees => agrees
  | filed | pulsed => exact h.of_log rfl fun x agrees => agrees.same rfl rfl id
  | @delivered _ p m e _ which _ =>
    refine h.of_remark rfl (fun x => ?_) fun x agrees => agrees
    rcases which with rfl | rfl <;> rfl
  | @remembered _ p m id began _ _ _ absent =>
    refine h.of_log rfl fun x agrees => agrees.of_alike (fun _ => ?_) (fun alive => alive)
      fun _ => due_sublist fun kind ofSender present => ?_
    · exact .insert absent fun own => AckKind.pubRel_notMem own.2
    · refine (Pending.contains_insert_other fun same => ?_).symm.trans present
      rcases same with ⟨rfl, -⟩
      exact AckKind.pubRel_notMem ofSender
  | @forgotten _ p id _ =>
    refine h.of_log rfl fun x agrees => agrees.of_alike (fun _ => ?_) (fun alive => alive)
      fun _ => due_sublist fun kind _ present => ?_
    · exact .take _ fun own => AckKind.pubRel_notMem own.2
    · exact Pending.contains_of_subset List.eraseP_subset present
  | completed _ last read taken =>
    apply h.of_entry rfl
    intro x y follows agrees
    cases follows
    exact agrees.complete sane.distinct last read taken
  | advanced _ began read taken =>
    exact h.of_log rfl fun x agrees => agrees.advance sane.distinct read taken began
  | @answered _ p awaits id request =>
    refine h.of_log rfl fun x agrees => agrees.of_alike (fun _ => ?_) (fun alive => alive)
      fun _ => due_sublist fun kind _ present => ?_
    · exact .take _ fun own => AckKind.notMem_ofSender request own.2
    · exact Pending.contains_of_subset List.eraseP_subset present
  | replied _ owed => exact owed.tallies h
  | migrated =>
    exact h.of_log rfl fun x agrees => agrees.unheld
      (fun _ => .of_all (Pending.migrate_all sane.distinct)) fun alive => alive
  | scanned now limit force =>
    exact h.of_log rfl fun x agrees => agrees.unheld (fun _ => .scan _ _ _ _) fun alive => alive
  | resent _ again asked => exact again.tallies asked h
  | pinged =>
    exact h.sends Packet.parse?_pingReq
      (Inbound.parcel?_eq_none Packet.Kind.noConfusion Packet.Kind.noConfusion)

theorem ThreadMove.tallies (move : ThreadMove s s') (ordered : Ordered s)
    (sane : s.client.pending.Sane) (h : Tallies none s) : Tallies none s' := by
  have frame {t t' : System σ} (h : Tallies none t) (log : t'.log = t.log)
      (pending : t'.client.pending = t.client.pending)
      (destroyed : t'.client.destroyed = t.client.destroyed) : Tallies none t' :=
    h.of_log log fun x agrees =>
      agrees.same (by rw [pending]) (by rw [pending]) fun alive => destroyed ▸ alive
  cases move with
  | turn _ move => exact move.turn.tallies sane h
  | obeyed => exact h.of_remark rfl (fun _ => rfl) fun x agrees => agrees.same rfl rfl id
  | dialled _ config =>
    apply Tallies.of_remark (s := s.close) h.close rfl (fun _ => rfl)
    intro x agrees
    exact agrees.same rfl rfl id
  | opened => exact h.of_remark rfl (fun _ => rfl) fun x agrees => agrees.same rfl rfl id
  | saluted _ _ _ _ _ written _ =>
    obtain ⟨body, whole⟩ := Packet.Connect.parse?_put written
    have sent : Tallies none (s.afterSend _) := h.sends whole
      (Inbound.parcel?_eq_none Packet.Kind.noConfusion Packet.Kind.noConfusion)
    exact frame sent rfl rfl rfl
  | parted _ parting =>
    obtain ⟨q, whole, unsent, kept⟩ := parting.parse?
    exact (h.sends whole (Inbound.parcel?_eq_none unsent kept)).close
  | closed => exact h.close
  | readEnded =>
    exact h.of_log rfl fun x agrees => agrees.unheld
      (fun _ => .of_all (Pending.migrate_all sane.distinct)) fun alive => alive
  | @greeted reader p here =>
    have fresh := (ordered.greeting _ here).2.2
    refine h.of_remark (e := .received p) rfl (fun x => if_pos fresh) fun x agrees =>
      agrees.unheld (fun _ => .of_all (Pending.migrate_all sane.distinct)) fun alive => alive
  | left _ destroyed =>
    refine Tallies.of_log (s := s.close) h.close rfl fun x agrees => agrees.purge ?_ ?_
    · simpa [Client.release] using destroyed
    · simp [Client.release]
  | _ => exact frame h rfl rfl rfl

omit [Environment σ] in
/-- An answer that is read was the next under way, and is in hand from then on. -/
theorem Tallies.accept {reader : Frame.Reader} (h : Tallies none s) (ordered : Ordered s)
    (sane : s.client.pending.Sane) (here : s.client.place = .listening reader) (p : Inbound) :
    Tallies (some p) (s.accept p) := by
  have heard := ordered.connected (ordered.listening reader here).2
  apply h.of_entry (e := .received p) rfl
  intro x y follows agrees
  have migrated : Agrees none (s.accept p).client x := agrees.unheld
    (fun _ => .of_all (Pending.migrate_all sane.distinct)) fun alive => alive
  change (if Entry.isFresh s.log then some x else p.receipt?.elim (some x) x.fetch) = some y
    at follows
  rw [heard, if_neg Bool.false_ne_true] at follows
  cases read : p.receipt? with
  | none =>
    rw [read] at follows
    cases follows
    apply migrated.of_alike (fun _ => .of_all rfl) (fun alive => alive)
    intro id
    have idle : (s.accept p).client.due (some p) id = [] := by
      unfold Client.due
      rw [Option.bind_some, read]
      rfl
    rw [idle]
    exact List.nil_sublist _
  | some r =>
    rw [read] at follows
    exact migrated.fetch read follows

theorem Tallies.keeps : Keeps (Tallies (σ := σ)) where
  call _ _ move h := move.tallies h
  thread ordered sane move h := move.tallies ordered sane h
  accept p ordered sane here h := h.accept ordered sane here p
  turn _ sane _ move h := move.tallies sane h
  lost _ _ _ owed _ h :=
    (owed.tallies h).close.of_log rfl fun _ agrees =>
      agrees.unheld (fun _ => .of_all rfl) fun alive => alive
  done _ h := h.of_log rfl fun _ agrees =>
    agrees.unheld (fun _ => .of_all rfl) fun alive => alive

/-- The transactions of a client that can be reached are what the handshakes ask for. -/
theorem Reachable.tallies (reachable : Reachable s) : Tallies none s := by
  apply reachable.keep Tallies.keeps
  intro config outside x beside
  refine Agrees.moves (fun id => ⟨none, ?_⟩) beside.of_nil
  exact ⟨.unused rfl rfl, fun _ none => (by cases none), fun _ _ none => (by cases none)⟩

/-! ## What the broker forwards -/

variable {x : Exchange}

/-- What an answer says of the handshakes: with an identifier, that it was put to use with
a message; with an error, nothing. -/
def Engages (m : UInt16 → Packet.Publish) (s s' : System σ) : Except Error (Option UInt16) → Prop
  | .error _ => ∀ y, Exchange.Beside s'.log y → Exchange.Beside s.log y
  | .ok answer => ∃ id, answer = some id ∧ ∀ y, Exchange.Beside s'.log y →
      ∃ x, Exchange.Beside s.log x ∧ Relation.ReflTransGen Exchange.Moved
        ((x.alter id (·.engage (m id))).carry ⟨id, .message (m id)⟩) y

theorem Act.Submitted.engages {r : Act.Request} {result : Except Error UInt16}
    (submitted : Act.Submitted s r result s') {qos : Qos} {retain : Bool} {topic : String}
    {payload : Bytes} (higher : qos ≠ .atMostOnce)
    (writes : ∀ id, r.packet id =
      Packet.Publish.put ⟨false, qos, retain, topic, some id, payload⟩) :
    Engages (fun id => ⟨false, qos, retain, topic, some id, payload⟩) s s' (result.map some) := by
  cases submitted with
  | exhausted | unwritten => exact fun _ beside => beside
  | @requested outside id packet began free written sent =>
    rw [writes] at written
    obtain ⟨q, whole, -, carries⟩ := Inbound.parcel?_of_put written
    refine ⟨id, rfl, fun y beside => ?_⟩
    rcases beside.of_afterSend whole with ⟨⟨e, failed⟩, -⟩ | ⟨-, x, z, before, passes, later⟩
    · rw [System.sendResult_change (s.shift outside) packet rfl rfl, sent] at failed
      cases failed
    · rw [Exchange.pass_of_some (carries id higher rfl)] at passes
      rcases Exchange.post_cases passes with ⟨-, again⟩ | ⟨m, what, -, -, rfl⟩
      · cases again _ rfl
      · cases what
        exact ⟨x, before, later⟩
  | @refused outside id packet e free written failed =>
    rw [writes] at written
    obtain ⟨q, whole, -⟩ := Inbound.parcel?_of_put written
    intro y beside
    rcases beside.of_afterSend whole with ⟨-, before⟩ | ⟨sent, -⟩
    · exact before
    · rw [System.sendResult_change (s.shift outside) packet rfl rfl, failed] at sent
      cases sent

/-- A publish call that is answered with an identifier puts it to use with its message,
and one that fails puts none to use. -/
theorem publish_engages (topic : String) (payload : Bytes) {qos : Qos} (retain : Bool)
    (level : qos ≠ .atMostOnce) :
    Act.Ends (Act.publish topic payload qos retain).run s fun answer s' =>
      Engages (fun id => ⟨false, qos, retain, topic, some id, payload⟩) s s' answer := by
  have refused (e : Error) : Engages (fun id => ⟨false, qos, retain, topic, some id, payload⟩)
      s s (.error e) := fun _ beside => beside
  unfold Act.publish
  refine Act.after_checkName ?_ fun e _ => refused e
  refine Act.after_ensureConnected (fun _ _ => ?_) fun e _ => refused e
  cases qos with
  | atMostOnce => exact absurd rfl level
  | atLeastOnce =>
    rw [Act.try_bind]
    apply (Act.submit_submitted rfl).imp
    intro result s' submitted
    have engages := submitted.engages level fun _ => rfl
    cases result <;> exact engages
  | exactlyOnce =>
    rw [Act.try_bind]
    apply (Act.submit_submitted rfl).imp
    intro result s' submitted
    have engages := submitted.engages level fun _ => rfl
    cases result <;> exact engages

/-- **Messages sent.**  However calls, scans and connections alternate with what the
broker and the channels do: while the application gives up nothing and no identifier is
put to another use with something of an earlier one under way, the broker forwards of
each use of an identifier only the message that it was begun with, at the highest
guarantee at most once, and if Published was raised for it exactly once, or at least once
at the guarantee below. -/
theorem forwarded_once (reachable : Reachable s) (beside : Exchange.Beside s.log x) (id : UInt16)
    {u : Use} (used : u ∈ (x.desk id).uses) :
    (∀ m ∈ u.forwarded, m.again = u.message.again) ∧
      (u.message.qos = .exactlyOnce →
        u.forwarded.length ≤ 1 ∧ (u.published = true → u.forwarded.length = 1)) ∧
      (u.message.qos = .atLeastOnce → u.published = true → 1 ≤ u.forwarded.length) := by
  obtain ⟨awaits, accords⟩ := reachable.tallies x beside id
  have delivered : u.Delivered := accords.stands.delivered u used
  exact ⟨delivered.faithful, delivered.once, delivered.reached⟩

end

/-- A client that published a message at the highest guarantee and read its answers. -/
def published : System Script :=
  inSession.takes
    [.call (.publish "a/b" [7] .exactlyOnce false), .heard (.ok [0x50, 2]) 0,
      .heard (.ok [0, 1]) 0, .turn, .heard (.ok [0x70, 2]) 0, .heard (.ok [0, 1]) 0]

/-- The message that it published. -/
def sentMessage : Packet.Publish :=
  ⟨false, .exactlyOnce, false, "a/b", some 1, [7]⟩

theorem forwarded_once_published :
    ∃ x, Exchange.Beside published.log x ∧
      (x.desk 1).uses = [⟨sentMessage, [sentMessage], true⟩] ∧
      (∀ m ∈ [sentMessage], m.again = sentMessage.again) ∧ [sentMessage].length = 1 := by
  have reachable : Reachable published := inSession_reachable.takes _
  have played : (Exchange.prompt published.log).map (fun x => (x.desk 1).uses) =
      some [⟨sentMessage, [sentMessage], true⟩] := by decide +kernel
  obtain ⟨x, answered, uses⟩ := Option.map_eq_some_iff.1 played
  have beside : Exchange.Beside published.log x := Exchange.beside_of_prompt answered
  have used : ⟨sentMessage, [sentMessage], true⟩ ∈ (x.desk 1).uses := by
    rw [uses]
    exact List.mem_cons_self
  have promised := forwarded_once reachable beside 1 used
  exact ⟨x, beside, uses, promised.1, (promised.2.1 rfl).2 rfl⟩

end Mqtt
