import Mqtt.Proofs.Exchange
import Mqtt.Proofs.Moments

/-!
# What becomes of a message sent

The log alone says which messages were sent for the first time under an identifier and
what was said of it since (`accounts`): answers of the broker, that the message was
published, that the application discarded it.  `Account.Stands` relates such an account
to the transactions: one of them waits as long as nothing became of the message, and
then none does, so a message is published once or discarded once (`publish_accounted`).
-/

namespace Mqtt

/-- What a log says of a message. -/
inductive Mark where
  | answered (kind : AckKind)
  | published (topic : String) (qos : Qos)
  | discarded (kind : AckKind) (topic : String)
  deriving DecidableEq

/-- Whether a mark says what became of a message. -/
def Mark.isOutcome : Mark → Bool
  | answered _ => false
  | published .. | discarded .. => true

/-- A message that was sent for the first time under an identifier, and what the log says
of the identifier since, the latest first. -/
structure Account where
  message : Packet.Publish
  story : List Mark := []
  deriving DecidableEq

/-- The message that a packet carries under an identifier without the mark of being sent
before. -/
def Inbound.opens? (p : Inbound) (id : UInt16) : Option Packet.Publish :=
  p.publish?.filter fun m => !m.dup && m.packetId == some id

namespace Entry

/-- The message that goes out with an entry for the first time under an identifier, the
entry being the offer that completes the packet. -/
def opens? (id : UInt16) : Entry → Option Packet.Publish
  | .sent a => if a.completes then (Packet.parse? a.whole).bind (·.opens? id) else none
  | _ => none

/-- What an entry after others says of a message sent under an identifier. -/
def mark? (id : UInt16) (earlier : List Entry) : Entry → Option Mark
  | .received p =>
    if isFresh earlier then none
    else (p.receipt?.filter (·.id == id)).map fun r => .answered r.kind
  | .raised (.published topic qos i) _ _ => if i = id then some (.published topic qos) else none
  | .raised (.discarded kind i topic) _ _ =>
    if i = id ∧ kind ∈ AckKind.ofSender then some (.discarded kind topic) else none
  | _ => none

end Entry

/-- The accounts of an identifier, the latest first. -/
def accounts (id : UInt16) : List Entry → List Account
  | [] => []
  | e :: earlier =>
    match e.opens? id with
    | some message => { message } :: accounts id earlier
    | none => (accounts id earlier).modifyHead fun a =>
        { a with story := (e.mark? id earlier).toList ++ a.story }

/-- The transactions of the messages sent under an identifier. -/
def Pending.handlers (p : Pending) (id : UInt16) : List Transaction :=
  p.all.filter fun t => t.packetId == id && AckKind.ofSender.contains t.awaits

/-- The marks of a handshake up to an answer, the latest first. -/
def AckKind.answers : AckKind → List Mark
  | .pubComp => [.answered .pubComp, .answered .pubRec]
  | kind => [.answered kind]

/-- The answers that the messages of a guarantee wait for, the first one first. -/
def Qos.awaited : Qos → List AckKind
  | .atMostOnce => []
  | .atLeastOnce => [.pubAck]
  | .exactlyOnce => [.pubRec, .pubComp]

theorem Qos.mem_ofSender_of_awaited {qos : Qos} {kind : AckKind} (awaited : kind ∈ qos.awaited) :
    kind ∈ AckKind.ofSender := by
  cases qos <;> cases kind <;> simp_all [Qos.awaited, AckKind.ofSender]

namespace Account

/-- What is said to have become of a message. -/
def outcomes (a : Account) : List Mark :=
  a.story.filter Mark.isOutcome

/-- Whether a transaction is the one of a message: it waits for an answer of the message's
guarantee, for PUBCOMP only after PUBREC. -/
structure Served (a : Account) (t : Transaction) : Prop where
  topic : t.subject.topic = a.message.topic
  qos : t.subject.qos = a.message.qos
  awaits : t.awaits ∈ a.message.qos.awaited
  advanced : t.awaits = .pubComp → .answered .pubRec ∈ a.story

/-- What can have become of a message, with the transactions that there are of it: it is
waited for, or was published after the answers of its handshake, or was discarded. -/
inductive Stands (a : Account) : List Transaction → Prop
  | pending {t : Transaction} : a.Served t → a.outcomes = [] → Stands a [t]
  | published {last : AckKind} : a.outcomes = [.published a.message.topic a.message.qos] →
    a.message.qos.awaited.getLast? = some last →
    (.published a.message.topic a.message.qos :: last.answers).Sublist a.story → Stands a []
  | discarded {kind : AckKind} : a.outcomes = [.discarded kind a.message.topic] →
    kind ∈ a.message.qos.awaited → Stands a []

end Account

/-- Whether the transactions under an identifier are those of the accounts: one of the
latest at most, for all others are closed. -/
def Accounted (id : UInt16) (c : Client) (log : List Entry) : Prop :=
  match accounts id log with
  | [] => c.pending.handlers id = []
  | latest :: older => latest.Stands (c.pending.handlers id) ∧ ∀ a ∈ older, a.Stands []

/-! ## Logs and accounts -/

section Logs

variable {id : UInt16} {e : Entry} {log new : List Entry}

theorem accounts_of_opens {m : Packet.Publish} (opens : e.opens? id = some m) :
    accounts id (e :: log) = { message := m } :: accounts id log := by
  rw [accounts, opens]

theorem accounts_of_mark {k : Mark} (unopened : e.opens? id = none)
    (mark : e.mark? id log = some k) :
    accounts id (e :: log) =
      (accounts id log).modifyHead fun a => { a with story := k :: a.story } := by
  rw [accounts, unopened, mark]
  rfl

theorem accounts_of_idle (unopened : e.opens? id = none) (unmarked : e.mark? id log = none) :
    accounts id (e :: log) = accounts id log := by
  rw [accounts, unopened, unmarked]
  cases accounts id log <;> rfl

/-- An answer that a session brings stands in the account of its identifier. -/
theorem accounts_of_received (id : UInt16) (p : Inbound) (stale : Entry.isFresh log = false) :
    accounts id (.received p :: log) =
      match p.receipt?.filter (·.id == id) with
      | none => accounts id log
      | some r => (accounts id log).modifyHead fun a =>
          { a with story := .answered r.kind :: a.story } := by
  have mark : Entry.mark? id log (.received p) =
      (p.receipt?.filter (·.id == id)).map fun r => .answered r.kind :=
    if_neg (by rw [stale]; exact Bool.false_ne_true)
  cases read : p.receipt?.filter (·.id == id) with
  | none => exact accounts_of_idle rfl (by rw [mark, read]; rfl)
  | some r => exact accounts_of_mark rfl (by rw [mark, read]; rfl)

/-- Whether an entry is of no concern to messages sent. -/
def Entry.Idle (e : Entry) : Prop :=
  ∀ id, e.opens? id = none ∧ ∀ earlier, e.mark? id earlier = none

theorem accounts_append (idle : ∀ e ∈ new, e.Idle) :
    accounts id (new ++ log) = accounts id log := by
  induction new with
  | nil => rfl
  | cons e new ih =>
    obtain ⟨unopened, unmarked⟩ := idle e List.mem_cons_self id
    rw [List.cons_append, accounts_of_idle unopened (unmarked _),
      ih fun e member => idle e (List.mem_cons_of_mem _ member)]

theorem Entry.idle_of_partial {a : Transport.Attempt} (partly : a.completes = false) :
    Entry.Idle (.sent a) := by
  intro id
  refine ⟨?_, fun _ => rfl⟩
  rw [opens?, partly]
  rfl

theorem Entry.IsRemark.idle (remark : e.IsRemark) : e.Idle := by
  cases e <;> first | exact fun _ => ⟨rfl, fun _ => rfl⟩ | exact absurd remark fun h => h

theorem Event.IsPlain.silent {e : Event} (plain : e.IsPlain) (client : Client) (told : Bool) :
    (Entry.raised e client told).Idle := by
  cases e <;> first | exact fun _ => ⟨rfl, fun _ => rfl⟩ | exact absurd plain fun h => h

end Logs

namespace Inbound

/-- Only a PUBLISH sends a message. -/
theorem opens?_eq_none {p : Inbound} (other : p.kind ≠ .publish) (id : UInt16) :
    p.opens? id = none := by
  unfold opens? publish?
  rw [if_neg other]
  rfl

theorem opens?_of_put {m : Packet.Publish} {packet : Bytes}
    (written : Packet.encode m.put = .ok packet) :
    ∃ q, Packet.parse? packet = some q ∧
      (m.qos = .atMostOnce ∨ m.dup = true → ∀ id, q.opens? id = none) ∧
      (∀ id, m.qos ≠ .atMostOnce → m.dup = false → m.packetId = some id →
        q.opens? id = some m ∧ ∀ other, other ≠ id → q.opens? other = none) := by
  obtain ⟨sent, flags, body, carried, whole, decoded⟩ := Packet.Publish.parse?_put written
  have read : (⟨.publish, flags, body⟩ : Inbound).publish? = some { m with packetId := sent } := by
    unfold publish?
    rw [if_pos rfl, decoded]
    rfl
  refine ⟨_, whole, ?_⟩
  unfold opens?
  rw [read]
  rcases Packet.Publish.sentId_cases carried with ⟨lowest, rfl⟩ | ⟨i, higher, given, rfl, -⟩
  · exact ⟨fun _ id => by simp [Option.filter], fun id higher => absurd lowest higher⟩
  · have same : { m with packetId := some i } = m := by rw [← given]
    rw [same]
    refine ⟨fun which id => ?_, fun id _ new own => ?_⟩
    · simp [Option.filter, which.resolve_left higher]
    · refine ⟨by simp [Option.filter, new, own], fun other apart => ?_⟩
      simp [Option.filter, own, apart.symm]

end Inbound

namespace Act.Request

/-- Whether a request sends a message for the first time under an identifier. -/
structure Sends (r : Act.Request) (id : UInt16) (m : Packet.Publish) : Prop where
  packet : r.packet id = m.put
  new : m.dup = false
  given : m.packetId = some id
  subject : r.subject = (m.topic, m.qos)
  first : m.qos.awaited.head? = some r.awaits

namespace Sends

variable {r : Act.Request} {id : UInt16} {m : Packet.Publish}

theorem level (h : r.Sends id m) : m.qos ≠ .atMostOnce := by
  intro lowest
  have first := h.first
  rw [lowest] at first
  cases first

theorem isPublish (h : r.Sends id m) : r.awaits.isPublish = true := by
  have first := h.first
  generalize r.awaits = kind at first ⊢
  cases level : m.qos <;> rw [level] at first <;> cases first <;> rfl

end Sends

/-- A request is about filters, or sends a message for the first time. -/
theorem Issued.opens {r : Act.Request} (issued : r.Issued) {id : UInt16} {packet : Bytes}
    (written : Packet.encode (r.packet id) = .ok packet) :
    ∃ q, Packet.parse? packet = some q ∧
      (r.awaits.isRequest = true ∧ (∀ id, q.opens? id = none) ∨ ∃ m, r.Sends id m ∧
        q.opens? id = some m ∧ ∀ other, other ≠ id → q.opens? other = none) := by
  have message {m : Packet.Publish} (sends : r.Sends id m) :
      ∃ q, Packet.parse? packet = some q ∧
        (r.awaits.isRequest = true ∧ (∀ id, q.opens? id = none) ∨ ∃ m, r.Sends id m ∧
          q.opens? id = some m ∧ ∀ other, other ≠ id → q.opens? other = none) := by
    rw [sends.packet] at written
    obtain ⟨q, whole, -, opens⟩ := Inbound.opens?_of_put written
    exact ⟨q, whole, Or.inr ⟨m, sends, opens id sends.level sends.new sends.given⟩⟩
  cases issued with
  | subscribe =>
    obtain ⟨body, whole⟩ := Packet.Subscribe.parse?_put written
    exact ⟨_, whole, Or.inl ⟨rfl, Inbound.opens?_eq_none Packet.Kind.noConfusion⟩⟩
  | unsubscribe =>
    obtain ⟨body, whole⟩ := Packet.Unsubscribe.parse?_put written
    exact ⟨_, whole, Or.inl ⟨rfl, Inbound.opens?_eq_none Packet.Kind.noConfusion⟩⟩
  | atLeastOnce topic payload retain =>
    exact message (m := ⟨false, .atLeastOnce, retain, topic, some id, payload⟩)
      ⟨rfl, rfl, rfl, rfl, rfl⟩
  | exactlyOnce topic payload retain =>
    exact message (m := ⟨false, .exactlyOnce, retain, topic, some id, payload⟩)
      ⟨rfl, rfl, rfl, rfl, rfl⟩

/-- A request sends a message under no identifier but its own. -/
theorem Issued.opens_other {r : Act.Request} (issued : r.Issued) {id other : UInt16}
    {packet : Bytes} (written : Packet.encode (r.packet id) = .ok packet) {q : Inbound}
    (whole : Packet.parse? packet = some q) (apart : other ≠ id) : q.opens? other = none := by
  obtain ⟨q', whole', opens⟩ := issued.opens written
  obtain rfl := Option.some.inj (whole.symm.trans whole')
  exact opens.elim (·.2 other) fun ⟨_, _, _, others⟩ => others other apart

end Act.Request

section Sent

variable {σ : Type} [Environment σ] {s : System σ} {bs : Bytes} {q : Inbound} {id : UInt16}

/-- A packet that is no message sent for the first time opens no account. -/
theorem accounts_afterSend (whole : Packet.parse? bs = some q) (again : q.opens? id = none) :
    accounts id (s.afterSend bs).log = accounts id s.log := by
  obtain ⟨new, partly, ⟨-, log⟩ | ⟨-, last, own, full, log⟩⟩ :=
    s.afterSend_cases (Packet.ne_nil_of_parse? whole)
  all_goals
    have idle : ∀ e ∈ new, e.Idle := fun e member => by
      obtain ⟨a, rfl, short⟩ := partly e member
      exact Entry.idle_of_partial short
  · rw [log, accounts_append idle]
  · have unopened : Entry.opens? id (.sent last) = none := by
      rw [Entry.opens?, if_pos full, own, whole]
      exact again
    rw [log, accounts_of_idle unopened rfl, accounts_append idle]

/-- A message that was sent for the first time opens an account, if sending it ended
well. -/
theorem accounts_afterSend_of_opens {m : Packet.Publish} (whole : Packet.parse? bs = some q)
    (opens : q.opens? id = some m) :
    accounts id (s.afterSend bs).log =
      match s.sendResult bs with
      | .ok () => { message := m } :: accounts id s.log
      | .error _ => accounts id s.log := by
  obtain ⟨new, partly, ⟨⟨e, failed⟩, log⟩ | ⟨sent, last, own, full, log⟩⟩ :=
    s.afterSend_cases (Packet.ne_nil_of_parse? whole)
  all_goals
    have idle : ∀ e ∈ new, e.Idle := fun e member => by
      obtain ⟨a, rfl, short⟩ := partly e member
      exact Entry.idle_of_partial short
  · rw [log, accounts_append idle, failed]
  · have opened : Entry.opens? id (.sent last) = some m := by
      rw [Entry.opens?, if_pos full, own, whole]
      exact opens
    rw [log, accounts_of_opens opened, accounts_append idle, sent]

end Sent

/-! ## Transactions under an identifier -/

namespace Transaction

/-- Whether a transaction is of a message sent under an identifier. -/
def Handles (t : Transaction) (id : UInt16) : Prop :=
  t.packetId = id ∧ t.awaits ∈ AckKind.ofSender

/-- What a transaction waits for, and what it is about. -/
def role (t : Transaction) : AckKind × Subject :=
  (t.awaits, t.subject)

end Transaction

namespace Pending

variable {p q : Pending} {t : Transaction} {id : UInt16}

theorem mem_handlers : t ∈ p.handlers id ↔ t ∈ p.all ∧ t.Handles id := by
  simp [handlers, Transaction.Handles]

/-- Whether the same messages are waited for under an identifier, for the same answers. -/
def Matches (id : UInt16) (p q : Pending) : Prop :=
  ((q.handlers id).map Transaction.role).Perm ((p.handlers id).map Transaction.role)

theorem matches_of_all (same : q.all.Perm p.all) : Matches id p q :=
  (same.filter _).map _

/-- A transaction of an identifier more is one more that handles it. -/
theorem handlers_of_cons (more : p.all.Perm (t :: q.all)) (handles : t.Handles id) :
    (p.handlers id).Perm (t :: q.handlers id) := by
  have kept : (t.packetId == id && AckKind.ofSender.contains t.awaits) = true := by
    simpa [Transaction.Handles] using handles
  exact filter_all_cons more kept

theorem handlers_of_cons_other (more : p.all.Perm (t :: q.all)) (other : ¬ t.Handles id) :
    (p.handlers id).Perm (q.handlers id) := by
  have dropped : ¬ (t.packetId == id && AckKind.ofSender.contains t.awaits) = true := by
    simpa [Transaction.Handles] using other
  exact filter_all_cons_other more dropped

theorem matches_take {kind : AckKind} {other : UInt16}
    (apart : ¬ (other = id ∧ kind ∈ AckKind.ofSender)) : Matches id p (p.take kind other).2 := by
  cases taken : (p.take kind other).1 with
  | none =>
    rw [take_of_none taken]
    exact .refl _
  | some t =>
    obtain ⟨-, rfl, rfl⟩ := of_take_eq_some taken
    exact ((handlers_of_cons_other (take_perm taken) apart).map _).symm

theorem matches_insert (absent : p.contains t.awaits t.packetId = false) (other : ¬ t.Handles id) :
    Matches id p (p.insert t).2 :=
  (handlers_of_cons_other (insert_perm absent) other).map _

theorem matches_stage (other : ¬ t.Handles id) : Matches id p (p.stage t) :=
  (handlers_of_cons_other (p.stage_perm t) other).map _

/-- A look changes neither what a message waits for nor what it is about. -/
theorem matches_scan (p : Pending) (now limit : UInt32) (force : Bool) :
    Matches id p (p.scan now limit force).2 := by
  have looked (ts : List Transaction) :
      ((ts.filterMap fun t => (t.look now limit force).1).filter fun t =>
        t.packetId == id && AckKind.ofSender.contains t.awaits).map Transaction.role =
      (ts.filter fun t => t.packetId == id && AckKind.ofSender.contains t.awaits).map
        Transaction.role := by
    induction ts with
    | nil => rfl
    | cons t ts ih =>
      rw [List.filterMap_cons]
      cases look : (t.look now limit force).1 with
      | none =>
        have request : t.awaits.isRequest = true := by
          refine Decidable.byContradiction fun lasting => ?_
          obtain ⟨u, looked⟩ := @Transaction.look_isSome now limit force t
            (Bool.eq_false_iff.2 lasting)
          cases look.symm.trans looked
        have unkept := AckKind.notMem_ofSender request
        dsimp only
        rw [ih, List.filter_cons_of_neg (by simp [unkept])]
      | some u =>
        obtain ⟨kind, own, subject, -⟩ := Transaction.of_look_eq_some look
        dsimp only
        rw [List.filter_cons, List.filter_cons, kind, own]
        split
        · rw [List.map_cons, List.map_cons, ih, Transaction.role, kind, subject]
          rfl
        · exact ih
  unfold Matches handlers all
  rw [scan_staged, scan_eq_looks, List.filter_append, List.filter_append, List.map_append,
    List.map_append, looked]

/-- Nothing handles a free identifier. -/
theorem handlers_of_free (free : p.idInUse id = false) : p.handlers id = [] := by
  rw [List.eq_nil_iff_forall_not_mem]
  intro t member
  obtain ⟨among, own, ofSender⟩ := mem_handlers.1 member
  exact not_isLocal_of_free free among own (AckKind.of_ofSender _ ofSender).1

end Pending

/-! ## What a step does to the account of an identifier -/

namespace Account.Stands

variable {a : Account} {ts ts' : List Transaction} {t : Transaction}

theorem of_perm (stands : a.Stands ts)
    (same : (ts'.map Transaction.role).Perm (ts.map Transaction.role)) : a.Stands ts' := by
  cases stands with
  | @pending t served open_ =>
    obtain ⟨u, rfl, role⟩ : ∃ u, ts' = [u] ∧ u.role = t.role := by
      have single := List.perm_singleton.1 same
      obtain ⟨u, rfl, role⟩ := List.map_eq_singleton_iff.1 single
      exact ⟨u, rfl, role⟩
    obtain ⟨kind, subject⟩ := Prod.mk.inj role
    refine .pending ⟨?_, ?_, ?_, ?_⟩ open_
    · rw [subject]
      exact served.topic
    · rw [subject]
      exact served.qos
    · rw [kind]
      exact served.awaits
    · rw [kind]
      exact served.advanced
  | published outcome last answered =>
    obtain rfl : ts' = [] := List.map_eq_nil_iff.1 (List.perm_nil.1 same)
    exact .published outcome last answered
  | discarded outcome kind =>
    obtain rfl : ts' = [] := List.map_eq_nil_iff.1 (List.perm_nil.1 same)
    exact .discarded outcome kind

/-- An answer that came is no outcome. -/
theorem hears (stands : a.Stands ts) (kind : AckKind) :
    Stands { a with story := .answered kind :: a.story } ts := by
  cases stands with
  | pending served open_ =>
    exact .pending ⟨served.topic, served.qos, served.awaits, fun last =>
      List.mem_cons_of_mem _ (served.advanced last)⟩ open_
  | published outcome last answered => exact .published outcome last (answered.cons _)
  | discarded outcome kind => exact .discarded outcome kind

/-- Of a message that waits for an answer, all answers that lead there were heard once this
one is. -/
theorem answers_sublist {kind : AckKind} (stands : a.Stands ts) (member : t ∈ ts)
    (awaits : t.awaits = kind) : kind.answers.Sublist (.answered kind :: a.story) := by
  cases stands with
  | pending served open_ =>
    cases List.mem_singleton.1 member
    subst awaits
    by_cases last : t.awaits = .pubComp
    · have advanced := served.advanced last
      rw [last]
      exact (List.singleton_sublist.2 advanced).cons_cons _
    · have single : t.awaits.answers = [.answered t.awaits] := by
        cases kind : t.awaits <;> first | rfl | exact absurd kind last
      rw [single]
      exact (List.nil_sublist _).cons_cons _
  | published | discarded => cases member

/-- What becomes of a message comes when its transaction goes. -/
theorem open_of_perm (stands : a.Stands ts) (taken : ts.Perm (t :: ts')) :
    ts' = [] ∧ a.Served t ∧ a.outcomes = [] := by
  cases stands with
  | pending served open_ =>
    obtain ⟨rfl, rfl⟩ := List.cons.inj (List.singleton_perm.1 taken).symm
    exact ⟨rfl, served, open_⟩
  | published | discarded => cases List.nil_perm.1 taken

theorem discards (stands : a.Stands ts) (taken : ts.Perm (t :: ts')) :
    Stands { a with story := .discarded t.awaits t.subject.topic :: a.story } ts' := by
  obtain ⟨rfl, served, open_⟩ := stands.open_of_perm taken
  rw [served.topic]
  exact .discarded (congrArg _ open_) served.awaits

theorem publishes (stands : a.Stands ts) (taken : ts.Perm (t :: ts'))
    (last : t.awaits = .pubAck ∨ t.awaits = .pubComp)
    (answered : t.awaits.answers.Sublist a.story) :
    Stands { a with story := .published t.subject.topic t.subject.qos :: a.story } ts' := by
  obtain ⟨rfl, served, open_⟩ := stands.open_of_perm taken
  have final : a.message.qos.awaited.getLast? = some t.awaits := by
    have awaits := served.awaits
    cases level : a.message.qos <;> rw [level] at awaits <;>
      rcases last with last | last <;> rw [last] at awaits ⊢ <;>
      first | rfl | simp [Qos.awaited] at awaits
  rw [served.topic, served.qos]
  exact .published (congrArg _ open_) final (answered.cons_cons _)

theorem advances {t' : Transaction} {rest : List Transaction} (stands : a.Stands ts)
    (taken : ts.Perm (t :: rest)) (put : ts'.Perm (t' :: rest)) (first : t.awaits = .pubRec)
    (last : t'.awaits = .pubComp) (subject : t'.subject = t.subject)
    (answered : .answered .pubRec ∈ a.story) : a.Stands ts' := by
  obtain ⟨rfl, served, open_⟩ := stands.open_of_perm taken
  obtain rfl := List.perm_singleton.1 put
  refine .pending ⟨subject ▸ served.topic, subject ▸ served.qos, ?_, fun _ => answered⟩ open_
  have awaits := served.awaits
  rw [first] at awaits
  rw [last]
  cases level : a.message.qos <;> rw [level] at awaits <;> simp [Qos.awaited] at awaits ⊢

end Account.Stands

variable {σ : Type} {s s' : System σ} {id : UInt16} {hand : Option Inbound}

/-- What a step can do to the messages of an identifier. -/
inductive Follows (id : UInt16) (s s' : System σ) : Prop
  | kept : accounts id s'.log = accounts id s.log →
    s.client.pending.Matches id s'.client.pending → Follows id s s'
  | opened {m : Packet.Publish} {t : Transaction} :
    accounts id s'.log = { message := m } :: accounts id s.log →
    s.client.phase = .connected → s.client.pending.idInUse id = false →
    (s'.client.pending.handlers id).Perm [t] →
    Account.Served { message := m } t → Follows id s s'
  | discarded {t : Transaction} :
    accounts id s'.log = (accounts id s.log).modifyHead (fun a =>
      { a with story := .discarded t.awaits t.subject.topic :: a.story }) →
    (s.client.pending.handlers id).Perm (t :: s'.client.pending.handlers id) → Follows id s s'
  | published {t : Transaction} :
    accounts id s'.log = (accounts id s.log).modifyHead (fun a =>
      { a with story := .published t.subject.topic t.subject.qos :: a.story }) →
    (s.client.pending.handlers id).Perm (t :: s'.client.pending.handlers id) →
    t.awaits = .pubAck ∨ t.awaits = .pubComp →
    (∀ a ∈ (accounts id s.log).head?, t.awaits.answers.Sublist a.story) → Follows id s s'
  | advanced {t t' : Transaction} {rest : List Transaction} :
    accounts id s'.log = accounts id s.log → (s.client.pending.handlers id).Perm (t :: rest) →
    (s'.client.pending.handlers id).Perm (t' :: rest) → t.awaits = .pubRec →
    t'.awaits = .pubComp → t'.subject = t.subject →
    (∀ a ∈ (accounts id s.log).head?, .answered .pubRec ∈ a.story) → Follows id s s'

/-- A step that takes a transaction out or puts one in has an account to do it with. -/
theorem Accounted.follow (h : Accounted id s.client s.log) (follows : Follows id s s') :
    Accounted id s'.client s'.log := by
  unfold Accounted at h ⊢
  cases follows with
  | kept same alike =>
    rw [same]
    cases log : accounts id s.log with
    | nil =>
      rw [log] at h
      unfold Pending.Matches at alike
      rw [h] at alike
      exact List.map_eq_nil_iff.1 (List.perm_nil.1 alike)
    | cons latest older =>
      rw [log] at h
      exact ⟨h.1.of_perm alike, h.2⟩
  | @opened m t opened _ free put served =>
    rw [opened]
    refine ⟨?_, ?_⟩
    · rw [List.perm_singleton.1 put]
      exact .pending served rfl
    · have none := Pending.handlers_of_free free
      cases log : accounts id s.log with
      | nil => exact fun _ member => by cases member
      | cons latest older =>
        rw [log, none] at h
        exact List.forall_mem_cons.2 h
  | discarded marked taken =>
    rw [marked]
    cases log : accounts id s.log with
    | nil =>
      rw [log] at h
      rw [h] at taken
      cases List.nil_perm.1 taken
    | cons latest older =>
      rw [log] at h
      exact ⟨h.1.discards taken, h.2⟩
  | published marked taken last answered =>
    rw [marked]
    cases log : accounts id s.log with
    | nil =>
      rw [log] at h
      rw [h] at taken
      cases List.nil_perm.1 taken
    | cons latest older =>
      rw [log] at h answered
      exact ⟨h.1.publishes taken last (answered latest rfl), h.2⟩
  | advanced same taken put first last subject answered =>
    rw [same]
    cases log : accounts id s.log with
    | nil =>
      rw [log] at h
      rw [h] at taken
      cases List.nil_perm.1 taken
    | cons latest older =>
      rw [log] at h answered
      exact ⟨h.1.advances taken put first last subject (answered latest rfl), h.2⟩

/-- Whether the answer in the hand of the thread stands in the account of each message that
waits for it. -/
def Heard (hand : Option Inbound) (s : System σ) : Prop :=
  ∀ r, hand.bind Inbound.receipt? = some r → s.client.pending.contains r.kind r.id = true →
    ∀ a ∈ (accounts r.id s.log).head?, r.kind.answers.Sublist a.story

/-- What a step does to an account takes nothing out of its story. -/
theorem Heard.follow (h : Heard hand s) (follows : ∀ id, Follows id s s')
    (fewer : ∀ r, hand.bind Inbound.receipt? = some r →
      s'.client.pending.contains r.kind r.id = true →
      s.client.pending.contains r.kind r.id = true) : Heard hand s' := by
  intro r read present a member
  have before := fewer r read present
  have heard := h r read before
  cases follows r.id with
  | kept same | advanced same =>
    rw [same] at member
    exact heard a member
  | opened _ _ free =>
    obtain ⟨t, active, own, kind⟩ := Pending.contains_iff.1 before
    have ofSender : t.awaits ∈ AckKind.ofSender := by
      obtain ⟨p, -, receipt⟩ := Option.bind_eq_some_iff.1 read
      exact kind ▸ Inbound.kind_of_receipt? receipt
    have handled := Pending.mem_handlers.2 ⟨Pending.mem_all.2 (Or.inl active), own, ofSender⟩
    rw [Pending.handlers_of_free free] at handled
    cases handled
  | discarded marked | published marked =>
    rw [marked] at member
    cases log : accounts r.id s.log with
    | nil =>
      rw [log] at member
      cases member
    | cons latest older =>
      rw [log] at member heard
      cases member
      exact (heard latest rfl).cons _

/-- What always holds of the messages sent. -/
structure Balanced (hand : Option Inbound) (s : System σ) : Prop where
  early : s.client.phase = .init → ∀ id, accounts id s.log = []
  accounted : s.client.place ≠ .exited → ∀ id, Accounted id s.client s.log
  heard : Heard hand s

theorem Balanced.follow (h : Balanced hand s)
    (phase : s'.client.phase = .init → s.client.phase = .init)
    (place : s'.client.place ≠ .exited → s.client.place ≠ .exited)
    (follows : ∀ id, Follows id s s')
    (fewer : ∀ r, hand.bind Inbound.receipt? = some r →
      s'.client.pending.contains r.kind r.id = true →
      s.client.pending.contains r.kind r.id = true) : Balanced hand s' := by
  refine ⟨fun init id => ?_, fun here id => (h.accounted (place here) id).follow (follows id),
    h.heard.follow follows fewer⟩
  have early := phase init
  have none := h.early early id
  cases follows id with
  | kept same | advanced same => rw [same, none]
  | opened _ connected => cases early.symm.trans connected
  | discarded marked | published marked => rw [marked, none]; rfl

/-- What holds with a packet in the hand holds once it was put down. -/
theorem Balanced.laidDown (h : Balanced hand s) : Balanced none s :=
  ⟨h.early, h.accounted, fun _ none => by cases none⟩

/-! ## Moves -/

namespace Follows

theorem of_log (log : s'.log = s.log) (same : s.client.pending.Matches id s'.client.pending) :
    Follows id s s' :=
  .kept (by rw [log]) same

theorem of_entry {e : Entry} (log : s'.log = e :: s.log) (idle : e.Idle)
    (same : s.client.pending.Matches id s'.client.pending) : Follows id s s' := by
  refine .kept ?_ same
  rw [log, accounts_of_idle (idle id).1 ((idle id).2 _)]

end Follows

theorem accounts_close (s : System σ) (id : UInt16) :
    accounts id s.close.log = accounts id s.log := by
  rw [System.close_log]
  split
  · exact accounts_of_idle rfl rfl
  · rfl

variable [Environment σ]

/-- Requests are for the account of their identifier, if they send a message. -/
theorem follows_requested {r : Act.Request} {own : UInt16} {packet : Bytes} (began : UInt32)
    (issued : r.Issued) (connected : s.client.phase = .connected)
    (free : s.client.isFree own = true) (written : Packet.encode (r.packet own) = .ok packet)
    (sent : s.sendResult packet = .ok ()) (id : UInt16) :
    Follows id s ((s.change fun c => (c.passOver own).register began r.awaits own packet
      r.subject r.listed).afterSend packet) := by
  let f (c : Client) := (c.passOver own).register began r.awaits own packet r.subject r.listed
  have result : (s.change f).sendResult packet = .ok () :=
    (s.sendResult_change packet rfl rfl).trans sent
  have unused := (Client.isFree_iff.1 free).1
  let t : Transaction :=
    { awaits := r.awaits, packetId := own, timer := ⟨began, s.client.config.ackTimeout⟩,
      packet := .request packet, subject := .asked r.subject.1 r.subject.2 own }
  have staged : ((s.change f).afterSend packet).client.pending = s.client.pending.stage t := by
    simp [f, Client.register, Client.passOver, t]
  obtain ⟨q, whole, ⟨request, unopened⟩ | ⟨m, sends, opened, others⟩⟩ := issued.opens written
  · refine .kept (accounts_afterSend (s := s.change f) whole (unopened id)) ?_
    rw [staged]
    exact Pending.matches_stage fun handles => AckKind.notMem_ofSender request handles.2
  by_cases same : own = id
  · subst same
    have log := accounts_afterSend_of_opens (s := s.change f) whole opened
    rw [result] at log
    have awaits : r.awaits ∈ m.qos.awaited := List.mem_of_head? sends.first
    refine .opened (t := t) log connected unused ?_ ⟨?_, ?_, awaits, fun last => ?_⟩
    · have handles : t.Handles own := ⟨rfl, Qos.mem_ofSender_of_awaited awaits⟩
      rw [staged, ← Pending.handlers_of_free unused]
      exact Pending.handlers_of_cons (s.client.pending.stage_perm t) handles
    · exact congrArg Prod.fst sends.subject
    · exact congrArg Prod.snd sends.subject
    · exact absurd last (AckKind.ne_pubComp sends.isPublish)
  · refine .kept (accounts_afterSend (s := s.change f) whole (others id (Ne.symm same))) ?_
    rw [staged]
    exact Pending.matches_stage fun handles => same handles.1

omit [Environment σ] in
/-- Nothing handles a message where none was sent. -/
theorem Balanced.unhandled (h : Balanced hand s) (ordered : Ordered s)
    (early : s.client.phase = .init) (id : UInt16) : s.client.pending.handlers id = [] := by
  have here : s.client.place ≠ .exited := fun exited =>
    ordered.begun (by rw [exited]; exact Place.noConfusion) early
  have accounted := h.accounted here id
  rwa [Accounted, h.early early id] at accounted

/-- What a call does to the messages of an identifier. -/
theorem CallMove.follows (move : CallMove s s') (ordered : Ordered s) (h : Balanced hand s)
    (id : UInt16) : Follows id s s' := by
  cases move with
  | remarked e remark => exact .of_entry rfl remark.idle (.refl _)
  | undone => exact .of_entry rfl (fun _ => ⟨rfl, fun _ => rfl⟩) (.refl _)
  | released destroyed early =>
    refine .kept (accounts_close s id) ?_
    rw [Pending.Matches, h.unhandled ordered early id]
    exact .refl _
  | @discarded awaits other t removed =>
    have perm := Pending.remove_perm removed
    obtain ⟨-, rfl, rfl⟩ := Pending.of_remove_eq_some removed
    by_cases handles : t.Handles id
    · refine .discarded (accounts_of_mark rfl ?_) (Pending.handlers_of_cons perm handles)
      exact if_pos handles
    · refine .kept (accounts_of_idle rfl (if_neg handles)) ?_
      exact ((Pending.handlers_of_cons_other perm handles).map _).symm
  | requested began issued _ connected free written sent =>
    exact follows_requested began issued connected free written sent id
  | @refused r own packet e issued _ _ _ written failed =>
    have result : (s.change (·.passOver own)).sendResult packet = .error e :=
      (s.sendResult_change packet rfl rfl).trans failed
    refine .kept ?_ (by simp [Client.passOver, Pending.Matches])
    obtain ⟨q, whole, -⟩ := (Requested.request issued written).parse?
    cases opens : q.opens? id with
    | none => exact accounts_afterSend whole opens
    | some m =>
      have log := accounts_afterSend_of_opens (s := s.change (·.passOver own)) whole opens
      rw [result] at log
      exact log
  | sent lowest _ _ _ written =>
    obtain ⟨q, whole, unopened, -⟩ := Inbound.opens?_of_put written
    refine .kept (accounts_afterSend whole (unopened (Or.inl lowest) id)) ?_
    simp [Pending.Matches]
  | _ => exact .of_log rfl (.refl _)

theorem CallMove.balanced (move : CallMove s s') (ordered : Ordered s) (h : Balanced hand s) :
    Balanced hand s' :=
  h.follow move.stands.1 move.stands.2 (move.follows ordered h) fun _ _ =>
    Pending.contains_of_subset move.active_subset

omit [Environment σ] in
theorem Owed.unopened {p : Inbound} {packet : Bytes} (owed : Owed p s packet) :
    ∃ q, Packet.parse? packet = some q ∧ ∀ id, q.opens? id = none := by
  cases owed <;>
    exact ⟨_, Packet.parse?_ack _ _, Inbound.opens?_eq_none Packet.Kind.noConfusion⟩

omit [Environment σ] in
theorem Resendable.unopened {awaits : AckKind} {id : UInt16} {packet : Bytes}
    (again : Resendable id awaits packet) :
    ∃ q, Packet.parse? packet = some q ∧ ∀ id, q.opens? id = none := by
  cases again with
  | pubAck written dup | pubRec written dup =>
    obtain ⟨q, whole, unopened, -⟩ := Inbound.opens?_of_put written
    exact ⟨q, whole, unopened (Or.inr dup)⟩
  | pubRel | pubComp =>
    exact ⟨_, Packet.parse?_ack _ _, Inbound.opens?_eq_none Packet.Kind.noConfusion⟩

/-- Packets that send no message for the first time may be sent. -/
theorem follows_afterSend {bs : Bytes} (plain : ∃ q, Packet.parse? bs = some q ∧
    ∀ id, q.opens? id = none) (id : UInt16) : Follows id s (s.afterSend bs) := by
  obtain ⟨q, whole, unopened⟩ := plain
  refine .kept (accounts_afterSend whole (unopened id)) ?_
  simp [Pending.Matches]

/-- Such packets may also be the last of a connection. -/
theorem follows_parting {bs : Bytes} (plain : ∃ q, Packet.parse? bs = some q ∧
    ∀ id, q.opens? id = none) (id : UInt16) : Follows id s (s.afterSend bs).close := by
  obtain ⟨q, whole, unopened⟩ := plain
  refine .kept ?_ (by simp [Pending.Matches])
  exact (accounts_close _ id).trans (accounts_afterSend whole (unopened id))

/-- What the thread does between two places to the messages of an identifier. -/
theorem TurnMove.follows (move : TurnMove hand s s') (ordered : Ordered s)
    (sane : s.client.pending.Sane) (h : Balanced hand s) (id : UInt16) : Follows id s s' := by
  cases move with
  | call move => exact move.follows ordered h id
  | told _ plain => exact .of_entry rfl (plain.silent _ _) (.refl _)
  | filed | pulsed => exact .of_log rfl (.refl _)
  | delivered _ _ which _ =>
    refine .of_entry rfl ?_ (.refl _)
    rcases which with rfl | rfl <;> exact fun _ => ⟨rfl, fun _ => rfl⟩
  | remembered _ _ _ _ _ absent =>
    exact .of_log rfl (Pending.matches_insert absent fun handles => AckKind.pubRel_notMem handles.2)
  | forgotten => exact .of_log rfl (Pending.matches_take fun own => AckKind.pubRel_notMem own.2)
  | @completed _ p awaits other t last read taken =>
    have perm := Pending.take_perm taken
    obtain ⟨active, rfl, rfl⟩ := Pending.of_take_eq_some taken
    have ofSender : t.awaits ∈ AckKind.ofSender := by
      rcases last with last | last <;> rw [last] <;> decide
    by_cases own : t.packetId = id
    · subst own
      refine .published (accounts_of_mark rfl ?_) (Pending.handlers_of_cons perm ⟨rfl, ofSender⟩)
        last ?_
      · exact if_pos rfl
      · exact h.heard ⟨t.packetId, t.awaits⟩ (Inbound.receipt?_of_ack ofSender read)
          (Pending.contains_iff.2 ⟨t, active, rfl, rfl⟩)
    · refine .kept (accounts_of_idle rfl (if_neg own)) ?_
      exact ((Pending.handlers_of_cons_other perm fun handles => own handles.1).map _).symm
  | @advanced _ p other t began read taken =>
    have perm := Pending.take_perm taken
    have absent : (s.client.pending.take .pubRec other).2.contains .pubComp other = false :=
      sane.distinct.absent_of_take taken rfl
    obtain ⟨active, rfl, first⟩ := Pending.of_take_eq_some taken
    have put := Pending.insert_perm (t := s.client.ending began t t.packetId) absent
    have ofSender : AckKind.pubRec ∈ AckKind.ofSender := by decide
    have final : AckKind.pubComp ∈ AckKind.ofSender := by decide
    by_cases own : t.packetId = id
    · subst own
      refine .advanced (t := t) rfl (Pending.handlers_of_cons perm ⟨rfl, first ▸ ofSender⟩)
        (Pending.handlers_of_cons put ⟨rfl, final⟩) first rfl rfl fun a latest => ?_
      have heard := h.heard ⟨t.packetId, .pubRec⟩ (Inbound.receipt?_of_ack ofSender read)
        (Pending.contains_iff.2 ⟨t, active, rfl, first⟩) a latest
      exact heard.subset List.mem_cons_self
    · refine .of_log rfl ?_
      have left := Pending.handlers_of_cons_other perm fun handles => own handles.1
      have kept := Pending.handlers_of_cons_other put fun handles => own handles.1
      exact (kept.trans left.symm).map _
  | answered _ request =>
    exact .of_log rfl (Pending.matches_take fun own => AckKind.notMem_ofSender request own.2)
  | replied _ owed => exact follows_afterSend owed.unopened id
  | migrated =>
    exact .of_log rfl (Pending.matches_of_all (.of_eq (Pending.migrate_all sane.distinct)))
  | scanned => exact .of_log rfl (Pending.matches_scan _ _ _ _)
  | resent _ again => exact follows_afterSend again.unopened id
  | pinged =>
    exact follows_afterSend ⟨_, Packet.parse?_pingReq,
      Inbound.opens?_eq_none Packet.Kind.noConfusion⟩ id

theorem TurnMove.balanced (move : TurnMove hand s s') (busy : s.Busy) (ordered : Ordered s)
    (sane : s.client.pending.Sane) (h : Balanced hand s) : Balanced hand s' := by
  refine h.follow (fun init => absurd init (move.busy busy).2)
    (fun _ => by rw [busy.1]; exact Place.noConfusion) (move.follows ordered sane h) ?_
  cases move with
  | call move => exact fun _ _ => Pending.contains_of_subset move.active_subset
  | @remembered _ p m id began =>
    intro r read present
    obtain ⟨q, held, receipt⟩ := Option.bind_eq_some_iff.1 read
    have apart : ¬ ((s.client.memory began m id).awaits = r.kind ∧
        (s.client.memory began m id).packetId = r.id) := fun own =>
      have kind : r.kind = .pubRel := own.1.symm
      AckKind.pubRel_notMem (kind ▸ Inbound.kind_of_receipt? receipt)
    exact (Pending.contains_insert_other apart).symm.trans present
  | @advanced _ p id t began read taken =>
    intro r held present
    obtain rfl : r = ⟨id, .pubRec⟩ :=
      Option.some.inj (held.symm.trans (Inbound.receipt?_of_ack (by decide) read))
    obtain ⟨active, own, kind⟩ := Pending.of_take_eq_some taken
    exact Pending.contains_iff.2 ⟨t, active, own, kind⟩
  | forgotten | completed | answered =>
    exact fun _ _ => Pending.contains_of_subset List.eraseP_subset
  | migrated | scanned | resent | pinged => exact fun _ none => by cases none
  | replied => exact fun _ _ present => by simpa using present
  | _ => exact fun _ _ present => present

/-- What the thread does from place to place to the messages of an identifier, until it
ends. -/
theorem ThreadMove.follows (move : ThreadMove s s') (ordered : Ordered s)
    (sane : s.client.pending.Sane) (h : Balanced none s) (here : s'.client.place ≠ .exited)
    (id : UInt16) : Follows id s s' := by
  cases move with
  | turn _ move => exact move.turn.follows ordered sane h id
  | obeyed | opened => exact .of_entry rfl (fun _ => ⟨rfl, fun _ => rfl⟩) (.refl _)
  | dialled =>
    refine .kept ?_ (by simp [Pending.Matches])
    exact (accounts_of_idle rfl rfl).trans (accounts_close s id)
  | saluted _ _ _ _ _ written =>
    obtain ⟨body, whole⟩ := Packet.Connect.parse?_put written
    refine .kept (accounts_afterSend whole ?_) (by simp [Pending.Matches])
    exact Inbound.opens?_eq_none Packet.Kind.noConfusion id
  | parted _ parting =>
    obtain ⟨q, whole, other, -⟩ := parting.parse?
    exact follows_parting ⟨q, whole, Inbound.opens?_eq_none other⟩ id
  | closed => exact .kept (accounts_close s id) (by simp [Pending.Matches])
  | readEnded =>
    exact .of_log rfl (Pending.matches_of_all (.of_eq (Pending.migrate_all sane.distinct)))
  | @greeted reader p waits =>
    have fresh := (ordered.greeting _ waits).2.2
    exact .kept (accounts_of_idle rfl (if_pos fresh))
      (Pending.matches_of_all (.of_eq (Pending.migrate_all sane.distinct)))
  | left => exact absurd rfl here
  | _ => exact .of_log rfl (.refl _)

theorem ThreadMove.balanced (move : ThreadMove s s') (ordered : Ordered s)
    (sane : s.client.pending.Sane) (h : Balanced none s) : Balanced none s' := by
  have stands := move.stands ordered
  exact ⟨fun init => absurd init stands.2,
    fun here id => (h.accounted stands.1 id).follow (move.follows ordered sane h here id),
    fun _ none => by cases none⟩

omit [Environment σ] in
/-- An answer that is read is heard by the message that waits for it. -/
theorem Balanced.accept {reader : Frame.Reader} (h : Balanced none s) (ordered : Ordered s)
    (sane : s.client.pending.Sane) (here : s.client.place = .listening reader) (p : Inbound) :
    Balanced (some p) (s.accept p) := by
  have stale := ordered.connected (ordered.listening reader here).2
  have all : (s.accept p).client.pending.all = s.client.pending.all :=
    Pending.migrate_all sane.distinct
  have handlers (id : UInt16) :
      (s.accept p).client.pending.handlers id = s.client.pending.handlers id := by
    unfold Pending.handlers
    rw [all]
  have accounted (id : UInt16) : Accounted id s.client s.log :=
    h.accounted (by rw [here]; exact Place.noConfusion) id
  have log (id : UInt16) : accounts id (s.accept p).log = _ := accounts_of_received id p stale
  refine ⟨fun init => absurd init (accept_busy ordered here p).2, fun _ id => ?_, ?_⟩
  · have before := accounted id
    unfold Accounted at before ⊢
    rw [handlers, log]
    cases p.receipt?.filter (·.id == id) with
    | none => exact before
    | some r =>
      cases accounts : accounts id s.log with
      | nil =>
        rw [accounts] at before
        exact before
      | cons latest older =>
        rw [accounts] at before
        exact ⟨before.1.hears r.kind, before.2⟩
  · intro r read present a latest
    have own : p.receipt? = some r := read
    obtain ⟨t, active, id, kind⟩ := Pending.contains_iff.1 present
    have ofSender := Inbound.kind_of_receipt? own
    have handled : t ∈ s.client.pending.handlers r.id := by
      rw [← handlers]
      exact Pending.mem_handlers.2 ⟨Pending.mem_all.2 (Or.inl active), id, kind ▸ ofSender⟩
    have before := accounted r.id
    rw [log, own, Option.filter_some, if_pos (BEq.rfl)] at latest
    unfold Accounted at before
    cases accounts : accounts r.id s.log with
    | nil =>
      rw [accounts] at before
      rw [before] at handled
      cases handled
    | cons first older =>
      rw [accounts] at before latest
      cases latest
      exact before.1.answers_sublist handled kind

theorem Balanced.keeps : Keeps (Balanced (σ := σ)) where
  call ordered _ move h := move.balanced ordered h
  thread ordered sane move h := move.balanced ordered sane h
  accept p ordered sane here h := h.accept ordered sane here p
  turn ordered sane busy move h := move.balanced busy ordered sane h
  lost _ _ busy owed _ h :=
    h.laidDown.follow (fun init => absurd (by simpa using init) busy.2)
      (fun _ => by rw [busy.1]; exact Place.noConfusion) (follows_parting owed.unopened)
      fun _ none => by cases none
  done _ h := h.laidDown

/-- At every moment before the client is gone, the transactions of each identifier are those
of its accounts. -/
theorem Reachable.accounted (reachable : Reachable s) {client : Client} {log : List Entry}
    (moment : s.Moment client log) (alive : client.place ≠ .exited) (id : UInt16) :
    Accounted id client log :=
  reachable.keepMoments
    (P := fun client log => client.place ≠ .exited → ∀ id, Accounted id client log)
    Balanced.keeps (fun _ _ balanced => balanced.accounted)
    (fun _ _ => ⟨fun _ _ => rfl, fun _ _ => rfl, fun _ none => by cases none⟩) moment alive id

/-! ## Calls -/

/-- What was written once stays, and only the story of the latest account goes on. -/
theorem accounts_later {log log' : List Entry} {a : Account} {older : List Account}
    (later : log <:+ log') (written : accounts id log = a :: older) :
    ∃ newer b, accounts id log' = newer ++ b :: older ∧ b.message = a.message := by
  obtain ⟨new, rfl⟩ := later
  induction new with
  | nil => exact ⟨[], a, written, rfl⟩
  | cons e new ih =>
    obtain ⟨newer, b, accounts_new, same⟩ := ih
    rw [List.cons_append]
    unfold accounts
    cases e.opens? id with
    | some m => exact ⟨{ message := m } :: newer, b, congrArg _ accounts_new, same⟩
    | none =>
      dsimp only
      rw [accounts_new]
      cases newer with
      | nil => exact ⟨[], _, rfl, same⟩
      | cons latest newer => exact ⟨_ :: newer, b, rfl, same⟩

theorem Act.Submitted.accounts {r : Act.Request} {result : Except Error UInt16}
    (submitted : Act.Submitted s r result s') {qos : Qos} {retain : Bool} {topic : String}
    {payload : Bytes} (higher : qos ≠ .atMostOnce)
    (writes : ∀ id, r.packet id =
      Packet.Publish.put ⟨false, qos, retain, topic, some id, payload⟩)
    (answered : result = .ok id) :
    accounts id s'.log =
      { message := ⟨false, qos, retain, topic, some id, payload⟩ } :: accounts id s.log := by
  cases submitted with
  | @requested outside own packet began free written sent =>
    cases answered
    rw [writes] at written
    obtain ⟨q, whole, -, opens⟩ := Inbound.opens?_of_put written
    refine (accounts_afterSend_of_opens whole (opens id higher rfl rfl).1).trans ?_
    rw [System.sendResult_change (s.shift outside) packet rfl rfl, sent]
    rfl
  | _ => cases answered

/-- A publish call that is answered with an identifier opens the account of its message. -/
theorem publish_opens (topic : String) (payload : Bytes) {qos : Qos} (retain : Bool)
    (level : qos ≠ .atMostOnce) :
    Act.Ends (Act.publish topic payload qos retain).run s fun answer s' =>
      ∀ id, answer = .ok (some id) → accounts id s'.log =
        { message := ⟨false, qos, retain, topic, some id, payload⟩ } :: accounts id s.log := by
  have refused (e : Error) : ∀ id, Except.error e = Except.ok (some id) → accounts id s.log =
      { message := ⟨false, qos, retain, topic, some id, payload⟩ } :: accounts id s.log :=
    fun _ answered => by cases answered
  unfold Act.publish
  refine Act.after_checkName ?_ fun e _ => refused e
  refine Act.after_ensureConnected (fun _ _ => ?_) fun e _ => refused e
  cases qos with
  | atMostOnce => exact absurd rfl level
  | atLeastOnce | exactlyOnce =>
    rw [Act.try_bind]
    apply (Act.submit_submitted rfl).imp
    intro result s' submitted
    cases result with
    | error e => exact fun _ answered => by cases answered
    | ok own =>
      intro id answered
      cases answered
      exact submitted.accounts level (fun _ => rfl) rfl

/-- **Messages accounted for.**  Of every message that a publish call was answered with an
identifier for, at every later moment before the client is gone, either one transaction
waits for an answer of its guarantee and nothing was raised of it, or none waits and
Published was raised of it once, after the answers of its handshake, or none waits and it
was discarded once. -/
theorem publish_accounted {t t' : System σ} {topic : String} {payload : Bytes} {qos : Qos}
    {retain : Bool} (level : qos ≠ .atMostOnce)
    (called : (Act.publish topic payload qos retain).run.run t = (.ok (some id), t'))
    (reachable : Reachable s) {client : Client} {log : List Entry} (moment : s.Moment client log)
    (later : t'.log <:+ log) (alive : client.place ≠ .exited) :
    ∃ newer a, accounts id log = newer ++ a :: accounts id t.log ∧
      a.message = ⟨false, qos, retain, topic, some id, payload⟩ ∧
      a.Stands (if newer = [] then client.pending.handlers id else []) := by
  have opens := publish_opens (s := t) topic payload retain level
  unfold Act.Ends at opens
  rw [called] at opens
  obtain ⟨newer, a, accounts_log, same⟩ := accounts_later later (opens id rfl)
  refine ⟨newer, a, accounts_log, same, ?_⟩
  have accounted := reachable.accounted moment alive id
  unfold Accounted at accounted
  rw [accounts_log] at accounted
  cases newer with
  | nil => exact accounted.1
  | cons latest newer =>
    rw [if_neg (List.cons_ne_nil latest newer)]
    exact accounted.2 a (List.mem_append_right _ List.mem_cons_self)

/-- A client that published a message at the highest guarantee and read the answers, the
first one twice. -/
def handshaken : System Script :=
  inSession.takes
    [.call (.publish "a/b" [7] .exactlyOnce false), .heard (.ok [0x50, 2]) 0,
      .heard (.ok [0, 1]) 0, .turn, .heard (.ok [0x50, 2]) 0, .heard (.ok [0, 1]) 0, .turn,
      .heard (.ok [0x70, 2]) 0, .heard (.ok [0, 1]) 0]

theorem publish_accounted_handshaken :
    ∃ a, accounts 1 handshaken.log = [a] ∧
      a.message = ⟨false, .exactlyOnce, false, "a/b", some 1, [7]⟩ ∧
      a.story = [.published "a/b" .exactlyOnce, .answered .pubComp, .answered .pubRec,
        .answered .pubRec] ∧
      a.Stands (handshaken.client.pending.handlers 1) := by
  have told : accounts 1 inSession.log = [] ∧ accounts 1 handshaken.log =
      [⟨⟨false, .exactlyOnce, false, "a/b", some 1, [7]⟩, [.published "a/b" .exactlyOnce,
        .answered .pubComp, .answered .pubRec, .answered .pubRec]⟩] := by decide +kernel
  have level : Qos.exactlyOnce ≠ .atMostOnce := Qos.noConfusion
  have answered : ((Act.publish "a/b" [7] .exactlyOnce false).run.run inSession).1 =
      .ok (some 1) := Act.ok_of_toOption (by decide +kernel)
  have reachable : Reachable handshaken := inSession_reachable.takes _
  obtain ⟨newer, a, log, message, stands⟩ := publish_accounted level (Prod.ext answered rfl)
    reachable .now (by decide +kernel) (by decide +kernel)
  rw [told.1, told.2] at log
  obtain rfl : newer = [] := by
    cases newer with
    | nil => rfl
    | cons first rest => simp at log
  cases log
  exact ⟨_, told.2, message, rfl, stands⟩

end Mqtt
