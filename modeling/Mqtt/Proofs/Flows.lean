import Mqtt.Proofs.Reach

/-!
# Flows of messages received

A message received at the highest guarantee is remembered by the transaction that waits
for its PUBREL.  What is remembered is said by the log alone (`Entry.flow`): a message
was handed on, and since then no PUBREL came for it and the application did not give it
up.  `Remembers` says so of a client, and compares it with the packets received.
-/

namespace Mqtt

namespace Inbound

/-- Whether a packet is a message at the highest guarantee under an identifier. -/
def opensFlow (p : Inbound) (id : UInt16) : Bool :=
  match p.publish? with
  | some m => m.qos == .exactlyOnce && m.packetId == some id
  | none => false

/-- Whether a packet ends the handshake of such a message. -/
def endsFlow (p : Inbound) (id : UInt16) : Bool :=
  p.ack? .pubRel == some id

/-- Whether packets, the latest first, opened a flow that was not ended since. -/
def flowOpen (id : UInt16) : List Inbound → Bool
  | [] => false
  | p :: earlier => p.opensFlow id || !p.endsFlow id && flowOpen id earlier

theorem opensFlow_iff {p : Inbound} {id : UInt16} :
    p.opensFlow id = true ↔
      ∃ m, p.publish? = some m ∧ m.qos = .exactlyOnce ∧ m.packetId = some id := by
  unfold opensFlow
  cases p.publish? <;> simp

theorem endsFlow_iff {p : Inbound} {id : UInt16} :
    p.endsFlow id = true ↔ p.ack? .pubRel = some id := by
  simp [endsFlow]

/-- No packet both opens and ends a flow. -/
theorem endsFlow_of_opensFlow {p : Inbound} {id : UInt16} (opens : p.opensFlow id = true)
    (other : UInt16) : p.endsFlow other = false := by
  obtain ⟨m, read, -⟩ := opensFlow_iff.1 opens
  unfold publish? at read
  split at read
  next publish => simp [endsFlow, ack?, publish]
  · cases read

end Inbound

namespace Entry

/-- The message that an entry hands on to the application. -/
def message? : Entry → Option Message
  | .raised (.data m) _ _ | .raised (.unsubscribedData m) _ _ => some m
  | _ => none

/-- Whether an entry hands on a message at the highest guarantee under an identifier. -/
def hands (id : UInt16) (e : Entry) : Bool :=
  match e.message? with
  | some m => m.qos == .exactlyOnce && m.packetId == some id
  | none => false

/-- Whether with an entry the application gives up the memory of such a message. -/
def forgets (id : UInt16) : Entry → Bool
  | .raised (.discarded .pubRel i _) _ _ => i == id
  | _ => false

/-- Whether with an entry after others the handshake of such a message ends. -/
def ends (id : UInt16) (earlier : List Entry) : Entry → Bool
  | .received p => !isFresh earlier && p.endsFlow id
  | _ => false

/-- Whether such a message was handed on, and since then its handshake did not end and it
was not given up. -/
def flow (id : UInt16) : List Entry → Bool
  | [] => false
  | e :: earlier => e.hands id || !e.forgets id && !e.ends id earlier && flow id earlier

/-- Whether a flow was open when the transport was opened, and was not given up since. -/
def leftOpen (id : UInt16) : List Entry → Bool
  | [] => false
  | .opened :: before => flow id before
  | e :: earlier => !e.forgets id && leftOpen id earlier

/-- The packets of the session that were read since the transport was opened. -/
def session : List Entry → List Inbound
  | [] | .opened :: _ => []
  | .received p :: earlier => if isFresh earlier then session earlier else p :: session earlier
  | _ :: earlier => session earlier

/-- Whether an entry says nothing of a flow. -/
structure Still (id : UInt16) (e : Entry) : Prop where
  quiet : ¬ e.IsArrival
  kept : e.hands id = false
  held : e.forgets id = false

theorem forgets_iff {id : UInt16} {e : Entry} :
    e.forgets id = true ↔
      ∃ topic client told, e = .raised (.discarded .pubRel id topic) client told := by
  constructor
  · intro forgets
    unfold Entry.forgets at forgets
    split at forgets
    · cases eq_of_beq forgets
      exact ⟨_, _, _, rfl⟩
    · cases forgets
  · intro given
    rcases given with ⟨_, _, _, rfl⟩
    exact beq_self_eq_true _

section

variable {id : UInt16} {e : Entry} {log : List Entry}

theorem ends_of_quiet (quiet : ¬ e.IsArrival) : e.ends id log = false := by
  cases e <;> first | rfl | exact absurd trivial quiet

theorem leftOpen_cons (quiet : ¬ e.IsArrival) :
    leftOpen id (e :: log) = (!e.forgets id && leftOpen id log) := by
  cases e <;> first | rfl | exact absurd trivial quiet

theorem session_cons (quiet : ¬ e.IsArrival) : session (e :: log) = session log := by
  cases e <;> first | rfl | exact absurd trivial quiet

/-- What is given up is no longer open. -/
theorem flow_of_forgets (forgets : e.forgets id = true) : flow id (e :: log) = false := by
  obtain ⟨_, _, _, rfl⟩ := forgets_iff.1 forgets
  rw [flow, forgets]
  rfl

theorem quiet_of_forgets (forgets : e.forgets id = true) : ¬ e.IsArrival := by
  obtain ⟨_, _, _, rfl⟩ := forgets_iff.1 forgets
  exact fun arrival => arrival

theorem leftOpen_of_forgets (forgets : e.forgets id = true) : leftOpen id (e :: log) = false := by
  rw [leftOpen_cons (quiet_of_forgets forgets), forgets]
  rfl

theorem gaveUp_of_forgets (forgets : e.forgets id = true) :
    GaveUp (e :: log) .pubRel id := by
  obtain ⟨_, _, _, rfl⟩ := forgets_iff.1 forgets
  exact ⟨_, _, _, List.mem_cons_self⟩

end

theorem flow_append {id : UInt16} {new : List Entry} (log : List Entry)
    (still : ∀ e ∈ new, e.Still id) : flow id (new ++ log) = flow id log := by
  induction new with
  | nil => rfl
  | cons e new ih =>
    have first := still e List.mem_cons_self
    rw [List.cons_append, flow, first.kept, first.held, ends_of_quiet first.quiet,
      ih fun e member => still e (List.mem_cons_of_mem _ member)]
    rfl

theorem leftOpen_append {id : UInt16} {new : List Entry} (log : List Entry)
    (still : ∀ e ∈ new, e.Still id) : leftOpen id (new ++ log) = leftOpen id log := by
  induction new with
  | nil => rfl
  | cons e new ih =>
    have first := still e List.mem_cons_self
    rw [List.cons_append, leftOpen_cons first.quiet, first.held,
      ih fun e member => still e (List.mem_cons_of_mem _ member)]
    rfl

theorem session_append {new : List Entry} (log : List Entry) (quiet : ∀ e ∈ new, ¬ e.IsArrival) :
    session (new ++ log) = session log := by
  induction new with
  | nil => rfl
  | cons e new ih =>
    rw [List.cons_append, session_cons (quiet e List.mem_cons_self),
      ih fun e member => quiet e (List.mem_cons_of_mem _ member)]

end Entry

/-! ## What moves do to a flow -/

variable {σ : Type}

/-- Whether nothing was done to a flow from one system to another. -/
def Undisturbed (id : UInt16) (s s' : System σ) : Prop :=
  s'.client.pending.contains .pubRel id = s.client.pending.contains .pubRel id ∧
    ∃ new, s'.log = new ++ s.log ∧ ∀ e ∈ new, e.Still id

/-- Whether a flow was given up from one system to the next. -/
def Forgotten (id : UInt16) (s s' : System σ) : Prop :=
  s.client.pending.contains .pubRel id = true ∧
    s'.client.pending.contains .pubRel id = false ∧
    ∃ e, s'.log = e :: s.log ∧ e.forgets id = true

namespace Undisturbed

variable {s s' : System σ} {id : UInt16}

theorem of_log
    (same : s'.client.pending.contains .pubRel id = s.client.pending.contains .pubRel id)
    (log : s'.log = s.log) : Undisturbed id s s' :=
  ⟨same, Writes.of_log log⟩

theorem of_entry
    (same : s'.client.pending.contains .pubRel id = s.client.pending.contains .pubRel id)
    {e : Entry} (log : s'.log = e :: s.log) (still : e.Still id) : Undisturbed id s s' :=
  ⟨same, Writes.of_entry log still⟩

theorem afterSend [Environment σ] (s : System σ) (bs : Bytes) :
    Undisturbed id s (s.afterSend bs) :=
  ⟨by simp, Writes.afterSend s fun _ _ => ⟨fun arrival => arrival, rfl, rfl⟩⟩

theorem close (s : System σ) : Undisturbed id s s.close :=
  ⟨by simp, Writes.close s ⟨fun arrival => arrival, rfl, rfl⟩⟩

theorem trans {s'' : System σ} (first : Undisturbed id s s') (later : Undisturbed id s' s'') :
    Undisturbed id s s'' :=
  ⟨later.1.trans first.1, Writes.trans first.2 later.2⟩

end Undisturbed

variable [Environment σ] {s s' : System σ} {id : UInt16}

/-- Calls leave a flow alone, or give it up. -/
theorem CallMove.flow (move : CallMove s s') (sane : s.client.pending.Sane)
    (early : s.client.phase = .init → s.client.pending.contains .pubRel id = false) :
    Undisturbed id s s' ∨ Forgotten id s s' := by
  cases move with
  | remarked e remark =>
    refine Or.inl (.of_entry rfl rfl ?_)
    cases e <;> first
      | exact ⟨fun arrival => arrival, rfl, rfl⟩
      | exact absurd remark fun impossible => impossible
  | undone => exact Or.inl (.of_entry rfl rfl ⟨fun arrival => arrival, rfl, rfl⟩)
  | released _ unstarted =>
    have closed : Undisturbed id s s.close := .close s
    rcases closed with ⟨-, new, log, still⟩
    exact Or.inl ⟨(early unstarted).symm, new, log, still⟩
  | @discarded awaits other t removed =>
    by_cases own : awaits = .pubRel ∧ other = id
    · rcases own with ⟨rfl, rfl⟩
      obtain ⟨member, waits⟩ := Pending.of_remove_eq_some removed
      have active : t ∈ s.client.pending.active := by
        apply (Pending.mem_all.1 member).resolve_right
        intro staged
        have own := sane.distinct.staged t staged
        rw [waits.2] at own
        cases own
      exact Or.inr ⟨Pending.contains_iff.2 ⟨t, active, waits⟩,
        Pending.contains_remove_self sane.distinct _ _, _, rfl,
        Entry.forgets_iff.2 ⟨_, _, _, rfl⟩⟩
    · refine Or.inl (.of_entry (Pending.contains_remove_other own) rfl
        ⟨fun arrival => arrival, rfl, Bool.eq_false_iff.2 fun forgets => own ?_⟩)
      obtain ⟨_, _, _, same⟩ := Entry.forgets_iff.1 forgets
      cases same
      exact ⟨rfl, rfl⟩
  | requested => exact Or.inl (.trans (.of_log rfl rfl) (.afterSend _ _))
  | refused => exact Or.inl (.trans (.of_log rfl rfl) (.afterSend _ _))
  | sent => exact Or.inl (.afterSend _ _)
  | _ => exact Or.inl (.of_log rfl rfl)

omit [Environment σ] in
theorem hands_of_read {p : Inbound} {m : Packet.Publish} {e : Event} (read : p.publish? = some m)
    (which : e = .data m.message ∨ e = .unsubscribedData m.message) (client : Client)
    (told : Bool) : Entry.hands id (.raised e client told) = p.opensFlow id := by
  unfold Inbound.opensFlow
  rw [read]
  rcases which with rfl | rfl <;> rfl

/-- The thread leaves a flow alone, unless it acts on a packet of the flow. -/
theorem TurnMove.flow {hand : Option Inbound} (move : TurnMove hand s s') (busy : s.Busy)
    (sane : s.client.pending.Sane)
    (apart : ∀ p, hand = some p → p.opensFlow id = false ∧ p.endsFlow id = false) :
    Undisturbed id s s' ∨ Forgotten id s s' := by
  cases move with
  | call move => exact move.flow sane fun unstarted => absurd unstarted busy.2
  | told _ plain =>
    refine Or.inl (.of_entry rfl rfl ⟨fun arrival => arrival, ?_, ?_⟩)
    · unfold Event.IsPlain at plain
      split at plain <;> first | exact absurd plain fun impossible => impossible | skip
      unfold Entry.hands Entry.message?
      split <;> simp_all
    · apply Bool.eq_false_iff.2
      intro forgets
      obtain ⟨_, _, _, same⟩ := Entry.forgets_iff.1 forgets
      cases same
      exact plain
  | filed | pulsed => exact Or.inl (.of_log rfl rfl)
  | @delivered _ p m e read which _ =>
    refine Or.inl (.of_entry rfl rfl ⟨fun arrival => arrival, ?_, ?_⟩)
    · rw [hands_of_read read which]
      exact (apart p rfl).1
    · rcases which with rfl | rfl <;> rfl
  | @remembered _ p m other began read level own _ =>
    refine Or.inl (.of_log (Pending.contains_insert_other ?_) rfl)
    intro given
    rcases given with ⟨-, rfl⟩
    exact Bool.false_ne_true
      ((apart p rfl).1.symm.trans (Inbound.opensFlow_iff.2 ⟨m, read, level, own⟩))
  | @forgotten _ p other read =>
    refine Or.inl (.of_log (Pending.contains_take_other ?_) rfl)
    intro given
    rcases given with ⟨-, rfl⟩
    exact Bool.false_ne_true ((apart p rfl).2.symm.trans (Inbound.endsFlow_iff.2 read))
  | completed _ which =>
    refine Or.inl (.of_entry (Pending.contains_take_other ?_) rfl
      ⟨fun arrival => arrival, rfl, rfl⟩)
    intro given
    rcases given with ⟨rfl, -⟩
    rcases which with which | which <;> cases which
  | advanced =>
    refine Or.inl (.of_log ((Pending.contains_insert_other ?_).trans
      (Pending.contains_take_other ?_)) rfl)
    all_goals
      intro given
      rcases given with ⟨different, -⟩
      cases different
  | answered _ request =>
    refine Or.inl (.of_log (Pending.contains_take_other ?_) rfl)
    intro given
    rcases given with ⟨rfl, -⟩
    cases request
  | replied | resent | pinged => exact Or.inl (.afterSend _ _)
  | migrated => exact Or.inl (.of_log (Pending.contains_migrate sane.distinct rfl id) rfl)
  | scanned => exact Or.inl (.of_log (Pending.contains_scan rfl id) rfl)

/-! ## What the log says of a flow -/

/-- What is remembered of a flow, and what the packets received say of it. -/
structure Remembers (id : UInt16) (s : System σ) : Prop where
  early : s.client.phase = .init → s.client.pending.contains .pubRel id = false
  known : s.client.place ≠ .exited →
    s.client.pending.contains .pubRel id = Entry.flow id s.log
  plain : Entry.GaveUp s.log .pubRel id ∨
    Entry.flow id s.log = Inbound.flowOpen id (Entry.attended s.log)
  since : (∀ p ∈ Entry.session s.log, p.opensFlow id = false ∧ p.endsFlow id = false) →
    Entry.flow id s.log = Entry.leftOpen id s.log

namespace Remembers

omit [Environment σ] in
theorem undisturbed (h : Remembers id s) (same : Undisturbed id s s')
    (phase : s'.client.phase = .init → s.client.phase = .init)
    (place : s'.client.place ≠ .exited → s.client.place ≠ .exited) : Remembers id s' := by
  rcases same with ⟨same, new, log, still⟩
  have quiet : ∀ e ∈ new, ¬ e.IsArrival := fun e member => (still e member).quiet
  refine ⟨fun init => ?_, fun here => ?_, ?_, ?_⟩
  · rw [same]
    exact h.early (phase init)
  · rw [same, log, Entry.flow_append _ still]
    exact h.known (place here)
  · rw [log, Entry.flow_append _ still, Entry.attended_append _ quiet]
    exact h.plain.imp_left fun gaveUp => gaveUp.append new
  · rw [log, Entry.flow_append _ still, Entry.leftOpen_append _ still,
      Entry.session_append _ quiet]
    exact h.since

omit [Environment σ] in
theorem of_forgotten (same : Forgotten id s s') : Remembers id s' := by
  rcases same with ⟨-, absent, e, log, forgets⟩
  refine ⟨fun _ => absent, fun _ => ?_, Or.inl ?_, fun _ => ?_⟩
  · rw [absent, log, Entry.flow_of_forgets forgets]
  · rw [log]
    exact Entry.gaveUp_of_forgets forgets
  · rw [log, Entry.flow_of_forgets forgets, Entry.leftOpen_of_forgets forgets]

end Remembers

/-- Sending has nothing to do with flows. -/
theorem Remembers.afterSend (h : Remembers id s) (busy : s.Busy) (bs : Bytes) :
    (s.afterSend bs).Busy ∧ Remembers id (s.afterSend bs) :=
  ⟨busy.afterSend bs, h.undisturbed (.afterSend s bs)
    (fun init => absurd init (busy.afterSend bs).2)
    fun _ exited => Place.noConfusion (busy.1.symm.trans exited)⟩

omit [Environment σ] in
theorem Remembers.close (h : Remembers id s) (busy : s.Busy) : Remembers id s.close :=
  h.undisturbed (.close s) (fun init => by simpa using init)
    fun _ exited => Place.noConfusion (busy.1.symm.trans exited)

theorem CallMove.remembers (move : CallMove s s') (sane : s.client.pending.Sane)
    (h : Remembers id s) : Remembers id s' := by
  rcases move.flow sane h.early with same | given
  · exact h.undisturbed same move.stands.1 move.stands.2
  · exact .of_forgotten given

theorem TurnMove.remembers {hand : Option Inbound} (move : TurnMove hand s s') (busy : s.Busy)
    (sane : s.client.pending.Sane)
    (apart : ∀ p, hand = some p → p.opensFlow id = false ∧ p.endsFlow id = false)
    (h : Remembers id s) : Remembers id s' := by
  rcases move.flow busy sane apart with same | given
  · exact h.undisturbed same (fun init => absurd init (move.busy busy).2)
      fun _ exited => Place.noConfusion (busy.1.symm.trans exited)
  · exact .of_forgotten given

theorem ThreadMove.remembers (move : ThreadMove s s') (ordered : Ordered s)
    (sane : s.client.pending.Sane) (h : Remembers id s) : Remembers id s' := by
  obtain ⟨here, begun⟩ := move.stands ordered
  have onward (same : Undisturbed id s s') : Remembers id s' :=
    h.undisturbed same (fun init => absurd init begun) fun _ => here
  have still {e : Entry} (quiet : ¬ e.IsArrival) (kept : e.hands id = false)
      (held : e.forgets id = false) : e.Still id := ⟨quiet, kept, held⟩
  cases move with
  | turn busy move => exact move.turn.remembers busy sane (fun _ none => by cases none) h
  | obeyed => exact onward (.of_entry rfl rfl (still (fun arrival => arrival) rfl rfl))
  | dialled config =>
    have noted : Undisturbed id s.close
        (s.close.note (.dialled config.host config.tcpPort config.connectTimeout)) :=
      .of_entry rfl rfl (still (fun arrival => arrival) rfl rfl)
    exact onward ((Undisturbed.close s).trans (noted.trans (.of_log rfl rfl)))
  | opened _ =>
    exact ⟨fun init => absurd init begun, fun _ => h.known here,
      h.plain.imp_left fun gaveUp => gaveUp.append [.opened], fun _ => rfl⟩
  | saluted => exact onward (.trans (.afterSend _ _) (.of_log rfl rfl))
  | parted => exact onward (.trans (.afterSend _ _) (.close _))
  | closed => exact onward (.close s)
  | readEnded => exact onward (.of_log (Pending.contains_migrate sane.distinct rfl id) rfl)
  | greeted p greeting =>
    have fresh := (ordered.greeting _ greeting).2.2
    have flow : Entry.flow id (.received p :: s.log) = Entry.flow id s.log := by
      simp [Entry.flow, Entry.hands, Entry.message?, Entry.forgets, Entry.ends, fresh]
    have packets : Entry.attended (.received p :: s.log) = Entry.attended s.log ∧
        Entry.session (.received p :: s.log) = Entry.session s.log := by
      simp [Entry.attended, Entry.session, fresh]
    refine ⟨fun init => absurd init begun, fun _ => ?_, ?_, fun none => ?_⟩
    · exact (Pending.contains_migrate sane.distinct rfl id).trans ((h.known here).trans flow.symm)
    · apply h.plain.imp (fun gaveUp => gaveUp.append [.received p])
      intro plain
      exact flow.trans (packets.1 ▸ plain)
    · exact flow.trans (h.since (packets.2 ▸ none))
  | left busy destroyed =>
    have closed : Remembers id s.close :=
      h.undisturbed (.close s) (fun init => by simpa using init) fun _ => here
    exact ⟨Phase.noConfusion, fun remains => absurd rfl remains, closed.plain, closed.since⟩
  | _ => exact onward (.of_log rfl rfl)

/-- What bears being left alone and given up holds after a turn with no packet in hand. -/
theorem Turns.bear {I : System σ → Prop} (turns : Turns none s s') (busy : s.Busy)
    (sane : s.client.pending.Sane)
    (undisturbed : ∀ {s s' : System σ}, Undisturbed id s s' → I s → I s')
    (forgotten : ∀ {s s' : System σ}, Forgotten id s s' → I s → I s') (start : I s) : I s' :=
  (Turns.keep (I := fun s => s.client.pending.Sane ∧ I s) (fun _ _ busy move ⟨sane, held⟩ =>
    ⟨move.sane sane, (move.flow busy sane fun _ none => by cases none).elim
      (fun same => undisturbed same held) fun given => forgotten given held⟩)
    turns busy ⟨sane, start⟩).2.2

theorem Turns.remembers (turns : Turns none s s') (busy : s.Busy) (sane : s.client.pending.Sane)
    (h : Remembers id s) : Remembers id s' :=
  (Turns.keep (I := fun s => s.client.pending.Sane ∧ Remembers id s)
    (fun _ _ busy move ⟨sane, held⟩ =>
      ⟨move.sane sane, move.remembers busy sane (fun _ none => by cases none) held⟩)
    turns busy ⟨sane, h⟩).2.2

/-- What is not remembered cannot be given up. -/
theorem Turns.undisturbed (turns : Turns none s s') (busy : s.Busy) (sane : s.client.pending.Sane)
    (absent : s.client.pending.contains .pubRel id = false) : Undisturbed id s s' := by
  have kept : s'.client.pending.contains .pubRel id = false ∧ Undisturbed id s s' :=
    turns.bear (I := fun t => t.client.pending.contains .pubRel id = false ∧ Undisturbed id s t)
      busy sane (fun same ⟨absent, before⟩ => ⟨same.1.trans absent, before.trans same⟩)
      (fun given ⟨absent, _⟩ => absurd (absent.symm.trans given.1) Bool.false_ne_true)
      ⟨absent, .of_log rfl rfl⟩
  exact kept.2

/-! ## Acting on a packet of a flow -/

namespace Entry

variable {id : UInt16} {p : Inbound} {log : List Entry}

theorem flow_received (heard : isFresh log = false) :
    flow id (.received p :: log) = (!p.endsFlow id && flow id log) := by
  simp [flow, hands, message?, forgets, ends, heard]

theorem attended_received (heard : isFresh log = false) :
    attended (.received p :: log) = p :: attended log := by
  simp [attended, heard]

theorem session_received (heard : isFresh log = false) :
    session (.received p :: log) = p :: session log := by
  simp [session, heard]

end Entry

/-- Whether a packet of a flow is the latest of the session that concerns the flow. -/
structure Faced (p : Inbound) (id : UInt16) (log : List Entry) : Prop where
  concerned : p.opensFlow id = true ∨ p.endsFlow id = true
  here : p ∈ Entry.session log
  is : Inbound.flowOpen id (Entry.attended log) = p.opensFlow id

/-- What holds of a flow while the thread turns to a packet of it. -/
structure Turning (p : Inbound) (id : UInt16) (s : System σ) : Prop where
  faced : Faced p id s.log
  known : p.opensFlow id = true → s.client.pending.contains .pubRel id = Entry.flow id s.log
  ended : p.endsFlow id = true → Entry.flow id s.log = false

section

variable {p : Inbound}

theorem Faced.append {new log : List Entry} (h : Faced p id log)
    (quiet : ∀ e ∈ new, ¬ e.IsArrival) : Faced p id (new ++ log) := by
  refine ⟨h.concerned, ?_, ?_⟩
  · rw [Entry.session_append _ quiet]
    exact h.here
  · rw [Entry.attended_append _ quiet]
    exact h.is

theorem Faced.cons {e : Entry} {log : List Entry} (h : Faced p id log) (quiet : ¬ e.IsArrival) :
    Faced p id (e :: log) :=
  @append _ _ [e] _ h fun _ member => List.mem_singleton.1 member ▸ quiet

omit [Environment σ] in
/-- The packet was acted on once what is remembered is what it says. -/
theorem Faced.remembers (h : Faced p id s.log) (busy : s.Busy)
    (known : s.client.pending.contains .pubRel id = p.opensFlow id)
    (flow : Entry.flow id s.log = p.opensFlow id) : Remembers id s := by
  refine ⟨fun init => absurd init busy.2, fun _ => known.trans flow.symm,
    Or.inr (flow.trans h.is.symm), fun none => ?_⟩
  obtain ⟨unopened, unended⟩ := none p h.here
  rcases h.concerned with opens | ends
  · rw [opens] at unopened
    cases unopened
  · rw [ends] at unended
    cases unended

omit [Environment σ] in
theorem Turning.undisturbed (same : Undisturbed id s s') (h : Turning p id s) :
    Turning p id s' := by
  rcases same with ⟨same, new, log, still⟩
  refine ⟨?_, fun opens => ?_, fun ends => ?_⟩
  · rw [log]
    exact h.faced.append fun e member => (still e member).quiet
  · rw [same, log, Entry.flow_append _ still]
    exact h.known opens
  · rw [log, Entry.flow_append _ still]
    exact h.ended ends

omit [Environment σ] in
theorem Turning.forgotten (given : Forgotten id s s') (h : Turning p id s) : Turning p id s' := by
  rcases given with ⟨-, absent, e, log, forgets⟩
  refine ⟨?_, fun _ => ?_, fun _ => ?_⟩
  · rw [log]
    exact h.faced.cons (Entry.quiet_of_forgets forgets)
  · rw [absent, log, Entry.flow_of_forgets forgets]
  · rw [log, Entry.flow_of_forgets forgets]

omit [Environment σ] in
theorem Remembers.turning {reader : Frame.Reader} (h : Remembers id s)
    (ordered : Ordered s) (sane : s.client.pending.Sane)
    (here : s.client.place = .listening reader)
    (concerned : p.opensFlow id = true ∨ p.endsFlow id = true) : Turning p id (s.accept p) := by
  have heard := ordered.connected (ordered.listening reader here).2
  have known := h.known (by rw [here]; exact Place.noConfusion)
  have migrated : s.client.pending.migrate.2.contains .pubRel id = _ :=
    Pending.contains_migrate sane.distinct rfl id
  have flow : Entry.flow id (.received p :: s.log) = _ := Entry.flow_received heard
  refine ⟨⟨concerned, ?_, ?_⟩, fun opens => ?_, fun ends => flow.trans (by rw [ends]; rfl)⟩
  · change p ∈ Entry.session (.received p :: s.log)
    rw [Entry.session_received heard]
    exact List.mem_cons_self
  · change Inbound.flowOpen id (Entry.attended (.received p :: s.log)) = p.opensFlow id
    rw [Entry.attended_received heard, Inbound.flowOpen]
    rcases concerned with opens | ends
    · rw [opens]
      rfl
    · rw [ends]
      simp
  · refine migrated.trans (known.trans (Eq.trans ?_ flow.symm))
    rw [Inbound.endsFlow_of_opensFlow opens]
    rfl

omit [Environment σ] in
/-- A packet of no concern to a flow may be read. -/
theorem Remembers.accept {reader : Frame.Reader} (h : Remembers id s) (ordered : Ordered s)
    (sane : s.client.pending.Sane) (here : s.client.place = .listening reader)
    (unopened : p.opensFlow id = false) (unended : p.endsFlow id = false) :
    Remembers id (s.accept p) := by
  have heard := ordered.connected (ordered.listening reader here).2
  have known := h.known (by rw [here]; exact Place.noConfusion)
  have migrated : s.client.pending.migrate.2.contains .pubRel id = _ :=
    Pending.contains_migrate sane.distinct rfl id
  have flow : Entry.flow id (.received p :: s.log) = Entry.flow id s.log := by
    rw [Entry.flow_received heard, unended]
    rfl
  have busy := accept_busy ordered here p
  refine ⟨fun init => absurd init busy.2, fun _ => migrated.trans (known.trans flow.symm),
    h.plain.imp (fun gaveUp => gaveUp.append [.received p]) fun plain => ?_, fun none => ?_⟩
  · change Entry.flow id (.received p :: s.log) =
      Inbound.flowOpen id (Entry.attended (.received p :: s.log))
    rw [flow, plain, Entry.attended_received heard, Inbound.flowOpen, unopened, unended]
    rfl
  · change Entry.flow id (.received p :: s.log) = Entry.leftOpen id (.received p :: s.log)
    change ∀ q ∈ Entry.session (.received p :: s.log), _ at none
    rw [Entry.session_received heard] at none
    rw [flow, h.since fun q member => none q (List.mem_cons_of_mem _ member)]
    rfl

namespace Act

/-- A PUBREL is answered, and what was remembered for it is forgotten. -/
theorem onPubRel_ends :
    Ends (onPubRel id).run s fun r s' =>
      r = (s.change (·.without .pubRel id)).sendResult (Packet.ack .pubComp id) ∧
        s' = (s.change (·.without .pubRel id)).afterSend (Packet.ack .pubComp id) := by
  unfold onPubRel
  rw [try_bind, try_lift, ends_take]
  exact try_transmit.2 ⟨rfl, rfl⟩

/-- A message that was not remembered is, once it was handed on. -/
theorem handedOn_remembers {m : Packet.Publish} {e : Event} {s₁ : System σ}
    (turning : Turning p id s) (busy : s.Busy) (sane : s.client.pending.Sane)
    (read : p.publish? = some m) (opens : p.opensFlow id = true)
    (absent : s.client.pending.contains .pubRel id = false)
    (which : e = .data m.message ∨ e = .unsubscribedData m.message)
    (calls : Calls (s.announce e) s₁) {outside : σ} {began : UInt32}
    (goesOn : ((s₁.shift outside).change fun c => c.keep (c.memory began m id)).Busy) :
    Remembers id ((s₁.shift outside).change fun c => c.keep (c.memory began m id)) := by
  have after : Undisturbed id (s.announce e) s₁ := calls.turns.undisturbed busy sane absent
  rcases after with ⟨-, new, log, still⟩
  have announced : Faced p id (s.announce e).log :=
    turning.faced.cons fun arrival => arrival
  refine Faced.remembers (p := p) ?_ goesOn ?_ ?_
  · change Faced p id s₁.log
    rw [log]
    exact announced.append fun e' member => (still e' member).quiet
  · rw [opens]
    exact Pending.contains_insert_self _ _
  · change Entry.flow id s₁.log = _
    rw [log, Entry.flow_append _ still, System.announce_log, Entry.flow,
      hands_of_read read which, opens]
    rfl

/-- Once a packet of a flow was acted on, what is remembered is what the packet says. -/
theorem dispatch_remembers (turning : Turning p id s) (busy : s.Busy)
    (sane : s.client.pending.Sane) :
    Ends (dispatch p).run s fun _ s' => s'.Busy ∧ Remembers id s' := by
  rcases turning.faced.concerned with opens | ends
  · obtain ⟨m, read, level, own⟩ := Inbound.opensFlow_iff.1 opens
    rw [dispatch_publish read]
    apply (onPublish_exactlyOnce level own).imp
    intro r s' ended
    rcases ended with ⟨known, -, rfl⟩ |
      ⟨absent, e, s₁, outside, began, s₂, which, calls, warned, -, rfl⟩
    · refine (turning.faced.remembers busy ?_ ?_).afterSend busy _
      · rw [known, opens]
      · rw [← turning.known opens, known, opens]
    · have kept := remembered_turns read level own absent which calls outside began
      have goesOn := kept.busy busy
      have remembered :=
        handedOn_remembers turning busy sane read opens absent which calls goesOn
      have told : Turns none _ s₂ := warned.turns
      exact (told.remembers goesOn (kept.sane busy sane) remembered).afterSend (told.busy goesOn) _
  · rw [dispatch_pubRel (Inbound.endsFlow_iff.1 ends)]
    refine onPubRel_ends.imp fun r s' ⟨_, ended⟩ => ?_
    subst ended
    have unopened : p.opensFlow id = false := by
      apply Bool.eq_false_iff.2
      intro opens
      rw [Inbound.endsFlow_of_opensFlow opens] at ends
      cases ends
    refine (Faced.remembers (s := s.change (·.without .pubRel id))
      turning.faced busy ?_ ?_).afterSend busy _
    · rw [unopened]
      exact Pending.contains_take_self sane.distinct _ _
    · rw [unopened]
      exact turning.ended ends

end Act

/-- Acting on a packet keeps what the flows are, whether or not it is of a flow. -/
theorem Step.remembers (step : Step s s') (ordered : Ordered s) (sane : s.client.pending.Sane)
    (h : Remembers id s) : Remembers id s' := by
  cases step with
  | call move => exact move.remembers sane h
  | thread pace =>
    cases pace with
    | move move => exact move.remembers ordered sane h
    | looked _ busy _ turns =>
      exact (turns.hold (I := Remembers id)
        (fun _ sane busy move held => move.remembers busy sane (fun _ none => by cases none) held)
        busy ordered sane h).2.2.2
  | @attended s₁ reader p here warned =>
    have busy := accept_busy ordered here p
    have kept : (s.accept p).client.pending.Sane := sane.migrate
    have told : Turns none (s.accept p) s₁ := warned.turns
    by_cases concerned : p.opensFlow id = true ∨ p.endsFlow id = true
    · have turning : Turning p id s₁ := told.bear (I := Turning p id) busy kept
        Turning.undisturbed Turning.forgotten (h.turning ordered sane here concerned)
      have ended := Act.dispatch_remembers turning (told.busy busy) (told.sane busy kept)
      exact afterDispatch_of_ends (ended.imp fun _ _ ⟨busy, held⟩ =>
        ⟨held, fun _ => held.close busy⟩)
    · have unopened : p.opensFlow id = false :=
        Bool.eq_false_iff.2 fun opens => concerned (Or.inl opens)
      have unended : p.endsFlow id = false :=
        Bool.eq_false_iff.2 fun ends => concerned (Or.inr ends)
      obtain ⟨busy, ordered, sane, read⟩ := Turns.hold (I := Remembers id)
        (fun _ sane busy move held => move.remembers busy sane (fun _ none => by cases none) held)
        told busy (ordered.accept here p) kept (h.accept ordered sane here unopened unended)
      refine (afterDispatch_hold (I := Remembers id) (J := Remembers id)
        (fun _ sane busy move held => move.remembers busy sane ?_ held)
        (fun _ _ busy _ _ held => ?_) (fun _ held => held) busy ordered sane read).2
      · rintro _ same
        cases same
        exact ⟨unopened, unended⟩
      · exact (held.afterSend busy _).2.close (busy.afterSend _)

/-- What is remembered of the flows of a client that can be reached. -/
theorem Reachable.remembers (h : Reachable s) (id : UInt16) : Remembers id s :=
  h.induct (I := Remembers id)
    (fun _ _ => ⟨fun _ => rfl, fun _ => rfl, Or.inr rfl, fun _ => rfl⟩)
    fun _ _ ordered sane step held => step.remembers ordered sane held

end

end Mqtt
