import Mathlib.Logic.Relation
import Mqtt.Proofs.Pending
import Mqtt.Proofs.Running
import Mqtt.Proofs.Sending

/-!
# What calls can do

A call is a walk of small moves, and so is what the callbacks do that it leads to.
`CallMove` lists the moves; each adds to the log at most one entry that is not an
offer to the transport.  A request that cannot be sent is undone, so of it only the
offers and the identifier passed over remain.
-/

namespace Mqtt

/-- Filters that pass the check one after the other each pass it. -/
theorem Topic.checkFilter_of_forM {filters : List String}
    (checked : filters.forM checkFilter = .ok ()) :
    ∀ filter ∈ filters, checkFilter filter = .ok () := by
  induction filters with
  | nil => exact fun _ none => by cases none
  | cons first rest ih =>
    change (checkFilter first >>= fun _ => rest.forM checkFilter) = .ok () at checked
    cases passed : checkFilter first with
    | error fault =>
      rw [passed] at checked
      cases checked
    | ok u =>
      rw [passed] at checked
      exact List.forall_mem_cons.2 ⟨passed, ih checked⟩

/-- Whether an entry only records what a callback or the application did. -/
def Entry.IsRemark : Entry → Prop
  | .reacted .. | .waited .. | .called .. | .renewed .. => True
  | _ => False

/-- The requests that calls make. -/
inductive Act.Request.Issued : Act.Request → Prop
  | subscribe {filters : List (String × Qos)} (subject : String × Qos) : filters ≠ [] →
    (∀ filter ∈ filters, Topic.checkFilter filter.1 = .ok ()) →
    Issued ⟨.subAck, fun id => Packet.Subscribe.put ⟨id, filters⟩, subject, filters⟩
  | unsubscribe {filters : List String} (subject : String × Qos) : filters ≠ [] →
    (∀ filter ∈ filters, Topic.checkFilter filter = .ok ()) →
    Issued ⟨.unsubAck, fun id => Packet.Unsubscribe.put ⟨id, filters⟩, subject,
      filters.map fun filter => (filter, .atMostOnce)⟩
  | atLeastOnce (topic : String) (payload : Bytes) (retain : Bool) :
    Issued ⟨.pubAck,
      fun id => Packet.Publish.put ⟨false, .atLeastOnce, retain, topic, some id, payload⟩,
      (topic, .atLeastOnce), []⟩
  | exactlyOnce (topic : String) (payload : Bytes) (retain : Bool) :
    Issued ⟨.pubRec,
      fun id => Packet.Publish.put ⟨false, .exactlyOnce, retain, topic, some id, payload⟩,
      (topic, .exactlyOnce), []⟩

theorem Act.Request.Issued.isLocal {r : Act.Request} (h : r.Issued) : r.awaits.isLocal = true := by
  cases h <;> rfl

/-- What is listed for a request that lists nothing else is all that is dropped with it. -/
theorem Subscriptions.dropRequest_addAll {listed : Subscriptions} {new : List Subject}
    {id : UInt16} (unlisted : listed.ofRequest id = [])
    (own : ∀ e ∈ new, e.request = some id) : (listed.addAll new).dropRequest id = listed := by
  have kept : listed.entries.filter (fun e => e.request != some id) = listed.entries := by
    rw [List.filter_eq_self]
    intro e member
    have absent := List.filter_eq_nil_iff.1 unlisted e member
    simpa using absent
  have dropped : new.filter (fun e => e.request != some id) = [] := by
    rw [List.filter_eq_nil_iff]
    intro e member
    simp [own e member]
  unfold dropRequest addAll
  rw [List.filter_append, kept, dropped, List.append_nil]

namespace Client

/-- The client with an identifier passed over. -/
def passOver (c : Client) (id : UInt16) : Client :=
  { c with nextId := idAfter id }

/-- The client with a transaction given up. -/
def giveUp (c : Client) (awaits : AckKind) (id : UInt16) : Client :=
  { c with
    subscriptions := if awaits.isRequest then c.subscriptions.dropRequest id else c.subscriptions
    pending := (c.pending.remove awaits id).2 }

/-- The client under other settings. -/
def under (c : Client) (config : Config) : Client :=
  { c with config, pending := { c.pending with threshold := config.pendingWarning } }

theorem unstarted_of_hasConnector {c : Client} (there : c.hasConnector = true) :
    c.place = .unstarted := by
  simp only [hasConnector, Bool.and_eq_true, beq_iff_eq] at there
  exact there.1

theorem started_of_hasHandle {c : Client} (there : c.hasHandle = true) :
    c.place ≠ .unstarted := by
  simp only [hasHandle, Bool.and_eq_true, bne_iff_ne] at there
  exact there.1

theorem isFree_of_freeFrom? {c : Client} {tries : Nat} {start id : UInt16}
    (h : c.freeFrom? tries start = some id) : c.isFree id = true := by
  induction tries generalizing start with
  | zero => cases h
  | succ tries ih =>
    unfold freeFrom? at h
    split at h
    next free => exact Option.some.inj h ▸ free
    · exact ih h

theorem isFree_iff {c : Client} {id : UInt16} :
    c.isFree id = true ↔ c.pending.idInUse id = false ∧ c.subscriptions.ofRequest id = [] := by
  simp [isFree]

/-- Claiming an identifier passes over a free one, or finds none. -/
theorem claimId_cases (c : Client) :
    c.claimId = (none, c) ∨ ∃ id, c.isFree id = true ∧ c.claimId = (some id, c.passOver id) := by
  unfold claimId
  split
  next id found => exact Or.inr ⟨id, isFree_of_freeFrom? found, rfl⟩
  · exact Or.inl rfl

/-- Undoing the registration of a free identifier gives back the client. -/
theorem unregister_register {c : Client} {now : UInt32} {awaits : AckKind} {id : UInt16}
    {packet : Bytes} {subject : String × Qos} {listed : List (String × Qos)}
    (own : awaits.isLocal = true) (free : c.isFree id = true) :
    (c.register now awaits id packet subject listed).unregister awaits id = c := by
  obtain ⟨unused, unlisted⟩ := isFree_iff.1 free
  have others : ∀ u ∈ c.pending.all, u.isFor awaits id = false := by
    intro u member
    rw [← Bool.not_eq_true, Transaction.isFor_iff]
    rintro ⟨same, rfl⟩
    exact Pending.not_isLocal_of_free unused member same own
  unfold unregister register
  dsimp only
  rw [Pending.remove_stage others, Subscriptions.dropRequest_addAll unlisted]
  intro e member
  obtain ⟨_, _, rfl⟩ := List.mem_map.1 member
  rfl

/-- Undoing a registration does not look at where the thread stands. -/
theorem unregister_pass (c : Client) (awaits : AckKind) (id : UInt16) (ms : Nat) :
    (c.pass ms).unregister awaits id = (c.unregister awaits id).pass ms := by
  unfold pass unregister
  dsimp only
  split <;> rfl

end Client

variable {σ : Type} [Environment σ]

/-- One move of a call or of a callback. -/
inductive CallMove : System σ → System σ → Prop
  | outside (s : System σ) (outside : σ) : CallMove s (s.shift outside)
  | remarked (s : System σ) (e : Entry) : e.IsRemark → CallMove s (s.note e)
  | started (s : System σ) : s.client.destroyed = false → s.client.place = .unstarted →
    CallMove s (s.change fun c => { c with phase := .start, place := .running })
  /-- The thread could not be spawned. -/
  | spoilt (s : System σ) : s.client.destroyed = false → s.client.place = .unstarted →
    CallMove s (s.change fun c => { c with spoilt := true })
  /-- The handle of the thread was taken, to wait for its end. -/
  | awaited (s : System σ) : s.client.place ≠ .unstarted →
    CallMove s (s.change fun c => { c with awaited := true })
  | asked (s : System σ) {control : Control} : control ≠ .destroy →
    CallMove s (s.change fun c => { c with controls := c.controls.push control })
  | condemned (s : System σ) : s.client.destroyed = false → s.client.phase ≠ .init →
    CallMove s (s.change fun c =>
      { c with destroyed := true, controls := c.controls.push .destroy })
  /-- The teardown of a client that was never started. -/
  | undone (s : System σ) : s.client.destroyed = false → s.client.phase = .init →
    CallMove s ((s.change fun c => { c with destroyed := true }).announce .destroying)
  | released (s : System σ) : s.client.destroyed = true → s.client.phase = .init →
    CallMove s (s.close.change Client.release)
  | discarded (s : System σ) {awaits : AckKind} {id : UInt16} {t : Transaction} :
    (s.client.pending.remove awaits id).1 = some t →
    CallMove s
      ((s.change (·.giveUp awaits id)).announce (.discarded awaits id t.subject.topic))
  | configured (s : System σ) {config : Config} : config.validate = .ok () →
    CallMove s (s.change (·.under config))
  | willed (s : System σ) (will : Option LastWill) : CallMove s (s.change fun c => { c with will })
  | masked (s : System σ) (mask : EventMask) : CallMove s (s.change fun c => { c with mask })
  | passed (s : System σ) {id : UInt16} : s.client.isFree id = true →
    CallMove s (s.change (·.passOver id))
  /-- A request was registered and sent. -/
  | requested (s : System σ) {r : Act.Request} {id : UInt16} {packet : Bytes} (began : UInt32) :
    r.Issued → s.client.destroyed = false → s.client.phase = .connected →
    s.client.isFree id = true → Packet.encode (r.packet id) = .ok packet →
    s.sendResult packet = .ok () →
    CallMove s ((s.change fun c =>
      (c.passOver id).register began r.awaits id packet r.subject r.listed).afterSend packet)
  /-- A request could not be sent. -/
  | refused (s : System σ) {r : Act.Request} {id : UInt16} {packet : Bytes} {e : Error} :
    r.Issued → s.client.destroyed = false → s.client.phase = .connected →
    s.client.isFree id = true → Packet.encode (r.packet id) = .ok packet →
    s.sendResult packet = .error e →
    CallMove s ((s.change (·.passOver id)).afterSend packet)
  /-- A message of which nothing is kept was sent, or not. -/
  | sent (s : System σ) {m : Packet.Publish} {packet : Bytes} : m.qos = .atMostOnce →
    m.dup = false → s.client.destroyed = false → s.client.phase = .connected →
    Packet.encode m.put = .ok packet → CallMove s (s.afterSend packet)

/-- A walk of such moves. -/
abbrev Calls : System σ → System σ → Prop :=
  Relation.ReflTransGen CallMove

/-- The packets that calls send. -/
inductive Requested : Bytes → Prop
  | request {r : Act.Request} {id : UInt16} {packet : Bytes} : r.Issued →
    Packet.encode (r.packet id) = .ok packet → Requested packet
  | message {m : Packet.Publish} {packet : Bytes} : m.qos = .atMostOnce → m.dup = false →
    Packet.encode m.put = .ok packet → Requested packet

/-- Whether an entry can come from a call. -/
def Entry.OfCall : Entry → Prop
  | .reacted .. | .waited .. | .called .. | .renewed .. | .closed => True
  | .raised (.discarded ..) _ _ | .raised .destroying _ _ => True
  | .sent a => Requested a.whole
  | _ => False

namespace System

/-- Every offer is of the packet that is sent. -/
theorem whole_of_mem_offers {s : System σ} {bs : Bytes} {a : Transport.Attempt}
    (member : a ∈ s.offers bs) : a.whole = bs := by
  unfold offers at member
  split at member
  · exact ((Transport.sendAll_course _ _ _ _).of_mem member).1
  · cases member

/-- Sending writes only offers of the packet to the log. -/
theorem afterSend_entries (s : System σ) (bs : Bytes) :
    ∃ new, (s.afterSend bs).log = new ++ s.log ∧
      ∀ e ∈ new, ∃ a : Transport.Attempt, e = .sent a ∧ a.whole = bs := by
  refine ⟨_, s.afterSend_log bs, fun e member => ?_⟩
  obtain ⟨a, offered, rfl⟩ := List.mem_map.1 (List.mem_reverse.1 member)
  exact ⟨a, rfl, whole_of_mem_offers offered⟩

/-- Sending writes the offer that completes the packet last, if it ends well, and else
none that does. -/
theorem afterSend_cases (s : System σ) {bs : Bytes} (nonempty : bs ≠ []) :
    ∃ new, (∀ e ∈ new, ∃ a : Transport.Attempt, e = .sent a ∧ a.completes = false) ∧
      ((∃ e, s.sendResult bs = .error e) ∧ (s.afterSend bs).log = new ++ s.log ∨
        s.sendResult bs = .ok () ∧ ∃ last : Transport.Attempt, last.whole = bs ∧
          last.completes = true ∧ (s.afterSend bs).log = .sent last :: (new ++ s.log)) := by
  have partly {attempts : List Transport.Attempt} (short : ∀ a ∈ attempts, a.completes = false) :
      ∀ e ∈ (attempts.map Entry.sent).reverse, ∃ a : Transport.Attempt,
        e = .sent a ∧ a.completes = false := by
    intro e member
    obtain ⟨a, offered, rfl⟩ := List.mem_map.1 (List.mem_reverse.1 member)
    exact ⟨a, rfl, short a offered⟩
  rw [afterSend_log]
  by_cases linked : s.client.linked = true
  · have course := Transport.sendAll_course Environment.offer bs
      s.client.config.commandTimeout.toNat s.outside
    have offers : s.offers bs = (s.sending bs).attempts := if_pos linked
    have result := sendResult_of_linked linked bs
    rcases course.completes with ⟨well, ⟨-, empty⟩ | ⟨before, last, split, full, others⟩⟩ |
      ⟨⟨e, ill⟩, short⟩
    · exact absurd empty nonempty
    · change (s.sending bs).attempts = before ++ [last] at split
      have own : last.whole = bs := by
        apply whole_of_mem_offers (s := s)
        rw [offers, split]
        exact List.mem_append_right _ List.mem_cons_self
      have sent : s.sendResult bs = .ok () := by
        rcases result with ⟨-, sent⟩ | ⟨e, ill, -⟩
        · exact sent
        · cases ill.symm.trans well
      refine ⟨_, partly others, Or.inr ⟨sent, last, own, full, ?_⟩⟩
      rw [offers, split, List.map_append, List.reverse_append]
      rfl
    · rcases result with ⟨well, -⟩ | ⟨e', -, failed⟩
      · cases well.symm.trans ill
      · exact ⟨_, partly (offers ▸ short), Or.inl ⟨⟨_, failed⟩, rfl⟩⟩
  · have offers : s.offers bs = [] := if_neg linked
    rw [offers]
    exact ⟨[], fun _ none => (by cases none), Or.inl ⟨⟨.notConnected, if_neg linked⟩, rfl⟩⟩

omit [Environment σ] in
theorem change_congr {s : System σ} {f g : Client → Client} (h : f s.client = g s.client) :
    s.change f = s.change g := by
  unfold change
  rw [h]

omit [Environment σ] in
theorem change_self {s : System σ} {f : Client → Client} (h : f s.client = s.client) :
    s.change f = s := by
  unfold change
  rw [h]

/-- Sending looks at the settings, at whether a transport is open and at the outside. -/
theorem sendResult_change (s : System σ) {f : Client → Client} (bs : Bytes)
    (linked : (f s.client).linked = s.client.linked)
    (config : (f s.client).config = s.client.config) :
    (s.change f).sendResult bs = s.sendResult bs := by
  unfold sendResult sending change
  dsimp only
  rw [linked, config]

/-- What is undone after sending need not have been done before, if nobody looks at it
while octets are sent. -/
theorem change_afterSend (s : System σ) (bs : Bytes) (f g undo : Client → Client)
    (linked : (f s.client).linked = s.client.linked ∧ (g s.client).linked = s.client.linked)
    (config : (f s.client).config = s.client.config ∧ (g s.client).config = s.client.config)
    (undone : undo (f s.client) = g s.client)
    (undonePassed : ∀ ms, undo ((f s.client).pass ms) = (g s.client).pass ms) :
    ((s.change f).afterSend bs).change undo = (s.change g).afterSend bs := by
  unfold afterSend sending change
  dsimp only
  rw [linked.1, linked.2, config.1, config.2]
  split
  · dsimp only
    rw [undonePassed]
  · dsimp only
    rw [undone]

end System

theorem Writes.afterSend {P : Entry → Prop} (s : System σ) {bs : Bytes}
    (own : ∀ a : Transport.Attempt, a.whole = bs → P (.sent a)) : Writes P s (s.afterSend bs) := by
  obtain ⟨new, log, offers⟩ := s.afterSend_entries bs
  refine ⟨new, log, fun e member => ?_⟩
  obtain ⟨a, rfl, whole⟩ := offers e member
  exact own a whole

/-- What a call writes to the log. -/
theorem CallMove.entries {s s' : System σ} (move : CallMove s s') : Writes Entry.OfCall s s' := by
  have sends (t : System σ) {packet : Bytes} (own : Requested packet) :
      Writes Entry.OfCall t (t.afterSend packet) := .afterSend t fun a whole => by
    rw [← whole] at own
    exact own
  cases move with
  | remarked e remark =>
    refine .of_entry rfl ?_
    cases e <;> first | exact trivial | exact absurd remark id
  | undone | discarded => exact .of_entry rfl trivial
  | released => exact .close s trivial
  | requested _ issued _ _ _ written => exact sends _ (.request issued written)
  | refused issued _ _ _ written => exact sends _ (.request issued written)
  | sent level dup _ _ written => exact sends _ (.message level dup written)
  | _ => exact .of_log rfl

theorem Calls.entries {s s' : System σ} (calls : Calls s s') : Writes Entry.OfCall s s' := by
  induction calls with
  | refl => exact .of_log rfl
  | tail _ move ih => exact ih.trans move.entries

namespace Act

variable {α : Type} {s : System σ}

/-! ## Answers and demands -/

section

omit [Environment σ]

@[simp]
theorem ends_answer {toReply : α → Reply} {action : Try σ α} {Q : Reply → System σ → Prop} :
    Ends (answer toReply action) s Q ↔
      Ends action.run s fun r s' =>
        Q (match r with | .error e => .failed e | .ok a => toReply a) s' := by
  unfold answer
  rw [ends_bind]
  unfold Ends
  cases (action.run.run s).1 <;> rfl

section Demands

variable {f : Unit → Try σ α} {Q : Except Error α → System σ → Prop}

/-- What follows a demand runs only where the demand is met; one that is not met says nothing of
identifiers. -/
theorem after_ensureAlive (met : s.client.destroyed = false → Ends (f ()).run s Q)
    (unmet : ∀ e, e ≠ .idsExhausted → Q (.error e) s) : Ends (ensureAlive >>= f).run s Q := by
  unfold ensureAlive
  simp only [try_bind, try_lift, ends_client]
  split
  · exact unmet _ Error.noConfusion
  next alive => exact met (Bool.eq_false_iff.2 alive)

theorem after_ensureStarted (met : s.client.phase ≠ .init → Ends (f ()).run s Q)
    (unmet : ∀ e, e ≠ .idsExhausted → Q (.error e) s) : Ends (ensureStarted >>= f).run s Q := by
  unfold ensureStarted
  simp only [try_bind, try_lift, ends_client]
  split
  · exact unmet _ Error.noConfusion
  next begun => exact met begun

theorem after_ensureConnected
    (met : s.client.destroyed = false → s.client.phase = .connected → Ends (f ()).run s Q)
    (unmet : ∀ e, e ≠ .idsExhausted → Q (.error e) s) : Ends (ensureConnected >>= f).run s Q := by
  unfold ensureConnected
  rw [bind_assoc]
  refine after_ensureAlive (fun alive => ?_) unmet
  simp only [try_bind, try_lift, ends_client]
  split
  · exact unmet _ Error.noConfusion
  next connected => exact met alive (Decidable.not_not.1 connected)

theorem after_checkFilters {filters : List String}
    (met : (∀ filter ∈ filters, Topic.checkFilter filter = .ok ()) → Ends (f ()).run s Q)
    (unmet : ∀ e, e ≠ .idsExhausted → Q (.error e) s) :
    Ends (checkFilters filters >>= f).run s Q := by
  unfold checkFilters
  cases checked : filters.forM Topic.checkFilter with
  | error fault => exact unmet _ Error.noConfusion
  | ok u => exact met (Topic.checkFilter_of_forM checked)

theorem after_checkName {name : String} (met : Ends (f ()).run s Q)
    (unmet : ∀ e, e ≠ .idsExhausted → Q (.error e) s) : Ends (checkName name >>= f).run s Q := by
  unfold checkName
  cases Topic.checkName name with
  | error fault => exact unmet _ Error.noConfusion
  | ok u => exact met

end Demands

end

/-! ## Requests for the broker -/

@[simp]
theorem try_transmitPacket {packet : Packet.Put Unit} {Q : Except Error Unit → System σ → Prop} :
    Ends (transmitPacket packet).run s Q ↔
      if s.client.linked then
        match Packet.encode packet with
        | .error e => Q (.error (.packet e)) s
        | .ok bs => Q (s.sendResult bs) (s.afterSend bs)
      else Q (.error .notConnected) s := by
  unfold transmitPacket
  simp only [try_bind, try_lift, ends_client]
  split
  · cases Packet.encode packet with
    | error e => rfl
    | ok bs => exact try_transmit
  · rfl

/-- How submitting a request ends. -/
inductive Submitted (s : System σ) (r : Request) : Except Error UInt16 → System σ → Prop
  | exhausted : Submitted s r (.error .idsExhausted) s
  | unwritten {id : UInt16} (e : Packet.Error) : s.client.isFree id = true →
    Submitted s r (.error (.packet e)) (s.change (·.passOver id))
  | requested (outside : σ) {id : UInt16} {packet : Bytes} (began : UInt32) :
    s.client.isFree id = true → Packet.encode (r.packet id) = .ok packet →
    (s.shift outside).sendResult packet = .ok () →
    Submitted s r (.ok id) (((s.shift outside).change fun c =>
      (c.passOver id).register began r.awaits id packet r.subject r.listed).afterSend packet)
  | refused (outside : σ) {id : UInt16} {packet : Bytes} {e : Error} :
    s.client.isFree id = true → Packet.encode (r.packet id) = .ok packet →
    (s.shift outside).sendResult packet = .error e →
    Submitted s r (.error e) (((s.shift outside).change (·.passOver id)).afterSend packet)

theorem submit_submitted {r : Request} (own : r.awaits.isLocal = true) :
    Ends (submit r).run s (Submitted s r) := by
  unfold submit
  simp only [try_bind, try_lift, ends_draw]
  rcases s.client.claimId_cases with claimed | ⟨id, free, claimed⟩
  · rw [claimed]
    have same : (s.change fun c => c.claimId.2) = s := System.change_self (by rw [claimed])
    simp only [try_throw, same]
    exact .exhausted
  · have moved : (s.change fun c => c.claimId.2) = s.change (·.passOver id) :=
      System.change_congr (by rw [claimed])
    rw [claimed, moved]
    dsimp only
    cases written : Packet.encode (r.packet id) with
    | error e => exact .unwritten e free
    | ok packet =>
      simp only [try_bind, try_lift, ends_now, ends_update, try_tryCatch, try_transmit, try_throw,
        try_pure]
      let began := (Environment.now s.outside).1
      let s₁ := s.shift (Environment.now s.outside).2
      let f (c : Client) :=
        (c.passOver id).register began r.awaits id packet r.subject r.listed
      have unread : (s₁.change f).sendResult packet = s₁.sendResult packet :=
        s₁.sendResult_change packet rfl rfl
      generalize registered : System.change (System.shift _ _) _ = t
      obtain rfl : s₁.change f = t := registered
      rw [unread]
      cases result : s₁.sendResult packet with
      | ok u => exact .requested _ began free written result
      | error e =>
        have forgotten : (f s₁.client).unregister r.awaits id = s₁.client.passOver id :=
          Client.unregister_register own free
        have undone := s₁.change_afterSend packet f (·.passOver id) (·.unregister r.awaits id)
          ⟨rfl, rfl⟩ ⟨rfl, rfl⟩ forgotten fun ms => by rw [Client.unregister_pass, forgotten]
        dsimp only
        rw [undone]
        exact .refused _ free written result

theorem submit_calls {r : Request} (issued : r.Issued) (alive : s.client.destroyed = false)
    (connected : s.client.phase = .connected) :
    Ends (submit r).run s fun _ s' => Calls s s' := by
  apply (submit_submitted issued.isLocal).imp
  intro result s' submitted
  have shifted (outside : σ) : Calls s (s.shift outside) := .single (.outside s outside)
  cases submitted with
  | exhausted => exact .refl
  | unwritten e free => exact .single (.passed s free)
  | requested outside began free written sent =>
    exact (shifted outside).tail (.requested _ began issued alive connected free written sent)
  | refused outside free written failed =>
    exact (shifted outside).tail (.refused _ issued alive connected free written failed)

theorem subscribe_calls (filters : List (String × Qos)) :
    Ends (subscribe filters).run s fun _ s' => Calls s s' := by
  unfold subscribe
  cases filters with
  | nil => exact .refl
  | cons first rest =>
    refine after_checkFilters (fun checked => ?_) fun _ _ => .refl
    refine after_ensureConnected (fun alive connected => ?_) fun _ _ => .refl
    exact submit_calls (.subscribe first (List.cons_ne_nil first rest)
      (List.forall_mem_map.1 checked)) alive connected

theorem unsubscribe_calls (filters : List String) :
    Ends (unsubscribe filters).run s fun _ s' => Calls s s' := by
  unfold unsubscribe
  cases filters with
  | nil => exact .refl
  | cons first rest =>
    refine after_checkFilters (fun checked => ?_) fun _ _ => .refl
    refine after_ensureConnected (fun alive connected => ?_) fun _ _ => .refl
    exact submit_calls (.unsubscribe _ (List.cons_ne_nil first rest) checked) alive connected

theorem publish_calls (topic : String) (payload : Bytes) (qos : Qos) (retain : Bool) :
    Ends (publish topic payload qos retain).run s fun _ s' => Calls s s' := by
  unfold publish
  refine after_checkName ?_ fun _ _ => .refl
  refine after_ensureConnected (fun alive connected => ?_) fun _ _ => .refl
  cases qos with
  | atMostOnce =>
    simp only [try_bind, try_transmitPacket]
    split
    · cases written : Packet.encode _ with
      | error e => exact .refl
      | ok bs =>
        have sent : Calls s (s.afterSend bs) := .single (.sent s rfl rfl alive connected written)
        dsimp only
        cases s.sendResult bs with
        | error e => exact sent
        | ok u => exact sent
    · exact .refl
  | atLeastOnce =>
    rw [try_bind]
    have submitted := submit_calls (.atLeastOnce topic payload retain) alive connected
    apply submitted.imp
    intro r s' calls
    cases r <;> exact calls
  | exactlyOnce =>
    rw [try_bind]
    have submitted := submit_calls (.exactlyOnce topic payload retain) alive connected
    apply submitted.imp
    intro r s' calls
    cases r <;> exact calls

/-! ## All calls -/

/-- Raising an event is a walk that begins with the entry of the event. -/
abbrev Raises (raise : Event → Act σ Unit) : Prop :=
  ∀ (s : System σ) (e : Event), Ends (raise e) s fun _ s' => Calls (s.announce e) s'

section Raising

variable {raise : Event → Act σ Unit}

theorem start_calls : Ends start.run s fun _ s' => Calls s s' := by
  unfold start
  refine after_ensureAlive (fun alive => ?_) fun _ _ => .refl
  simp only [try_bind, try_lift, ends_client]
  split
  · exact .refl
  next there =>
    have unstarted := Client.unstarted_of_hasConnector (by simpa using there)
    simp only [try_bind, try_lift, ends_spawn]
    have asked : Calls s (s.shift (Environment.spawn s.outside).2) := .single (.outside s _)
    split
    · exact asked.tail (.started _ alive unstarted)
    · exact asked.tail (.spoilt _ alive unstarted)

/-- A thread that cannot be spawned takes the connector with it, and nothing else. -/
theorem start_spoils : Ends start.run s fun answer s' => answer = .error .noThread →
    s'.client = { s.client with spoilt := true } ∧ s'.log = s.log := by
  unfold start ensureAlive
  simp only [try_bind, try_lift, ends_client]
  split
  · exact fun failed => by cases failed
  · rw [try_pure]
    dsimp only
    split
    · exact fun failed => by cases failed
    · simp only [try_bind, try_lift, ends_spawn]
      split
      · exact fun failed => by cases failed
      · exact fun _ => ⟨rfl, rfl⟩

/-- Without its connector a client is not started any more. -/
theorem start_of_spoilt (alive : s.client.destroyed = false) (spoilt : s.client.spoilt = true) :
    Ends start.run s fun answer s' => answer = .error .invalidState ∧ s' = s := by
  unfold start ensureAlive
  simp only [try_bind, try_lift, ends_client]
  split
  next destroyed => cases alive.symm.trans destroyed
  · rw [try_pure]
    dsimp only
    split
    · exact ⟨rfl, rfl⟩
    next there => exact absurd there (by simp [Client.hasConnector, spoilt])

/-- A destroyed client that was never started stays so. -/
theorem unstarted_of_calls {s s' : System σ} (calls : Calls s s')
    (undone : s.client.destroyed = true ∧ s.client.phase = .init) :
    s'.client.destroyed = true ∧ s'.client.phase = .init := by
  induction calls with
  | refl => exact undone
  | tail _ move ih =>
    cases move with
    | started alive _ | condemned alive _ | undone alive _ => simp [ih.1] at alive
    | requested began _ alive | refused _ alive | sent _ _ alive => simp [ih.1] at alive
    | _ => simpa [Client.release, Client.giveUp, Client.under, Client.passOver] using ih

theorem destroy_calls (raises : Raises raise) :
    Ends (destroy raise).run s fun _ s' => Calls s s' := by
  unfold destroy
  refine after_ensureAlive (fun alive => ?_) fun _ _ => .refl
  simp only [try_lift, ends_bind, ends_update, ends_client]
  split
  next early =>
    rw [ends_bind]
    apply (raises _ .destroying).imp
    intro _ s' calls
    rw [ends_release]
    have begun : Calls s s' := .head (.undone s alive early) calls
    obtain ⟨destroyed, phase⟩ := unstarted_of_calls calls ⟨rfl, early⟩
    exact begun.tail (.released s' destroyed phase)
  next late => exact .single (.condemned s alive late)

theorem discard_calls (raises : Raises raise) (awaits : AckKind) (id : UInt16) :
    Ends (discard raise awaits id).run s fun _ s' => Calls s s' := by
  unfold discard
  simp only [try_bind, try_lift, ends_draw]
  cases removed : (s.client.pending.remove awaits id).1 with
  | none =>
    have same : (s.change fun c => { c with pending := (c.pending.remove awaits id).2 }) = s :=
      System.change_self (by rw [Pending.remove_of_none removed])
    rw [try_throw, same]
  | some t =>
    have given := CallMove.discarded s removed
    unfold Client.giveUp at given
    rw [try_lift]
    split
    next request =>
      simp only [if_pos request] at given
      rw [ends_bind, ends_update]
      exact (raises _ _).imp fun _ _ calls => .head given calls
    next message =>
      simp only [if_neg message] at given
      exact (raises _ _).imp fun _ _ calls => .head given calls

theorem configure_calls (settings : List Config.Setting) :
    Ends (configure settings).run s fun _ s' => Calls s s' := by
  unfold configure
  simp only [try_bind, try_lift, ends_client]
  cases sound : (s.client.config.setAll settings).validate with
  | error fault => exact .refl
  | ok u => exact .single (.configured s sound)

theorem join_calls (caller : Caller) : Ends (join caller) s fun _ s' => Calls s s' := by
  unfold join
  rw [ends_bind, ends_client]
  split
  · exact .refl
  next there =>
    cases caller with
    | thread => exact .refl
    | application =>
      exact .single (.awaited s (Client.started_of_hasHandle (by simpa using there)))

theorem tryJoin_calls (caller : Caller) : Ends (tryJoin caller) s fun _ s' => Calls s s' := by
  unfold tryJoin
  simp only [ends_bind, ends_client]
  split
  · exact .refl
  · exact join_calls caller

omit [Environment σ] in
theorem makeWill_stays (topic : String) (payload : Bytes) (qos : Qos) (retain : Bool) :
    Ends (makeWill topic payload qos retain).run s fun _ s' => s' = s := by
  unfold makeWill
  split <;> rfl

/-- What a call does is a walk, if raising events is. -/
theorem perform_calls (raises : Raises raise) (caller : Caller) (c : Call) :
    Ends (perform raise caller c) s fun _ s' => Calls s s' := by
  cases c <;> simp only [perform, ends_answer]
  case start => exact start_calls
  case destroy => exact destroy_calls raises
  case join => exact join_calls caller
  case tryJoin => exact tryJoin_calls caller
  case reconnect =>
    refine after_ensureAlive (fun _ => ?_) fun _ _ => .refl
    refine after_ensureStarted (fun _ => ?_) fun _ _ => .refl
    exact .single (.asked s Control.noConfusion)
  case disconnect notify =>
    refine after_ensureAlive (fun _ => ?_) fun _ _ => .refl
    refine after_ensureStarted (fun _ => ?_) fun _ _ => .refl
    exact .single (.asked s Control.noConfusion)
  case subscribe filter qos => exact subscribe_calls _
  case subscribeAll filters => exact subscribe_calls filters
  case unsubscribe filter => exact unsubscribe_calls _
  case unsubscribeAll filters => exact unsubscribe_calls filters
  case publish topic payload qos retain => exact publish_calls topic payload qos retain
  case discard awaits id => exact discard_calls raises awaits id
  case configure settings => exact configure_calls settings
  case makeWill topic payload qos retain =>
    exact (makeWill_stays topic payload qos retain).imp fun _ _ same => same ▸ .refl
  case setWill will => exact .single (.willed s will)
  case enable mask => exact .single (.masked s _)
  case disable mask => exact .single (.masked s _)
  all_goals exact .refl

end Raising

/-! ## Callbacks -/

theorem carryOut_calls {respond : Call → Act σ Reply} (caller : Caller) (plan : Plan)
    (responds : ∀ (s : System σ) c, Ends (respond c) s fun _ s' => Calls s s') :
    Ends (carryOut respond caller plan) s fun _ s' => Calls s s' := by
  induction plan generalizing s with
  | finish => exact .refl
  | call c heeded next ih =>
    unfold carryOut
    rw [ends_bind]
    apply (responds s c).imp
    intro reply s' calls
    rw [ends_bind, ends_note]
    exact (ih reply).imp fun _ _ later =>
      (calls.tail (.remarked s' (.reacted caller c heeded reply) trivial)).trans later
  | wait ms next ih =>
    unfold carryOut
    rw [ends_bind, ends_wait, ends_bind, ends_note]
    have waited : Calls s (s.shift (Environment.wait s.outside ms).2) := .single (.outside s _)
    exact (ih _).imp fun _ _ later =>
      (waited.tail (.remarked _ (.waited caller ms _) trivial)).trans later

/-- Raising an event is a walk, however deep callbacks nest. -/
theorem raiseAt_calls (depth : Nat) (caller : Caller) : Raises (raiseAt (σ := σ) depth caller) := by
  induction depth with
  | zero => exact fun s e => .refl
  | succ depth ih =>
    intro s e
    unfold raiseAt
    rw [ends_bind, ends_announce]
    split
    · rw [ends_bind, ends_react]
      refine (carryOut_calls caller _ fun s c => perform_calls ih caller c).imp fun _ _ later => ?_
      exact .head (.outside _ _) later
    · exact .refl

theorem raise_calls (caller : Caller) : Raises (raise (σ := σ) caller) :=
  raiseAt_calls _ caller

theorem tell_calls (e : Event) : Ends (tell e) s fun _ s' => Calls (s.announce e) s' :=
  raise_calls .thread s e

/-- A call of the application is a walk. -/
theorem call_calls (c : Call) : Ends (call c) s fun _ s' => Calls s s' := by
  unfold call
  rw [ends_bind]
  apply (perform_calls (raise_calls .application) .application c).imp
  intro reply s' calls
  exact calls.tail (.remarked s' (.called c reply) trivial)

end Act

end Mqtt
