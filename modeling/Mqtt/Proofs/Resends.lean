import Mqtt.Proofs.Lineup
import Mqtt.Proofs.Staging

/-!
# What a session begins with

When the broker has accepted a session, what is pending of messages is sent once more, in the
order in which it waits, before the application is told.  `Act.Calmly` says what an action
comes to when no callback makes a call meanwhile; `Round` is how some packets go out one after
the other over a transport that may fail.
-/

namespace Mqtt

/-- Whether an event says that a session began or is over. -/
def Event.IsTurn : Event → Prop
  | .connected _ | .disconnected _ => True
  | _ => False

namespace Entry

/-- Whether a callback made a call. -/
def IsReaction : Entry → Prop
  | .reacted .. => True
  | _ => False

/-- Whether a callback let time go by. -/
def IsPause : Entry → Prop
  | .waited .. => True
  | _ => False

/-- Whether an event arose that says that a session began or is over. -/
def IsTurn : Entry → Prop
  | .raised e _ _ => e.IsTurn
  | _ => False

/-- The offer that was made. -/
def attempt? : Entry → Option Transport.Attempt
  | .sent a => some a
  | _ => none

/-- The offers that some entries tell of, the first one first. -/
def attempts (entries : List Entry) : List Transport.Attempt :=
  entries.reverse.filterMap attempt?

theorem attempts_append (new log : List Entry) :
    attempts (new ++ log) = attempts log ++ attempts new := by
  unfold attempts
  rw [List.reverse_append, List.filterMap_append]

theorem attempts_of_none {entries : List Entry} (none : ∀ e ∈ entries, e.attempt? = none) :
    attempts entries = [] :=
  List.filterMap_eq_nil_iff.2 fun e member => none e (List.mem_reverse.1 member)

theorem attempts_sent (offers : List Transport.Attempt) :
    attempts (offers.map Entry.sent).reverse = offers := by
  unfold attempts
  rw [List.reverse_reverse, List.filterMap_map]
  exact List.filterMap_some

theorem IsPause.attempt? {e : Entry} (pause : e.IsPause) : e.attempt? = none := by
  cases e <;> first | rfl | exact absurd pause id

theorem IsPause.not_isTurn {e : Entry} (pause : e.IsPause) : ¬ e.IsTurn := by
  cases e <;> first | exact id | exact absurd pause id

end Entry

/-- How some packets go out one after the other: each of them is sent once, and goes out, is
given up when its time is over, or finds the transport broken, which ends the round. -/
inductive Round : List Bytes → List Transport.Attempt → Bool → Prop
  | done : Round [] [] false
  | sent {packet : Bytes} {rest : List Bytes} {first later : List Transport.Attempt}
      {broken : Bool} : first ≠ [] → Transport.Course packet packet (.ok ()) first →
    Round rest later broken → Round (packet :: rest) (first ++ later) broken
  | late {packet : Bytes} {rest : List Bytes} {first later : List Transport.Attempt}
      {broken : Bool} : first ≠ [] → Transport.Course packet packet (.error .timeout) first →
    Round rest later broken → Round (packet :: rest) (first ++ later) broken
  | broke {packet : Bytes} {rest : List Bytes} {first : List Transport.Attempt}
      {e : Transport.Error} : first ≠ [] → e.isTimeout = false →
    Transport.Course packet packet (.error e) first → Round (packet :: rest) first true

/-- What is sent of a transaction when it is sent again. -/
def Transaction.sentAgain (t : Transaction) : Bytes :=
  (if t.awaits.isPublish then t.packet.markDup else t.packet).bytes

/-- What is sent again of the transactions when a session begins: all that is not about filters
and was not sent too often. -/
def Pending.sentAgain (p : Pending) (limit : UInt32) : List Bytes :=
  (p.all.filter fun t => !t.awaits.isRequest && decide (t.retries < limit)).map
    Transaction.sentAgain

/-- The packet that is to be sent. -/
def Action.packet? : Action → Option Bytes
  | .resend _ _ _ packet => some packet
  | _ => none

/-- What is to be sent of a transaction when all that is not about filters is looked after. -/
theorem Transaction.packet?_look (now limit : UInt32) (t : Transaction) :
    (t.look now limit true).2.bind Action.packet? =
      if !t.awaits.isRequest && decide (t.retries < limit) then some t.sentAgain else none := by
  unfold look
  cases request : t.awaits.isRequest with
  | true =>
    rw [Bool.not_true, Bool.false_and, if_neg Bool.false_ne_true]
    split
    · rfl
    · rfl
  | false =>
    have due : t.isDue now true = true := by
      unfold isDue
      rw [request, Bool.not_false, Bool.and_true, Bool.or_true]
    rw [due, Bool.not_true, if_neg Bool.false_ne_true, if_neg Bool.false_ne_true]
    dsimp only
    by_cases tired : limit ≤ t.retries
    · have often : ¬ t.retries < limit := UInt32.not_lt.2 tired
      rw [if_pos (show limit ≤ (t.again now).retries from tired), if_neg (by simp [often])]
      rfl
    · have seldom : t.retries < limit := UInt32.not_le.1 tired
      rw [if_neg (show ¬ limit ≤ (t.again now).retries from tired), if_pos (by simp [seldom])]
      rfl

theorem Pending.packets_scan {p : Pending} (settled : p.staged = []) (now limit : UInt32) :
    (p.scan now limit true).1.filterMap Action.packet? = p.sentAgain limit := by
  have all : p.all = p.active := by
    unfold all
    rw [settled, List.reverse_nil, List.append_nil]
  rw [scan_eq_looks]
  unfold sentAgain
  rw [all]
  dsimp only
  induction p.active with
  | nil => rfl
  | cons t ts ih =>
    have first := t.packet?_look now limit
    rw [List.filterMap_cons, List.filter_cons]
    cases looked : (t.look now limit true).2 with
    | none =>
      rw [looked] at first
      split at first
      · cases first
      next skipped =>
        rw [if_neg skipped]
        exact ih
    | some action =>
      rw [looked, Option.bind_some] at first
      dsimp only
      rw [List.filterMap_cons, first]
      split
      next none =>
        split at none
        · cases none
        next skipped =>
          rw [if_neg skipped]
          exact ih
      next packet asked =>
        split at asked
        next chosen =>
          cases asked
          rw [if_pos chosen, List.map_cons, ih]
        · cases asked

theorem Pending.sentAgain_migrate {p : Pending} (distinct : p.Distinct) (limit : UInt32) :
    p.migrate.2.sentAgain limit = p.sentAgain limit := by
  unfold sentAgain
  rw [migrate_all distinct]

/-- What is sent again is never empty. -/
theorem Pending.Sane.sentAgain_ne_nil {p : Pending} (sane : p.Sane) (limit : UInt32) :
    ∀ packet ∈ p.sentAgain limit, packet ≠ [] := by
  have settled : p.migrate.2.staged = [] := by rw [migrate_of_distinct sane.distinct]
  rw [← sentAgain_migrate sane.distinct, ← packets_scan settled 0 limit]
  intro packet asked
  obtain ⟨action, looked, sent⟩ := List.mem_filterMap.1 asked
  obtain ⟨t, active, own⟩ := mem_scan_actions.1 looked
  cases action with
  | resend kind id retries =>
    cases sent
    have again := (sane.migrate.sound t (mem_all.2 (Or.inl active))).resendable own
    obtain ⟨q, whole, -⟩ := again.parse?
    exact Packet.ne_nil_of_parse? whole
  | warn | expire => cases sent

/-! ## Without calls of callbacks -/

variable {σ : Type}

/-- Whether no callback made a call from one system to another. -/
def Passive (s s' : System σ) : Prop :=
  Writes (fun e => ¬ e.IsReaction) s s'

theorem Passive.split {s s' s'' : System σ} (h : Passive s s'') (first : s.log <:+ s'.log)
    (later : s'.log <:+ s''.log) : Passive s s' ∧ Passive s' s'' := by
  obtain ⟨all, log, passive⟩ := h
  obtain ⟨new, log'⟩ := first
  obtain ⟨newer, log''⟩ := later
  have same : all ++ s.log = newer ++ new ++ s.log := by
    rw [← log, ← log'', ← log', List.append_assoc]
  obtain rfl := List.append_cancel_right same
  exact ⟨⟨new, log'.symm, fun e member => passive e (List.mem_append_right _ member)⟩,
    ⟨newer, log''.symm, fun e member => passive e (List.mem_append_left _ member)⟩⟩

theorem Passive.of_all {s s' : System σ} (new : List Entry) (log : s'.log = new ++ s.log)
    (quiet : new.all (fun | .reacted .. => false | _ => true) = true) : Passive s s' := by
  refine ⟨new, log, fun e member reaction => ?_⟩
  have other := List.all_eq_true.1 quiet e member
  cases e <;> first | exact reaction | cases other

/-- Whether the application was told of an event and did no more than let time go by. -/
def Lets (e : Event) (s s' : System σ) : Prop :=
  s'.client = s.client ∧ Writes Entry.IsPause (s.announce e) s'

/-- Whether some offers were made from one system to another, with no session begun or lost
meanwhile. -/
structure Offered (offers : List Transport.Attempt) (s s' : System σ) : Prop where
  linked : s'.client.linked = s.client.linked
  config : s'.client.config = s.client.config
  log : ∃ new, s'.log = new ++ s.log ∧ Entry.attempts new = offers ∧ ∀ e ∈ new, ¬ e.IsTurn

namespace Offered

variable {s s' s'' : System σ} {first later : List Transport.Attempt}

theorem of_log (log : s'.log = s.log) (linked : s'.client.linked = s.client.linked)
    (config : s'.client.config = s.client.config) : Offered [] s s' :=
  ⟨linked, config, [], log, rfl, fun _ none => by cases none⟩

theorem trans (h : Offered first s s') (h' : Offered later s' s'') :
    Offered (first ++ later) s s'' := by
  obtain ⟨new, log, offers, inside⟩ := h.log
  obtain ⟨newer, log', offers', inside'⟩ := h'.log
  refine ⟨h'.linked.trans h.linked, h'.config.trans h.config, newer ++ new, ?_, ?_, ?_⟩
  · rw [log', log, List.append_assoc]
  · rw [Entry.attempts_append, offers, offers']
  · exact fun e member => (List.mem_append.1 member).elim (inside' e) (inside e)

/-- What writes nothing may come first. -/
theorem earlier (h : Offered later s' s'') (log : s'.log = s.log)
    (linked : s'.client.linked = s.client.linked)
    (config : s'.client.config = s.client.config) : Offered later s s'' :=
  (of_log log linked config).trans h

theorem of_lets {e : Event} (lets : Lets e s s') (inside : ¬ e.IsTurn) : Offered [] s s' := by
  obtain ⟨client, new, log, pauses⟩ := lets
  have told :
      Entry.attempts (new ++ [.raised e s.client (s.client.mask.contains e.kind)]) = [] := by
    rw [Entry.attempts_append, Entry.attempts_of_none fun x member => (pauses x member).attempt?]
    rfl
  refine ⟨by rw [client], by rw [client], _, ?_, told, fun x member => ?_⟩
  · rw [log, List.append_assoc]
    rfl
  · rcases List.mem_append.1 member with pause | own
    · exact (pauses x pause).not_isTurn
    · cases List.mem_singleton.1 own
      exact inside

theorem afterSend [Environment σ] (s : System σ) (packet : Bytes) :
    Offered (s.offers packet) s (s.afterSend packet) := by
  refine ⟨by simp, by simp, _, s.afterSend_log packet, Entry.attempts_sent _, ?_⟩
  intro e member
  obtain ⟨a, -, rfl⟩ := List.mem_map.1 (List.mem_reverse.1 member)
  exact id

end Offered

namespace Act

variable {α β : Type} {s : System σ}

/-- What an action comes to: it writes to the log and, if no callback makes a call meanwhile,
`Q` holds. -/
def Calmly (action : Act σ α) (s : System σ) (Q : α → System σ → Prop) : Prop :=
  Ends action s fun a s' => s.log <:+ s'.log ∧ (Passive s s' → Q a s')

namespace Calmly

variable {x : Act σ α} {f : α → Act σ β} {Q R : α → System σ → Prop} {P : β → System σ → Prop}

theorem imp (h : Calmly x s Q) (weaken : ∀ a s', Q a s' → R a s') : Calmly x s R :=
  Ends.imp h fun _ _ ended => ended.imp_right fun calm passive => weaken _ _ (calm passive)

theorem bind (first : Calmly x s Q)
    (next : ∀ a s₁, Calmly (f a) s₁ fun b s' => Q a s₁ → P b s') : Calmly (x >>= f) s P := by
  unfold Calmly
  rw [ends_bind]
  refine Ends.imp first fun a s₁ ⟨earlier, calm⟩ => ?_
  refine Ends.imp (next a s₁) fun b s' ⟨later, goesOn⟩ => ?_
  refine ⟨earlier.trans later, fun passive => ?_⟩
  obtain ⟨before, after⟩ := passive.split earlier later
  exact goesOn after (calm before)

theorem both (h : Calmly x s Q) (h' : Calmly x s R) : Calmly x s fun a s' => Q a s' ∧ R a s' :=
  ⟨h.1, fun passive => ⟨h.2 passive, h'.2 passive⟩⟩

theorem logged (h : Calmly x s Q) : Calmly x s fun a s' => s.log <:+ s'.log ∧ Q a s' :=
  Ends.imp h fun _ _ ended => ⟨ended.1, fun passive => ⟨ended.1, ended.2 passive⟩⟩

/-- What writes nothing gives no occasion to callbacks. -/
theorem silent (h : Ends x s fun a s' => s'.log = s.log ∧ Q a s') : Calmly x s Q :=
  Ends.imp h fun _ _ ⟨log, ended⟩ => ⟨log ▸ List.suffix_refl _, fun _ => ended⟩

end Calmly

theorem note_calmly (e : Entry) :
    Calmly (note e) s fun _ s' => s' = s.note e ∧ ¬ e.IsReaction := by
  refine ⟨List.suffix_cons _ _, fun passive => ⟨rfl, ?_⟩⟩
  obtain ⟨new, log, own⟩ := passive
  change [e] ++ s.log = new ++ s.log at log
  exact own e (List.append_cancel_right log ▸ List.mem_cons_self)

variable [Environment σ]

/-- A callback that makes no call lets time go by. -/
theorem carryOut_calmly {respond : Call → Act σ Reply} (caller : Caller) (plan : Plan)
    (responds : ∀ (s : System σ) c, Ends (respond c) s fun _ s' => Calls s s') :
    Calmly (carryOut respond caller plan) s fun _ s' =>
      s'.client = s.client ∧ Writes Entry.IsPause s s' := by
  induction plan generalizing s with
  | finish => exact ⟨List.suffix_refl _, fun _ => ⟨rfl, .of_log rfl⟩⟩
  | call c heeded next ih =>
    have answered : Calmly (respond c) s fun _ _ => True :=
      (responds s c).imp fun _ _ calls => ⟨calls.sparesStaged.log, fun _ => trivial⟩
    unfold carryOut
    -- the call stands in the log, so this is no run without calls
    refine answered.bind fun reply s₁ => (note_calmly _).bind fun _ s₂ => ?_
    exact (ih reply).imp fun _ _ _ told => absurd trivial told.2
  | wait ms next ih =>
    have waited : Calmly (wait ms) s fun reading s₁ =>
        s₁ = s.shift (Environment.wait s.outside ms).2 := .silent ⟨rfl, rfl⟩
    unfold carryOut
    refine waited.bind fun reading s₁ => (note_calmly _).bind fun _ s₂ => ?_
    refine (ih reading).imp ?_
    rintro _ s' ⟨client, pauses⟩ ⟨rfl, -⟩ rfl
    have first : Writes Entry.IsPause s ((s.shift (Environment.wait s.outside ms).2).note
        (.waited caller ms reading)) := .of_entry rfl trivial
    exact ⟨client, first.trans pauses⟩

/-- The application is told of an event, and a callback that makes no call lets it be. -/
theorem raiseAt_calmly (depth : Nat) (caller : Caller) (e : Event) :
    Calmly (raiseAt depth caller e) s fun _ s' => Lets e s s' := by
  have announced : Calmly (announce e) s fun _ s₁ => s₁ = s.announce e :=
    ⟨List.suffix_cons _ _, fun _ => rfl⟩
  cases depth with
  | zero =>
    unfold raiseAt
    refine announced.bind fun _ s₁ => .silent ⟨rfl, ?_⟩
    rintro rfl
    exact ⟨rfl, .of_log rfl⟩
  | succ depth =>
    unfold raiseAt
    refine announced.bind fun delivered s₁ => ?_
    split
    · have reacted : Calmly (react e) s₁ fun _ s₂ => ∃ outside, s₂ = s₁.shift outside :=
        .silent ⟨rfl, _, rfl⟩
      refine reacted.bind fun plan s₂ => ?_
      refine (carryOut_calmly caller plan fun s c =>
        perform_calls (raiseAt_calls depth caller) caller c).imp fun _ s' ended => ?_
      rintro ⟨outside, rfl⟩ rfl
      exact ended
    · refine .silent ⟨rfl, ?_⟩
      rintro rfl
      exact ⟨rfl, .of_log rfl⟩

theorem tell_calmly (e : Event) : Calmly (tell e) s fun _ s' => Lets e s s' :=
  raiseAt_calmly _ .thread e

/-! ## Looking after what is due -/

theorem tell_offered {e : Event} (inside : ¬ e.IsTurn) :
    Calmly (tell e) s fun _ s' => Offered [] s s' :=
  (tell_calmly e).imp fun _ _ lets => .of_lets lets inside

omit [Environment σ] in
theorem forM_offered {f : α → Act σ Unit}
    (each : ∀ (a : α) (s : System σ), Calmly (f a) s fun _ s' => Offered [] s s') (as : List α) :
    Calmly (as.forM f) s fun _ s' => Offered [] s s' := by
  induction as generalizing s with
  | nil => exact .silent ⟨rfl, .of_log rfl rfl rfl⟩
  | cons a as ih =>
    change Calmly (f a >>= fun _ => as.forM f) s _
    exact (each a s).bind fun _ s₁ => ih.imp fun _ _ later first => first.trans later

omit [Environment σ] in
theorem takeListed_offered (id : UInt16) :
    Calmly (takeListed id) s fun _ s' => Offered [] s s' :=
  .silent ⟨rfl, .of_log rfl rfl rfl⟩

theorem expire_offered (t : Transaction) : Calmly (expire t) s fun _ s' => Offered [] s s' := by
  unfold expire
  refine (takeListed_offered t.packetId).bind fun listed s₁ => ?_
  refine (forM_offered (fun (subject : Subject) s => ?_) _).imp fun _ _ later first =>
    first.trans later
  split
  · exact tell_offered id
  · exact tell_offered id

theorem transmit_calmly (packet : Bytes) :
    Calmly (transmit packet).run s fun r s' =>
      r = s.sendResult packet ∧ s' = s.afterSend packet :=
  try_transmit.2 ⟨⟨_, (s.afterSend_log packet).symm⟩, fun _ => ⟨rfl, rfl⟩⟩

/-- Once the transport broke nothing more is sent. -/
theorem carryActions_lost (actions : List Action) (e : Error) :
    Calmly (carryActions (some e) actions) s fun failure s' =>
      failure = some e ∧ Offered [] s s' := by
  induction actions generalizing s with
  | nil => exact .silent ⟨rfl, rfl, .of_log rfl rfl rfl⟩
  | cons a rest ih =>
    cases a with
    | warn kind own retries =>
      rw [carryActions]
      exact (tell_offered id).bind fun _ _ => ih.imp fun _ _ lost first =>
        lost.imp_right first.trans
    | expire t =>
      rw [carryActions]
      exact (expire_offered t).bind fun _ _ => ih.imp fun _ _ lost first =>
        lost.imp_right first.trans
    | resend kind own retries packet => exact ih

/-- What sending a packet over an open transport comes to. -/
theorem offers_course (linked : s.client.linked = true)
    (time : s.client.config.commandTimeout.toNat ≠ 0) {packet : Bytes} (more : packet ≠ []) :
    s.offers packet ≠ [] ∧
      (s.sendResult packet = .ok () ∧
          Transport.Course packet packet (.ok ()) (s.offers packet) ∨
        ∃ e, s.sendResult packet = .error (.transport e) ∧
          Transport.Course packet packet (.error e) (s.offers packet)) := by
  have offers : s.offers packet = (s.sending packet).attempts := if_pos linked
  have course : Transport.Course packet packet (s.sending packet).result
      (s.sending packet).attempts := Transport.sendAll_course _ _ _ _
  obtain ⟨first, later, some, -⟩ :=
    Transport.sendAll_opens Environment.offer s.outside more time
  have made : (s.sending packet).attempts = first :: later := some
  rw [offers]
  refine ⟨by rw [made]; exact List.cons_ne_nil _ _, ?_⟩
  rcases System.sendResult_of_linked linked packet with ⟨ended, sent⟩ | ⟨e, ended, failed⟩
  · rw [ended] at course
    exact Or.inl ⟨sent, course⟩
  · rw [ended] at course
    exact Or.inr ⟨e, failed, course⟩

theorem offers_sent (linked : s.client.linked = true)
    (time : s.client.config.commandTimeout.toNat ≠ 0) {packet : Bytes} (more : packet ≠ [])
    (sent : s.sendResult packet = .ok ()) :
    s.offers packet ≠ [] ∧ Transport.Course packet packet (.ok ()) (s.offers packet) := by
  obtain ⟨some, ⟨-, course⟩ | ⟨e, failed, -⟩⟩ := offers_course linked time more
  · exact ⟨some, course⟩
  · cases sent.symm.trans failed

theorem offers_failed (linked : s.client.linked = true)
    (time : s.client.config.commandTimeout.toNat ≠ 0) {packet : Bytes} (more : packet ≠ [])
    {e : Error} (failed : s.sendResult packet = .error e) :
    s.offers packet ≠ [] ∧ ∃ e', e = .transport e' ∧
      Transport.Course packet packet (.error e') (s.offers packet) := by
  obtain ⟨some, ⟨sent, -⟩ | ⟨e', failed', course⟩⟩ := offers_course linked time more
  · cases sent.symm.trans failed
  · exact ⟨some, e', Except.error.inj (failed.symm.trans failed'), course⟩

/-- What a round comes to over a transport that is open. -/
def Rounds (packets : List Bytes) (failure : Option Error) (s s' : System σ) : Prop :=
  s.client.linked = true → s.client.config.commandTimeout.toNat ≠ 0 →
    (∀ packet ∈ packets, packet ≠ []) →
    ∃ offers, Round packets offers failure.isSome ∧ Offered offers s s'

namespace Rounds

variable {s₁ s' : System σ} {packet : Bytes} {rest : List Bytes} {failure : Option Error}

omit [Environment σ] in
theorem earlier (h : Rounds rest failure s₁ s') (first : Offered [] s s₁) :
    Rounds rest failure s s' := by
  intro linked time more
  obtain ⟨offers, round, later⟩ := h (first.linked.trans linked) (by rwa [first.config]) more
  exact ⟨offers, round, first.trans later⟩

/-- The round goes on after a packet unless the transport broke. -/
theorem cons (mild : ∀ e, s.sendResult packet = .error e → e.isFatal = false)
    (first : Offered (s.offers packet) s s₁) (h : Rounds rest failure s₁ s') :
    Rounds (packet :: rest) failure s s' := by
  intro linked time more
  obtain ⟨offers, round, later⟩ := h (first.linked.trans linked) (by rwa [first.config])
    fun p member => more p (.tail _ member)
  refine ⟨_, ?_, first.trans later⟩
  obtain ⟨some, ⟨-, course⟩ | ⟨e, failed, course⟩⟩ :=
    offers_course linked time (more packet List.mem_cons_self)
  · exact .sent some course round
  · obtain rfl : e = .timeout := by
      have late := mild _ failed
      cases e <;> first | rfl | cases late
    exact .late some course round

/-- The round ends with a packet once the transport broke. -/
theorem broke {e : Error} (failed : s.sendResult packet = .error e) (fatal : e.isFatal = true)
    (first : Offered (s.offers packet) s s') : Rounds (packet :: rest) (some e) s s' := by
  intro linked time more
  refine ⟨_, ?_, first⟩
  obtain ⟨some, e', rfl, course⟩ :=
    offers_failed linked time (more packet List.mem_cons_self) failed
  have hard : e'.isTimeout = false := by simpa [Error.isFatal] using fatal
  exact .broke some hard course

end Rounds

/-- What is due is sent in one round. -/
theorem carryActions_round (actions : List Action) :
    Calmly (carryActions none actions) s fun failure s' =>
      Rounds (actions.filterMap Action.packet?) failure s s' := by
  induction actions generalizing s with
  | nil => exact .silent ⟨rfl, fun _ _ _ => ⟨[], .done, .of_log rfl rfl rfl⟩⟩
  | cons a rest ih =>
    cases a with
    | warn kind own retries =>
      rw [carryActions]
      exact (tell_offered id).bind fun _ s₁ => ih.imp fun _ _ later told => later.earlier told
    | expire t =>
      rw [carryActions]
      exact (expire_offered t).bind fun _ s₁ => ih.imp fun _ _ later told => later.earlier told
    | resend kind own retries packet =>
      rw [carryActions]
      refine (transmit_calmly packet).bind fun result s₁ => ?_
      have first := Offered.afterSend s packet
      cases result with
      | ok u =>
        refine (tell_offered id).bind fun _ s₂ => ih.imp fun failure s' later told => ?_
        rintro ⟨sent, rfl⟩
        have resent := first.trans told
        rw [List.append_nil] at resent
        exact later.cons (fun e failed => by cases sent.trans failed) resent
      | error e =>
        -- a packet that is late is left to the next look, any other failure ends the round
        dsimp only
        split
        next fatal =>
          refine (carryActions_lost rest e).imp fun failure s' => ?_
          rintro ⟨rfl, lost⟩ ⟨failed, rfl⟩
          have broken := first.trans lost
          rw [List.append_nil] at broken
          exact .broke failed.symm fatal broken
        next mild =>
          refine ih.imp fun failure s' later => ?_
          rintro ⟨failed, rfl⟩
          refine later.cons (fun e' failed' => ?_) first
          cases failed.trans failed'
          exact Bool.eq_false_iff.2 mild

/-- What is looked after in order to begin a session is sent in one round. -/
theorem scan_round : Calmly (scan true) s fun failure s' =>
    s.client.pending.staged = [] →
    Rounds (s.client.pending.sentAgain s.client.config.retryWarning) failure s s' := by
  unfold Calmly scan
  rw [ends_bind, ends_client, ends_bind, ends_now, ends_bind, ends_draw]
  refine Ends.imp (carryActions_round _) fun failure s' ⟨log, carried⟩ => ⟨log, fun passive => ?_⟩
  intro settled
  rw [← Pending.packets_scan settled (Environment.now s.outside).1]
  exact (carried passive).earlier (.of_log rfl rfl rfl)

/-! ## Beginning a session -/

theorem migrate_offered : Calmly migrate s fun _ s' =>
    Offered [] s s' ∧ s'.client.pending = s.client.pending.migrate.2 := by
  unfold Calmly migrate
  rw [ends_bind, ends_draw]
  cases s.client.pending.migrate.1 with
  | none => exact ⟨List.suffix_refl _, fun _ => ⟨.of_log rfl rfl rfl, rfl⟩⟩
  | some count =>
    refine Ends.imp (tell_calmly _) fun _ s' ⟨log, calm⟩ => ⟨log, fun passive => ?_⟩
    have lets := calm passive
    have told := Offered.of_lets (e := .pendingWarning count) lets id
    refine ⟨told.earlier rfl rfl rfl, ?_⟩
    rw [lets.1]
    rfl

end Act

/-- How a session begins once the broker accepted it: some packets go out one after the other,
and then the application is told that the session began or, if the transport broke, that it is
lost. -/
inductive Begins (sessionPresent : Bool) (packets : List Bytes) (s s' : System σ) : Prop
  | connected {offers : List Transport.Attempt} {s₁ s₂ : System σ} :
    Round packets offers false → Offered offers s s₁ → Lets (.connected sessionPresent) s₁ s₂ →
    Writes (fun e => ¬ e.IsTurn) s₂ s' → Begins sessionPresent packets s s'
  | lost {offers : List Transport.Attempt} {s₁ : System σ} :
    Round packets offers true → Offered offers s s₁ →
    Lets (.disconnected .networkFailure)
      (s₁.close.change fun c => { c with phase := .disconnected }) s' →
    Begins sessionPresent packets s s'

theorem Begins.earlier {s' s'' : System σ} {sessionPresent : Bool} {packets : List Bytes}
    (h : Begins sessionPresent packets s' s'') (first : Offered [] s s') :
    Begins sessionPresent packets s s'' := by
  cases h with
  | connected round offered told later => exact .connected round (first.trans offered) told later
  | lost round offered told => exact .lost round (first.trans offered) told

theorem Entry.OfCall.not_isTurn {e : Entry} (h : e.OfCall) : ¬ e.IsTurn := by
  cases e with
  | raised event => cases event <;> first | exact id | exact absurd h id
  | _ => exact id

namespace Act

variable [Environment σ] {s : System σ}

theorem readEnded_offered : Calmly readEnded s fun _ s' =>
    Offered [] s s' ∧ s'.client.pending = s.client.pending.migrate.2 := by
  have moved : Calmly (goTo .running) s fun _ s' =>
      s' = s.change fun c => { c with place := .running } := .silent ⟨rfl, rfl⟩
  unfold readEnded
  refine moved.bind fun _ s₁ => migrate_offered.imp ?_
  rintro _ s' ⟨offered, pending⟩ rfl
  exact ⟨offered.earlier rfl rfl rfl, pending⟩

/-- The transactions are looked after in the order in which they wait. -/
theorem look_round : Calmly (migrate >>= fun _ => scan true) s fun failure s' =>
    s.client.pending.Distinct →
    Rounds (s.client.pending.sentAgain s.client.config.retryWarning) failure s s' := by
  refine migrate_offered.bind fun _ s₁ => scan_round.imp fun failure s' looked => ?_
  rintro ⟨first, pending⟩ distinct
  have settled : s.client.pending.migrate.2.staged = [] := by
    rw [Pending.migrate_of_distinct distinct]
  rw [pending, first.config, Pending.sentAgain_migrate distinct] at looked
  exact (looked settled).earlier first

theorem lose_calmly (reason : DisconnectReason) : Calmly (lose reason) s fun _ s' =>
    Lets (.disconnected reason) (s.close.change fun c => { c with phase := .disconnected }) s' := by
  have closed : Calmly close s fun _ s' => s' = s.close := by
    unfold Calmly
    rw [ends_close]
    obtain ⟨new, log, -⟩ := Writes.close (P := fun _ => True) s trivial
    exact ⟨⟨new, log.symm⟩, fun _ => rfl⟩
  have entered (s : System σ) : Calmly (enter .disconnected) s fun _ s' =>
      s' = s.change fun c => { c with phase := .disconnected } := .silent ⟨rfl, rfl⟩
  unfold lose
  refine closed.bind fun _ s₁ => (entered s₁).bind fun _ s₂ => (tell_calmly _).imp ?_
  rintro _ s' told rfl rfl
  exact told

theorem resubscribe_calmly :
    Calmly resubscribe s fun _ s' => Writes (fun e => ¬ e.IsTurn) s s' := by
  have writes : Ends resubscribe s fun _ s' => Writes (fun e => ¬ e.IsTurn) s s' := by
    unfold resubscribe
    rw [ends_bind, ends_client]
    dsimp only
    split
    · exact .of_log rfl
    · rw [ends_bind]
      refine (perform_calls (raise_calls .thread) .thread _).imp fun reply s₁ calls => ?_
      rw [ends_note]
      exact (calls.entries.imp fun _ own => own.not_isTurn).trans (.of_entry rfl id)
  refine Ends.imp writes fun _ s' quiet => ⟨?_, fun _ => quiet⟩
  obtain ⟨new, log, -⟩ := quiet
  exact ⟨new, log.symm⟩

/-- A session begins with a look at the transactions; it is lost if that failed. -/
theorem openSession_calmly {Q : Option Error → System σ → Prop}
    {R : System σ → System σ → Prop} (sessionPresent : Bool)
    (looked : Calmly (migrate >>= fun _ => scan true) s.opening Q)
    (renews : ∀ t : System σ, Calmly (if sessionPresent then pure () else resubscribe) t
      fun _ s' => R t s') :
    Calmly (openSession sessionPresent) s fun _ s' =>
      (∃ e s₁, Q (some e) s₁ ∧ Lets (.disconnected .networkFailure) s₁.shut s') ∨
      ∃ s₁ s₂, Q none s₁ ∧ Lets (.connected sessionPresent) s₁ s₂ ∧ R s₂ s' := by
  unfold Calmly openSession
  rw [ends_bind, ends_client, ends_bind, ends_now, ends_bind, ends_update, ← bind_assoc]
  change Calmly _ s.opening _
  refine looked.bind fun failure s₁ => ?_
  cases failure with
  | some e =>
    exact (lose_calmly .networkFailure).imp fun _ s' lost failed => Or.inl ⟨e, s₁, failed, lost⟩
  | none =>
    refine (tell_calmly _).bind fun _ s₂ => (renews s₂).imp ?_
    exact fun _ s' later told went => Or.inr ⟨s₁, s₂, went, told, later⟩

theorem openSession_begins (sessionPresent : Bool) :
    Calmly (openSession sessionPresent) s fun _ s' =>
      s.client.pending.Sane → s.client.linked = true →
      s.client.config.commandTimeout.toNat ≠ 0 →
      Begins sessionPresent (s.client.pending.sentAgain s.client.config.retryWarning) s s' := by
  have opening : Offered [] s s.opening := .of_log rfl rfl rfl
  have renews (t : System σ) : Calmly (if sessionPresent then pure () else resubscribe) t
      fun _ s' => Writes (fun e => ¬ e.IsTurn) t s' := by
    split
    · exact .silent ⟨rfl, .of_log rfl⟩
    · exact resubscribe_calmly
  refine (openSession_calmly sessionPresent look_round renews).imp ?_
  intro _ s' opened sane linked time
  obtain ⟨e, s₁, looked, lost⟩ | ⟨s₁, s₂, looked, told, later⟩ := opened
  · obtain ⟨offers, round, offered⟩ := looked sane.distinct linked time (sane.sentAgain_ne_nil _)
    exact .lost round (opening.trans offered) lost
  · obtain ⟨offers, round, offered⟩ := looked sane.distinct linked time (sane.sentAgain_ne_nil _)
    exact .connected round (opening.trans offered) told later

/-- Once the broker accepted the session, what is pending goes out and the application is told
what came of it. -/
theorem accepted_begins (sessionPresent : Bool) :
    Calmly (readEnded >>= fun _ => openSession sessionPresent) s fun _ s' =>
      s.client.pending.Sane → s.client.linked = true →
      s.client.config.commandTimeout.toNat ≠ 0 →
      Begins sessionPresent (s.client.pending.sentAgain s.client.config.retryWarning) s s' := by
  refine readEnded_offered.bind fun _ s₁ => (openSession_begins sessionPresent).imp ?_
  rintro _ s' opened ⟨first, pending⟩ sane linked time
  rw [pending, first.config, first.linked, Pending.sentAgain_migrate sane.distinct] at opened
  exact (opened sane.migrate linked time).earlier first

/-- A publish call that is answered with an identifier dates its message, and leaves the dates
of all other identifiers. -/
theorem publish_dates (topic : String) (payload : Bytes) (qos : Qos) (retain : Bool) :
    Ends (publish topic payload qos retain).run s fun answer s' =>
      ∀ id, answer = .ok (some id) → s.log.length < Entry.sentAt id s'.log ∧
        ∀ other, other ≠ id → Entry.SameTimes other s.log s'.log := by
  have submitted {r : Request} (issued : r.Issued) (publish : r.awaits.isPublish = true) :
      Ends (do return some (← submit r) : Try σ (Option UInt16)).run s fun answer s' =>
        ∀ id, answer = .ok (some id) → s.log.length < Entry.sentAt id s'.log ∧
          ∀ other, other ≠ id → Entry.SameTimes other s.log s'.log := by
    rw [try_bind]
    refine (submit_submitted issued.isLocal).imp fun answer s' ended => ?_
    cases ended with
    | @requested outside own packet began free written sent =>
      rintro id ⟨⟩
      obtain ⟨q, whole, ⟨request, -⟩ | ⟨m, -, opens, others⟩⟩ := issued.opens written
      · exact absurd (AckKind.of_isRequest request).1 (by rw [publish]; exact Bool.noConfusion)
      · let f (c : Client) :=
          (c.passOver own).register began r.awaits own packet r.subject r.listed
        have done : ((s.shift outside).change f).sendResult packet = .ok () :=
          ((s.shift outside).sendResult_change packet rfl rfl).trans sent
        obtain ⟨latest, -, same⟩ := times_afterSend whole opens others done
        exact ⟨latest, same⟩
    | _ => exact fun _ answered => by cases answered
  unfold publish
  refine after_checkName ?_ fun e _ id answered => by cases answered
  refine after_ensureConnected (fun _ _ => ?_) fun e _ id answered => by cases answered
  cases qos with
  | atMostOnce =>
    have unnumbered : Ends (transmitPacket (Packet.Publish.put
        ⟨false, .atMostOnce, retain, topic, none, payload⟩)).run s fun _ _ => True := trivial
    rw [try_bind]
    refine unnumbered.imp fun answer s' _ => ?_
    cases answer with
    | error e => exact fun _ answered => by cases answered
    | ok u => exact fun _ answered => by cases answered
  | atLeastOnce => exact submitted (.atLeastOnce topic payload retain) rfl
  | exactlyOnce => exact submitted (.exactlyOnce topic payload retain) rfl

end Act

section

variable [Environment σ]

/-- **Resends.**  Every publish call dates its message as the latest.  At every moment of every
run the transactions of messages stand in the order of these dates, and those that end a
handshake in the order in which the broker first said that it holds their messages.  And
whenever the broker accepts a session while no callback makes a call, all that is pending of
messages and was not sent too often is sent once more, in that order and with nothing else
sent, until the transport breaks; only then the application is told that the session began, or
that it is lost. -/
theorem resends_ordered :
    (∀ {t t' : System σ} {topic : String} {payload : Bytes} {qos : Qos} {retain : Bool}
        {id : UInt16},
      (Act.publish topic payload qos retain).run.run t = (.ok (some id), t') →
      t.log.length < Entry.sentAt id t'.log ∧
        ∀ other, other ≠ id → Entry.SameTimes other t.log t'.log) ∧
    ∀ {s : System σ}, Reachable s →
      (s.client.pending.all.map Transaction.key).Pairwise (Precedes s.log) ∧
      (∀ t ∈ s.client.pending.all,
        (t.awaits.isPublish = true → Entry.sentAt t.packetId s.log ≠ 0) ∧
          (t.awaits = .pubComp → Entry.heldAt t.packetId s.log ≠ 0)) ∧
      ∀ {reader : Frame.Reader} {given : Except Transport.Error Bytes} {elapsed : Nat} {p : Inbound}
          {sessionPresent : Bool},
        s.client.place = .greeting reader → reader.receive given elapsed = .packet p →
        Act.greetingStatus p = .ok sessionPresent → Passive s (s.take (.heard given elapsed)) →
        Begins sessionPresent (s.client.pending.sentAgain s.client.config.retryWarning)
          (s.note (.received p)) (s.take (.heard given elapsed)) := by
  refine ⟨fun {t t' topic payload qos retain id} called => ?_, fun {s} reachable => ?_⟩
  · have dates := Act.publish_dates (s := t) topic payload qos retain
    unfold Act.Ends at dates
    rw [called] at dates
    exact dates id rfl
  have lined := reachable.lined
  have keys : s.client.pending.all.map Transaction.key =
      s.client.pending.active.map Transaction.key ++
        (s.client.pending.staged.map Transaction.key).reverse := by
    rw [Pending.all, List.map_append, List.map_reverse]
  refine ⟨?_, ?_, ?_⟩
  · rw [keys]
    exact lined.ordered
  · intro t member
    have among : t.key ∈ s.client.pending.active.map Transaction.key ++
        (s.client.pending.staged.map Transaction.key).reverse :=
      keys ▸ List.mem_map_of_mem member
    refine ⟨lined.sent t.key among, fun ends => ?_⟩
    rcases List.mem_append.1 among with active | staged
    · exact lined.held t.key active ends
    · exact absurd ends (lined.staged t.key (List.mem_reverse.1 staged)).1
  · intro reader given elapsed p sessionPresent here read accepted passive
    have taken : s.take (.heard given elapsed) =
        ((Act.readEnded >>= fun _ => Act.openSession sessionPresent).run
          (s.note (.received p))).2 := take_greeted here read accepted
    obtain ⟨ordered, sane⟩ := reachable.good
    rw [taken] at passive ⊢
    obtain ⟨log, begins⟩ :=
      Act.accepted_begins (s := s.note (.received p)) sessionPresent
    exact begins (passive.split (List.suffix_cons _ _) log).2 sane
      (ordered.greeting reader here).1 ordered.hasTime

end

/-- A client that has three messages to see through, of which the broker said of the last one
first that it holds it, when the connection is lost; the next one is about to be accepted. -/
def resuming : System Script :=
  inSession.takes
    [.call (.publish "a" [1] .atLeastOnce false), .call (.publish "b" [2] .exactlyOnce false),
      .call (.publish "c" [3] .exactlyOnce false), .heard (.ok [0x50, 2]) 0,
      .heard (.ok [0, 3]) 0, .turn, .heard (.ok [0x50, 2]) 0, .heard (.ok [0, 2]) 0, .turn,
      .heard (.ok []) 0, .turn, .intervalPassed, .turn, .dialled (.ok ()),
      .heard (.ok [0x20, 2]) 0]

theorem resends_ordered_resuming :
    inSession.log.length < Entry.sentAt 1
        ((Act.publish "a" [1] .atLeastOnce false).run.run inSession).2.log ∧
      resuming.client.pending.all.map Transaction.key =
        [(.pubAck, 1), (.pubComp, 3), (.pubComp, 2)] ∧
      (resuming.client.pending.all.map Transaction.key).Pairwise (Precedes resuming.log) ∧
      Begins true [[0x3A, 6, 0, 1, 97, 0, 1, 1], [0x62, 2, 0, 3], [0x62, 2, 0, 2]]
        (resuming.note (.received ⟨.connAck, 0, [1, 0]⟩))
        (resuming.take (.heard (.ok [1, 0]) 0)) := by
  have answered : ((Act.publish "a" [1] .atLeastOnce false).run.run inSession).1 =
      .ok (some 1) := Act.ok_of_toOption (by decide +kernel)
  have reachable : Reachable resuming := inSession_reachable.takes _
  have here : resuming.client.place =
      .greeting ⟨65536, 4000, .body ⟨.connAck, 0, 2⟩ [] 2⟩ := by decide +kernel
  have again : resuming.client.pending.sentAgain resuming.client.config.retryWarning =
      [[0x3A, 6, 0, 1, 97, 0, 1, 1], [0x62, 2, 0, 3], [0x62, 2, 0, 2]] := by decide +kernel
  let new := (resuming.take (.heard (.ok [1, 0]) 0)).log.take 8
  have passive : Passive resuming (resuming.take (.heard (.ok [1, 0]) 0)) :=
    .of_all new (by decide +kernel) (by decide +kernel)
  obtain ⟨dates, all⟩ := resends_ordered (σ := Script)
  obtain ⟨ordered, -, begins⟩ := all reachable
  exact ⟨(dates (Prod.ext answered rfl)).1, by decide +kernel, ordered,
    again ▸ begins here rfl rfl passive⟩

end Mqtt
