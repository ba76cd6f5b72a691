import Mqtt.Proofs.Grants
import Mqtt.Proofs.Identifiers
import Mqtt.Proofs.Resends
import Mqtt.Proofs.Topics

/-!
# Granted filters in their order

The granted filters are a list, and the log tells of it all (`Entry.grants`): a filter that is
granted goes to the end, from wherever it was before, and a filter that is dropped leaves the
others in their order.  So an answer that grants every filter of the list, in the order of the
list, gives back the list.
-/

namespace Mqtt

/-- The granted filters after an event. -/
def Event.regrants (g : List (String × Qos)) : Event → List (String × Qos)
  | .subscribed topic qos _ => g.filter (·.1 != topic) ++ [(topic, qos)]
  | .unsubscribed topic _ => g.filter (·.1 != topic)
  | _ => g

/-- The granted filters that a log tells of, in their order. -/
def Entry.grants : List Entry → List (String × Qos)
  | [] => []
  | .raised event _ _ :: earlier => event.regrants (grants earlier)
  | _ :: earlier => grants earlier

/-- Only what became of filters matters. -/
theorem Entry.grants_eq (log : List Entry) :
    grants log = (outcomes log).foldl Event.regrants [] := by
  induction log with
  | nil => rfl
  | cons e earlier ih =>
    rw [outcomes, List.foldl_append, ← ih]
    cases e with
    | raised event client told => cases event <;> rfl
    | _ => rfl

/-- What changes no map of granted filters changes no list of them. -/
theorem Event.regrants_of_quiet {e : Event} (quiet : ∀ r : Roll, r.after e = r)
    (g : List (String × Qos)) : e.regrants g = g := by
  cases e with
  | subscribed topic qos id =>
    have unset : some qos = none := by
      simpa [Roll.after, Roll.set] using congrFun (quiet fun _ => none) topic
    cases unset
  | unsubscribed topic id =>
    have unset : none = some Qos.atMostOnce := by
      simpa [Roll.after, Roll.set] using congrFun (quiet fun _ => some .atMostOnce) topic
    cases unset
  | _ => rfl

/-- Granted filters once others were granted, too: those come last, in their order. -/
def regrantAll (granted new : List (String × Qos)) : List (String × Qos) :=
  granted.filter (fun e => !(new.map Prod.fst).contains e.1) ++ new

/-- What is granted once more stays as it is. -/
theorem regrantAll_self (granted : List (String × Qos)) : regrantAll granted granted = granted := by
  have none : granted.filter (fun e => !(granted.map Prod.fst).contains e.1) = [] := by
    refine List.filter_eq_nil_iff.2 fun e member => ?_
    have among : (granted.map Prod.fst).contains e.1 = true :=
      List.contains_iff_mem.2 (List.mem_map_of_mem member)
    rw [among]
    exact Bool.false_ne_true
  rw [regrantAll, none, List.nil_append]

/-- Filters that are granted one after the other stand at the end, in that order. -/
theorem foldl_regrant {new : List (String × Qos)} (once : (new.map Prod.fst).Nodup)
    (granted : List (String × Qos)) :
    new.foldl (fun g e => g.filter (·.1 != e.1) ++ [e]) granted = regrantAll granted new := by
  unfold regrantAll
  induction new generalizing granted with
  | nil => simp
  | cons first new ih =>
    obtain ⟨apart, once⟩ := List.nodup_cons.1 once
    have kept : [first].filter (fun e => !(new.map Prod.fst).contains e.1) = [first] :=
      List.filter_cons_of_pos (by simpa using apart)
    rw [List.foldl_cons, ih once, List.filter_append, kept, List.filter_filter,
      List.append_assoc]
    congr 1
    apply List.filter_congr
    intro e _
    rw [List.map_cons, List.contains_cons, Bool.not_or, Bool.and_comm]
    rfl

variable {σ : Type}

/-- Whether the granted filters of a client are those that its log tells of, in their order. -/
structure Arrayed (s : System σ) : Prop where
  enrolled : Enrolled s
  listed : s.client.subscriptions.granted = Entry.grants s.log

theorem Steady.grants {s s' : System σ} (steady : Steady s s') :
    Entry.grants s'.log = Entry.grants s.log := by
  rw [Entry.grants_eq, steady.outcomes, ← Entry.grants_eq]

theorem Steady.listed {s s' : System σ} (steady : Steady s s')
    (h : s.client.subscriptions.granted = Entry.grants s.log) :
    s'.client.subscriptions.granted = Entry.grants s'.log := by
  rw [steady.granted, h, steady.grants]

theorem Steady.arrayed {s s' : System σ} (steady : Steady s s') (h : Arrayed s) : Arrayed s' :=
  ⟨steady.enrolled h.enrolled, steady.listed h.listed⟩

variable [Environment σ] {s s' : System σ}

namespace Act

theorem tell_arrayed {e : Event} (quiet : ∀ r : Roll, r.after e = r) (h : s.Busy ∧ Arrayed s) :
    Ends (tell e) s fun _ s' => s'.Busy ∧ Arrayed s' := by
  refine ((tell_enrolled quiet ⟨h.1, h.2.enrolled⟩).and (tell_steady e h.1)).imp ?_
  rintro _ s' ⟨⟨busy, enrolled⟩, -, steady⟩
  exact ⟨busy, enrolled, steady.listed (h.2.listed.trans (Event.regrants_of_quiet quiet _).symm)⟩

/-- A code that grants a filter puts it at the end. -/
theorem settle_granted {subject : Subject} {code : UInt8} {qos : Qos} (id : UInt16)
    (grants : Qos.ofByte? code = some qos) (busy : s.Busy) :
    Ends (settle id subject code) s fun _ s' => s'.Busy ∧
      s'.client.subscriptions.granted =
        s.client.subscriptions.granted.filter (·.1 != subject.topic) ++ [(subject.topic, qos)] ∧
      Entry.grants s'.log =
        (Entry.grants s.log).filter (·.1 != subject.topic) ++ [(subject.topic, qos)] := by
  unfold settle
  rw [grants]
  dsimp only
  rw [ends_bind, ends_update, ends_bind]
  let t := s.change fun c =>
    { c with subscriptions := c.subscriptions.dropGranted subject.topic }
  refine (tell_steady (s := t) _ busy).imp fun _ s' ⟨busy, steady⟩ => ?_
  have dropped : s'.client.subscriptions.granted =
      (s.client.subscriptions.dropGranted subject.topic).granted := steady.granted
  rw [ends_update]
  refine ⟨busy, ?_, steady.grants⟩
  rw [System.change_client]
  dsimp only
  rw [Subscriptions.granted_add_confirm, dropped, Subscriptions.granted_dropGranted]

theorem settle_arrayed (id : UInt16) (subject : Subject) (code : UInt8) (h : s.Busy ∧ Arrayed s) :
    Ends (settle id subject code) s fun _ s' => s'.Busy ∧ Arrayed s' := by
  have enrolled := settle_enrolled id subject code ⟨h.1, h.2.enrolled⟩
  cases grants : Qos.ofByte? code with
  | none =>
    unfold settle
    rw [grants]
    exact tell_arrayed (fun _ => rfl) h
  | some qos =>
    refine (enrolled.and (settle_granted id grants h.1)).imp ?_
    rintro _ s' ⟨⟨busy, enrolled⟩, -, granted, told⟩
    exact ⟨busy, enrolled, by rw [granted, told, h.2.listed]⟩

theorem remove_arrayed (id : UInt16) (topic : String) (h : s.Busy ∧ Arrayed s) :
    Ends (do
      update fun c => { c with subscriptions := c.subscriptions.remove topic }
      tell (.unsubscribed topic id)) s fun _ s' => s'.Busy ∧ Arrayed s' := by
  have listed : Ends (do
      update fun c => { c with subscriptions := c.subscriptions.remove topic }
      tell (.unsubscribed topic id)) s fun _ s' =>
        s'.client.subscriptions.granted = Entry.grants s'.log := by
    rw [ends_bind, ends_update]
    let t := s.change fun c => { c with subscriptions := c.subscriptions.remove topic }
    refine (tell_steady (s := t) _ h.1).imp fun _ s' ⟨_, steady⟩ => steady.listed ?_
    change (s.client.subscriptions.remove topic).granted =
      (Entry.grants s.log).filter (·.1 != topic)
    rw [Subscriptions.granted_remove, eraseP_eq_filter h.2.enrolled.once,
      h.2.listed]
  exact ((remove_enrolled id topic ⟨h.1, h.2.enrolled⟩).and listed).imp
    fun _ _ ⟨⟨busy, enrolled⟩, listed⟩ => ⟨busy, enrolled, listed⟩

end Act

theorem Arrayed.keptByAnswers :
    KeptByAnswers (fun _ => True) fun s : System σ => s.Busy ∧ Arrayed s where
  told quiet h := Act.tell_arrayed quiet h
  dropped id h :=
    have same := Subscriptions.granted_dropRequest id
    ⟨h.1, h.2.enrolled.of_granted same, same.trans h.2.listed⟩
  sent packet h := ⟨h.1.afterSend packet, (Steady.afterSend _ packet).arrayed h.2⟩
  looked _ _ h := ⟨h.1, h.2.enrolled, h.2.listed⟩
  listed _ _ _ := trivial
  taken _ _ h := ⟨h.1, h.2.enrolled, h.2.listed⟩
  settled id code _ h := Act.settle_arrayed id _ code h
  removed id topic h := Act.remove_arrayed id topic h

theorem Arrayed.afterDispatch {p : Inbound} (h : Arrayed s) (busy : s.Busy) (ordered : Ordered s)
    (sane : s.client.pending.Sane) : Arrayed (s.afterDispatch p) := by
  have acted := (afterDispatch_busy busy sane p).1
  refine (Arrayed.keptByAnswers.afterDispatch (fun other => ⟨acted, ?_⟩) ⟨busy, h⟩).2
  exact (afterDispatch_hold (I := Arrayed) (J := Arrayed)
    (fun _ _ busy move => (move.steady other busy).arrayed)
    (fun _ _ _ _ _ => ((Steady.afterSend _ _).trans (.close _)).arrayed)
    (fun _ h => h) busy ordered sane h).2

/-- Whether the granted filters of a client are those that its log tells of, in their order,
unless it is gone. -/
structure Arranged (s : System σ) : Prop where
  rostered : Rostered s
  listed : s.client.place ≠ .exited → s.client.subscriptions.granted = Entry.grants s.log

omit [Environment σ] in
theorem Arranged.arrayed (h : Arranged s) (here : s.client.place ≠ .exited) : Arrayed s :=
  ⟨h.rostered.enrolled here, h.listed here⟩

theorem Step.arranged (step : Step s s') (ordered : Ordered s) (sane : s.client.pending.Sane)
    (h : Arranged s) : Arranged s' := by
  refine ⟨step.rostered ordered sane h.rostered, fun here' => ?_⟩
  cases step with
  | call move =>
    exact (move.steady h.rostered.early).listed (h.listed (move.stands.2 here'))
  | thread pace =>
    cases pace with
    | move move => exact (move.steady here').listed (h.listed (move.stands ordered).1)
    | @looked failure force busy run turns =>
      have looked := Arrayed.keptByAnswers.scan force ⟨busy, h.arrayed busy.here⟩
      unfold Act.Ends at looked
      rw [run] at looked
      exact looked.2.listed
  | @attended s₁ reader p here warned =>
    have away : s.client.place ≠ .exited := by
      rw [here]
      exact Place.noConfusion
    have accepted := accept_busy ordered here p
    have arrayed : Arrayed (s.accept p) := ⟨h.rostered.enrolled away, h.listed away⟩
    obtain ⟨busy, ordered', sane'⟩ := warned.good ordered sane here
    have read := (warned.steady accepted).arrayed arrayed
    exact (read.afterDispatch busy ordered' sane').listed

theorem Reachable.arranged (reachable : Reachable s) : Arranged s :=
  reachable.induct (fun _ _ => ⟨⟨fun _ => ⟨List.nodup_nil, rfl⟩, fun _ => rfl⟩, fun _ => rfl⟩)
    fun _ _ ordered sane step => step.arranged ordered sane

/-! ## Asking anew -/

namespace Packet.Subscribe

/-- A SUBSCRIBE for filters that may be sent is written unless its body is longer than that of
any packet. -/
theorem encode_cases {s : Subscribe} (stated : s.filters ≠ [])
    (valid : ∀ filter ∈ s.filters, Topic.checkFilter filter.1 = .ok ()) :
    (∃ packet, encode s.put = .ok packet) ∨
      Length.max < s.body.length ∧
        encode s.put = .error (.tooLarge s.body.length Length.max) := by
  have short : ∀ field ∈ s.filters.map fun filter => Bytes.ofText filter.1,
      field.length ≤ 65535 :=
    List.forall_mem_map.2 fun filter among =>
      Topic.utf8ByteSize_le_of_checkFilter (valid filter among)
  rw [bodySize_eq]
  rcases (verdict stated).of_short short with ⟨-, does⟩ | ⟨long, does⟩
  · exact Or.inl ⟨_, does.encode⟩
  · refine Or.inr ⟨long, ?_⟩
    unfold encode
    rw [does.append]

end Packet.Subscribe

/-- How granted filters are asked for anew: in one SUBSCRIBE that is sent at once and registered if
it goes out, unless it is longer than any packet or no identifier is left for it. -/
inductive Renewed (granted : List (String × Qos)) (s s' : System σ) : Prop
  | asked {id : UInt16} {packet : Bytes} {offers : List Transport.Attempt} :
    s.client.isFree id = true → Packet.encode (Packet.Subscribe.put ⟨id, granted⟩) = .ok packet →
    offers ≠ [] → Transport.Course packet packet (.ok ()) offers →
    s'.log = .renewed granted (.packetId (some id)) :: ((offers.map Entry.sent).reverse ++ s.log) →
    Ledger.read s'.log = (Ledger.read s.log).make .subAck id granted →
    Renewed granted s s'
  | failed {id : UInt16} {packet : Bytes} {offers : List Transport.Attempt} {e : Transport.Error} :
    s.client.isFree id = true → Packet.encode (Packet.Subscribe.put ⟨id, granted⟩) = .ok packet →
    offers ≠ [] → Transport.Course packet packet (.error e) offers →
    s'.log = .renewed granted (.failed (.transport e)) ::
      ((offers.map Entry.sent).reverse ++ s.log) →
    Renewed granted s s'
  | oversized {id : UInt16} {e : Error} :
    Packet.Length.max < (Packet.Subscribe.body ⟨id, granted⟩).length →
    s'.log = .renewed granted (.failed e) :: s.log → Renewed granted s s'
  | exhausted :
    (∀ id : UInt16, 0 < id.toNat → id.toNat ≤ 65534 → s.client.Uses id) →
    s'.log = .renewed granted (.failed .idsExhausted) :: s.log → Renewed granted s s'

/-- How a session begins with some filters granted: the application is told that it began, and
then, if the broker has forgotten the filters, they are asked for anew; or it is told that the
session is lost. -/
inductive Resumes (sessionPresent : Bool) (granted : List (String × Qos)) (s s' : System σ) :
    Prop
  | connected {s₁ s₂ : System σ} : s.log <:+ s₁.log → s₁.client.phase = .connected →
    s₁.client.subscriptions.granted = granted → Lets (.connected sessionPresent) s₁ s₂ →
    (if sessionPresent = true ∨ granted = [] then s' = s₂ else Renewed granted s₂ s') →
    Resumes sessionPresent granted s s'
  | lost {s₁ : System σ} : s.log <:+ s₁.log →
    Lets (.disconnected .networkFailure)
      (s₁.close.change fun c => { c with phase := .disconnected }) s' →
    Resumes sessionPresent granted s s'

omit [Environment σ] in
theorem Resumes.earlier {s s' s'' : System σ} {sessionPresent : Bool}
    {granted : List (String × Qos)} (h : Resumes sessionPresent granted s' s'')
    (log : s.log <:+ s'.log) : Resumes sessionPresent granted s s'' := by
  cases h with
  | connected later connected same told renewed =>
    exact .connected (log.trans later) connected same told renewed
  | lost later told => exact .lost (log.trans later) told

/-- Whether a session stands over an open transport, nobody asked for the end of the client, and
some filters are granted. -/
structure Client.Holds (c : Client) (granted : List (String × Qos)) : Prop where
  alive : c.destroyed = false
  connected : c.phase = .connected
  linked : c.linked = true
  time : c.config.commandTimeout.toNat ≠ 0
  numbered : c.Numbered
  granted : c.subscriptions.granted = granted

theorem System.sendResult_ne_unwritten (s : System σ) (bs : Bytes) (e : Packet.Error) :
    s.sendResult bs ≠ .error (.packet e) := by
  unfold System.sendResult
  split
  · split <;> exact fun same => by cases same
  · exact fun same => by cases same

namespace Act

/-- A SUBSCRIBE for filters that may be sent is submitted while a session stands. -/
theorem ends_subscribe {filters : List (String × Qos)} {first : String × Qos}
    {Q : Except Error UInt16 → System σ → Prop} (stated : filters.head? = some first)
    (valid : ∀ filter ∈ filters, Topic.checkFilter filter.1 = .ok ())
    (alive : s.client.destroyed = false) (connected : s.client.phase = .connected) :
    Ends (subscribe filters).run s Q ↔
      Ends (submit ⟨.subAck, fun id => Packet.Subscribe.put ⟨id, filters⟩, first, filters⟩).run s
        Q := by
  have checked : (filters.map (·.1)).forM Topic.checkFilter = .ok () := by
    clear stated
    induction filters with
    | nil => rfl
    | cons filter rest ih =>
      obtain ⟨own, others⟩ := List.forall_mem_cons.1 valid
      change (Topic.checkFilter filter.1 >>= fun _ => _) = _
      rw [own]
      exact ih others
  unfold subscribe checkFilters ensureConnected ensureAlive
  rw [stated, checked]
  simp only [try_bind, try_pure, try_lift, ends_client, alive, connected, ne_eq, not_true_eq_false,
    Bool.false_eq_true, if_false]

/-- Submitting a request fails for its packet only if that cannot be written. -/
theorem submit_unwritten (r : Request) :
    Ends (submit r).run s fun answer _ =>
      ∀ e, answer = .error (.packet e) → ∃ id, Packet.encode (r.packet id) = .error e := by
  unfold submit
  rw [try_bind, try_lift, ends_draw]
  cases s.client.claimId.1 with
  | none => exact fun _ same => by cases same
  | some id =>
    dsimp only
    cases written : Packet.encode (r.packet id) with
    | error e => exact fun _ same => ⟨id, by cases same; exact written⟩
    | ok packet =>
      simp only [try_bind, try_lift, ends_now, ends_update, try_tryCatch, try_transmit, try_throw,
        try_pure]
      generalize System.change (System.shift _ _) _ = t
      have failed := t.sendResult_ne_unwritten packet
      cases result : t.sendResult packet with
      | ok u => exact fun _ same => by cases same
      | error e =>
        rw [result] at failed
        exact fun e' same => absurd (congrArg _ (Except.error.inj same)) (failed e')

/-- Filters that are granted are asked for anew while a session stands. -/
theorem resubscribe_renews {granted : List (String × Qos)} (h : s.client.Holds granted)
    (valid : ∀ filter ∈ granted, Topic.checkFilter filter.1 = .ok ()) :
    Ends resubscribe s fun _ s' => if granted = [] then s' = s else Renewed granted s s' := by
  unfold resubscribe
  rw [ends_bind, ends_client, h.granted]
  dsimp only
  cases stated : granted.head? with
  | none =>
    obtain rfl := List.head?_eq_none_iff.1 stated
    rfl
  | some first =>
    have some : granted ≠ [] := fun none => by rw [none] at stated; cases stated
    rw [if_neg (by simpa using some), ends_bind]
    unfold perform
    rw [ends_answer, ends_subscribe stated valid h.alive h.connected]
    have issued := Request.Issued.subscribe first some valid
    refine ((submit_submitted issued.isLocal).and ((submit_claims _).and
      ((submit_unwritten _).and (submit_makes issued rfl)))).imp
      fun answer s₁ ⟨submitted, ⟨_, exhausted⟩, unwritten, makes⟩ => ?_
    rw [ends_note, if_neg some]
    have nonempty {id : UInt16} {packet : Bytes}
        (written : Packet.encode (Packet.Subscribe.put ⟨id, granted⟩) = .ok packet) :
        packet ≠ [] := by
      obtain ⟨q, whole, -⟩ := (Requested.request issued written).parse?
      exact Packet.ne_nil_of_parse? whole
    cases submitted with
    | exhausted =>
      have none := exhausted rfl
      exact .exhausted
        (fun id first last => Client.of_claimId_eq_none h.numbered none first last) rfl
    | unwritten e free =>
      obtain ⟨id, failed⟩ := unwritten e rfl
      rcases Packet.Subscribe.encode_cases (s := ⟨id, granted⟩) some valid with
        ⟨packet, written⟩ | ⟨long, -⟩
      · cases written.symm.trans failed
      · exact .oversized long rfl
    | @requested outside id packet began free written done =>
      let t := (s.shift outside).change fun c =>
        (c.passOver id).register began .subAck id packet first granted
      obtain ⟨more, course⟩ := offers_sent (s := t) h.linked h.time (nonempty written)
        (((s.shift outside).sendResult_change packet rfl rfl).trans done)
      refine .asked free written more course ?_ (makes id rfl)
      exact congrArg _ (t.afterSend_log packet)
    | @refused outside id packet e free written failed =>
      let t := (s.shift outside).change (·.passOver id)
      obtain ⟨more, e, rfl, course⟩ := offers_failed (s := t) h.linked h.time (nonempty written)
        (((s.shift outside).sendResult_change packet rfl rfl).trans failed)
      exact .failed free written more course (congrArg _ (t.afterSend_log packet))

/-! ## Beginning a session -/

/-- While no callback makes a call, a look at the transactions leaves a session as it is. -/
theorem holds_keptByLooks (s : System σ) (granted : List (String × Qos)) :
    KeptByLooks fun t : System σ =>
      s.log <:+ t.log ∧ (Passive s t → s.client.Holds granted → t.client.Holds granted) where
  told {t e} _ h := by
    refine Ends.imp (tell_calmly e) fun _ t' ⟨log, calm⟩ => ⟨h.1.trans log, fun passive held => ?_⟩
    obtain ⟨before, after⟩ := passive.split h.1 log
    rw [(calm after).1]
    exact h.2 before held
  dropped id h := by
    refine ⟨h.1, fun passive held => ?_⟩
    have holds := h.2 passive held
    exact ⟨holds.alive, holds.connected, holds.linked, holds.time, holds.numbered,
      (Subscriptions.granted_dropRequest id).trans holds.granted⟩
  sent {t} packet h := by
    have log : t.log <:+ (t.afterSend packet).log := ⟨_, (t.afterSend_log packet).symm⟩
    refine ⟨h.1.trans log, fun passive held => ?_⟩
    have holds := h.2 (passive.split h.1 log).1 held
    rw [System.afterSend_client]
    exact ⟨by simpa using holds.alive, by simpa using holds.connected, by simpa using holds.linked,
      by simpa using holds.time, holds.numbered.of_nextId (by simp), by simpa using holds.granted⟩
  looked _ _ h := by
    refine ⟨h.1, fun passive held => ?_⟩
    have holds := h.2 passive held
    exact ⟨holds.alive, holds.connected, holds.linked, holds.time, holds.numbered, holds.granted⟩

theorem scan_holds (force : Bool) (granted : List (String × Qos)) :
    Calmly (scan force) s fun _ s' => s.client.Holds granted → s'.client.Holds granted :=
  (holds_keptByLooks s granted).scan force ⟨List.suffix_refl _, fun _ held => held⟩

theorem migrate_holds : Calmly migrate s fun _ s' =>
    s'.client = { s.client with pending := s.client.pending.migrate.2 } := by
  unfold Calmly migrate
  rw [ends_bind, ends_draw]
  cases s.client.pending.migrate.1 with
  | none => exact ⟨List.suffix_refl _, fun _ => rfl⟩
  | some count => exact Ends.imp (tell_calmly _) fun _ s' ⟨log, calm⟩ =>
      ⟨log, fun passive => (calm passive).1⟩

/-- The session in which the broker has forgotten what it granted begins with one request for all
of that. -/
theorem openSession_resumes (sessionPresent : Bool) {granted : List (String × Qos)}
    (valid : ∀ filter ∈ granted, Topic.checkFilter filter.1 = .ok ()) :
    Calmly (openSession sessionPresent) s fun _ s' =>
      s.opening.client.Holds granted → Resumes sessionPresent granted s s' := by
  have looked : Calmly (migrate >>= fun _ => scan true) s.opening fun _ s' =>
      s.opening.client.Holds granted → s'.client.Holds granted := by
    refine migrate_holds.bind fun _ s₁ => (scan_holds true granted).imp fun _ s' kept client h => ?_
    apply kept
    rw [client]
    exact ⟨h.alive, h.connected, h.linked, h.time, h.numbered, h.granted⟩
  have renews (t : System σ) : Calmly (if sessionPresent then pure () else resubscribe) t
      fun _ s' => t.client.Holds granted →
        if sessionPresent = true ∨ granted = [] then s' = t else Renewed granted t s' := by
    cases sessionPresent with
    | true => exact .silent ⟨rfl, fun _ => rfl⟩
    | false =>
      by_cases held : t.client.Holds granted
      · refine (resubscribe_calmly.and (resubscribe_renews held valid)).imp ?_
        rintro _ s' ⟨⟨log, -⟩, renewed⟩
        exact ⟨log, fun _ _ => by simpa using renewed⟩
      · exact resubscribe_calmly.imp fun _ _ _ h => absurd h held
  refine (openSession_calmly sessionPresent looked.logged renews).imp fun _ s' opened held => ?_
  obtain ⟨e, s₁, ⟨log, -⟩, lost⟩ | ⟨s₁, s₂, ⟨log, kept⟩, told, later⟩ := opened
  · exact .lost log lost
  · have holds := kept held
    refine .connected log holds.connected holds.granted told (later ?_)
    rw [told.1]
    exact holds

/-- While no callback makes a call, only the staged transactions change place once reading has
ended. -/
theorem readEnded_calmly : Calmly readEnded s fun _ s' =>
    s'.client = { s.client with place := .running, pending := s.client.pending.migrate.2 } := by
  have moved : Calmly (goTo .running) s fun _ s' =>
      s' = s.change fun c => { c with place := .running } := .silent ⟨rfl, rfl⟩
  unfold readEnded
  refine moved.bind fun _ s₁ => migrate_holds.imp ?_
  rintro _ s' client rfl
  exact client

theorem accepted_resumes (sessionPresent : Bool) {granted : List (String × Qos)}
    (valid : ∀ filter ∈ granted, Topic.checkFilter filter.1 = .ok ()) :
    Calmly (readEnded >>= fun _ => openSession sessionPresent) s fun _ s' =>
      ({ s.client with phase := .connected } : Client).Holds granted →
        Resumes sessionPresent granted s s' := by
  refine readEnded_calmly.logged.bind fun _ s₁ => (openSession_resumes sessionPresent valid).imp ?_
  rintro _ s' resumes ⟨log, client⟩ h
  refine (resumes ?_).earlier log
  unfold System.opening
  rw [System.change_client, System.shift_client, client]
  exact ⟨h.alive, h.connected, h.linked, h.time, h.numbered, h.granted⟩

/-! ## The answer -/

/-- Codes that grant filters as they were asked for put these at the end, in turn. -/
theorem settle_each (id : UInt16) (filters : List (String × Qos)) (busy : s.Busy) :
    Ends ((filters.map fun f => (Subject.asked f.1 f.2 id, f.2.toByte)).forM fun (subject, code) =>
      settle id subject code) s fun _ s' => s'.Busy ∧
        s'.client.subscriptions.granted =
          filters.foldl (fun g e => g.filter (·.1 != e.1) ++ [e])
            s.client.subscriptions.granted := by
  induction filters generalizing s with
  | nil => exact ⟨busy, rfl⟩
  | cons first filters ih =>
    rw [List.map_cons]
    change Ends (settle id _ _ >>= fun _ => List.forM _ _) s _
    rw [ends_bind]
    refine (settle_granted id (Qos.ofByte?_toByte first.2) busy).imp ?_
    rintro _ s₁ ⟨busy₁, granted, -⟩
    refine (ih busy₁).imp fun _ s' ⟨busy', same⟩ => ⟨busy', ?_⟩
    rw [same, granted]
    rfl

/-- An answer that grants all filters of a request puts them at the end, in their order. -/
theorem onSubAck_granted {r : Petition} (once : (r.filters.map Prod.fst).Nodup) (busy : s.Busy)
    (waits : s.client.pending.contains .subAck r.id = true)
    (listed : s.client.subscriptions.ofRequest r.id = r.entries) :
    Ends (onSubAck r.id (r.filters.map (·.2.toByte))) s fun _ s' => s'.Busy ∧
      s'.client.subscriptions.granted =
        regrantAll s.client.subscriptions.granted r.filters := by
  obtain ⟨t, active, own⟩ := Pending.contains_iff.1 waits
  have paired : r.entries.zip (r.filters.map (·.2.toByte)) =
      r.filters.map fun f => (Subject.asked f.1 f.2 r.id, f.2.toByte) := by
    rw [Petition.entries, List.zip_map']
  have same : r.entries.length = (r.filters.map (·.2.toByte)).length := by
    rw [Petition.entries, List.length_map, List.length_map]
  unfold onSubAck
  rw [ends_bind, ends_take]
  cases taken : (s.client.pending.take .subAck r.id).1 with
  | none => exact absurd (Transaction.isFor_iff.2 own) (List.find?_eq_none.1 taken t active)
  | some t =>
    dsimp only
    rw [ends_bind, ends_takeListed, System.change_client, Client.without, listed, if_pos same,
      paired, ← foldl_regrant once, ← Subscriptions.granted_dropRequest r.id]
    exact settle_each r.id r.filters busy

end Act

/-- Looks grant nothing. -/
theorem granted_keptByLooks (granted : List (String × Qos)) :
    KeptByLooks fun s : System σ => s.Busy ∧ s.client.subscriptions.granted = granted where
  told _ h :=
    (Act.tell_steady _ h.1).imp fun _ _ ⟨busy, steady⟩ => ⟨busy, steady.granted.trans h.2⟩
  dropped id h := ⟨h.1, (Subscriptions.granted_dropRequest id).trans h.2⟩
  sent packet h := ⟨h.1.afterSend packet, (Steady.afterSend _ packet).granted.trans h.2⟩
  looked _ _ h := h

/-- With no packet of the session in hand nothing is granted. -/
theorem Walk.granted (walk : Walk s s') (ordered : Ordered s) (sane : s.client.pending.Sane)
    (here : s'.client.place ≠ .exited) :
    s'.client.subscriptions.granted = s.client.subscriptions.granted := by
  induction walk with
  | refl => rfl
  | @tail s₁ s₂ walk pace ih =>
    cases pace with
    | move move =>
      have stands := move.stands ((Walk.steps walk).good ordered sane).1
      exact (move.steady here).granted.trans (ih stands.1)
    | @looked failure force busy run =>
      have looked := (granted_keptByLooks _).scan force ⟨busy, ih busy.here⟩
      unfold Act.Ends at looked
      rw [run] at looked
      exact looked.2

/-! ## All runs -/

/-- Only an answer grants or drops a filter. -/
theorem Petition.foldl_regrants {p : Petition} {ending : Ending}
    (open_ : ∀ codes, ending ≠ .answered codes) (granted : List (String × Qos)) :
    (p.verdicts ending).foldl Event.regrants granted = granted := by
  have failed (topic : String) (g : List (String × Qos)) : (p.failure topic).regrants g = g := by
    unfold failure
    split
    · rfl
    · rfl
  cases ending with
  | answered codes => exact absurd rfl (open_ codes)
  | discarded => rfl
  | expired =>
    unfold verdicts
    dsimp only
    induction p.filters with
    | nil => rfl
    | cons filter filters ih => rw [List.map_cons, List.foldl_cons, failed, ih]

theorem Ledger.foldl_regrants {newer : List (Petition × Ending)}
    (open_ : ∀ p codes, (p, .answered codes) ∉ newer) (granted : List (String × Qos)) :
    (due newer).foldl Event.regrants granted = granted := by
  induction newer with
  | nil => rfl
  | cons last newer ih =>
    obtain ⟨p, ending⟩ := last
    rw [due_cons, List.foldl_append, ih fun p codes => fun member =>
      open_ p codes (List.mem_cons_of_mem _ member)]
    refine p.foldl_regrants (fun codes same => ?_) granted
    exact open_ p codes (same ▸ List.mem_cons_self)

/-- The granted filters are as they were while no request is answered. -/
theorem Reachable.granted_later {t : System σ} (reachable : Reachable s) (reachable' : Reachable t)
    (later : s.log <:+ t.log) (here : s.client.place ≠ .exited) (here' : t.client.place ≠ .exited)
    (unanswered : ∀ p codes, (p, .answered codes) ∈ (Ledger.read t.log).ended →
      (p, .answered codes) ∈ (Ledger.read s.log).ended) :
    t.client.subscriptions.granted = s.client.subscriptions.granted := by
  have told {u : System σ} (reachable : Reachable u) (here : u.client.place ≠ .exited) :
      Entry.grants u.log = (Ledger.due (Ledger.read u.log).ended).foldl Event.regrants [] := by
    have booked := (reachable.kept.booked here).told
    rw [Entry.grants_eq, ← List.append_nil (Entry.outcomes u.log)]
    exact congrArg _ booked
  obtain ⟨newer, ended⟩ := Ledger.ended_suffix later
  have open_ : ∀ p codes, (p, .answered codes) ∉ newer := by
    intro p codes member
    have before := unanswered p codes (ended ▸ List.mem_append_left _ member)
    have once := (Ledger.read_sound t.log).nodup_ended
    rw [← ended, List.nodup_append] at once
    exact once.2.2 _ member _ before rfl
  rw [reachable'.arranged.listed here', reachable.arranged.listed here, told reachable' here',
    told reachable here, ← ended, Ledger.due_append, List.foldl_append,
    Ledger.foldl_regrants open_]

theorem Reachable.numbered (reachable : Reachable s) : s.client.Numbered :=
  (Allotted.reached reachable .now).numbered

/-- Every granted filter is one that may be sent. -/
theorem Reachable.granted_valid (reachable : Reachable s) :
    ∀ filter ∈ s.client.subscriptions.granted, Topic.checkFilter filter.1 = .ok () := by
  intro filter member
  obtain ⟨e, among, rfl⟩ := List.mem_map.1 member
  exact reachable.neat.now.valid e (List.mem_filter.1 among).1

/-- When the broker accepts a session nothing is granted yet. -/
theorem Reachable.granted_greeted {reader : Frame.Reader} {given : Except Transport.Error Bytes}
    {elapsed : Nat} {p : Inbound} (reachable : Reachable s)
    (here : s.client.place = .greeting reader) (read : reader.receive given elapsed = .packet p) :
    (s.take (.heard given elapsed)).client.subscriptions.granted =
      s.client.subscriptions.granted := by
  obtain ⟨ordered, sane⟩ := reachable.good
  have ready := (Starts.greeted here read).ready ordered sane
  have answered : Onward (s.reading p) (s.take (.heard given elapsed)) :=
    (greeted_route here read).leads ready
  have onward := (ordered.greeted sane here p).trans answered
  exact Walk.granted onward.walk ordered sane onward.busy.here

/-- When the answer is read that grants all filters of a request, these stand at the end, in
their order, unless a callback makes a call. -/
theorem Reachable.granted_answered {reader : Frame.Reader}
    {given : Except Transport.Error Bytes} {elapsed : Nat} {p : Inbound} {r : Petition}
    (reachable : Reachable s) (here : s.client.place = .listening reader)
    (read : reader.receive given elapsed = .packet p) (waits : r ∈ (Ledger.read s.log).waiting)
    (kind : r.kind = .subAck) (once : (r.filters.map Prod.fst).Nodup)
    (grants : p.verdict? = some (r.key, r.filters.map (·.2.toByte)))
    (passive : Passive s (s.take (.heard given elapsed))) :
    (s.take (.heard given elapsed)).client.subscriptions.granted =
      regrantAll s.client.subscriptions.granted r.filters := by
  obtain ⟨ordered, sane⟩ := reachable.good
  have ready := (Starts.attended here read).ready ordered sane
  have away : s.client.place ≠ .exited := by
    rw [here]
    exact Place.noConfusion
  have booked := reachable.kept.booked away
  obtain ⟨busy, ordered', sane', -⟩ := reachable.reading here p
  rw [take_heard here read] at passive ⊢
  let t := (s.reading p).afterDispatch p
  let t' := ((Act.attend p).run (s.reading p)).2
  have attended : Onward t t' := Route.leads (Act.attend_route p) ready
  obtain ⟨⟨ordered'', sane''⟩, acted⟩ := afterDispatch_hold (p := p)
    (I := fun t => (s.reading p).log <:+ t.log) (J := fun t => (s.reading p).log <:+ t.log)
    (Keeps.later _).turn (Keeps.later _).lost (fun _ later => later) busy ordered' sane'
    (List.suffix_refl _)
  have client : (s.reading p).client =
      { s.client with place := .running, pending := s.client.pending.migrate.2 } := by
    obtain ⟨log, calm⟩ := Act.readEnded_calmly (s := s.note (.received p))
    have later : (s.reading p).log <:+ t'.log :=
      acted.trans (attended.walk.steps.later ordered'' sane'')
    have unread : Passive (s.note (.received p)) t' :=
      (passive.split (List.suffix_cons _ _) (log.trans later)).2
    exact calm (unread.split log later).1
  have answered : Act.Ends (Act.onSubAck r.id (r.filters.map (·.2.toByte))) (s.reading p)
      fun _ s' => s'.Busy ∧ s'.client.subscriptions.granted =
        regrantAll (s.reading p).client.subscriptions.granted r.filters := by
    refine Act.onSubAck_granted once busy ?_ ?_
    · rw [client]
      exact kind ▸ booked.answerable sane waits
    · rw [client]
      exact booked.held.ofRequest booked.nodup waits
  have dispatched : t.client.subscriptions.granted =
      regrantAll s.client.subscriptions.granted r.filters := by
    rw [client] at answered
    rcases Act.dispatch_verdict (σ := σ) grants with ⟨-, acts⟩ | ⟨other, -⟩
    · change ((s.reading p).afterDispatch p).client.subscriptions.granted = _
      rw [System.afterDispatch, acts]
      exact answered.2
    · cases kind.symm.trans other
  exact (attended.walk.granted ordered'' sane'' attended.busy.here).trans dispatched

/-- **Renewal.**  When the broker accepts a session while no callback makes a call and nobody asked
for the end of the client, then, unless the transport breaks, the application is told that the
session began, and if the broker has no session for the client, the next packet is one SUBSCRIBE for
exactly the granted filters, each with the guarantee that was granted, in their order; it is sent
and waits for its answer unless the transport fails, the packet would be too long or no identifier
is free.  Neither this nor anything else changes which filters are granted, or their order, while
no request is answered.  The answer that grants all filters of a request moves them to the end, in
the order of the request, so if these are what is granted, then it is as it was. -/
theorem Reachable.grants_renewed (reachable : Reachable s) :
    (∀ {reader : Frame.Reader} {given : Except Transport.Error Bytes} {elapsed : Nat} {p : Inbound}
        {sessionPresent : Bool},
      s.client.place = .greeting reader → reader.receive given elapsed = .packet p →
      Act.greetingStatus p = .ok sessionPresent → s.client.destroyed = false →
      Passive s (s.take (.heard given elapsed)) →
      Resumes sessionPresent s.client.subscriptions.granted (s.note (.received p))
          (s.take (.heard given elapsed)) ∧
        (s.take (.heard given elapsed)).client.subscriptions.granted =
          s.client.subscriptions.granted) ∧
    (∀ {t : System σ}, Reachable t → s.log <:+ t.log → s.client.place ≠ .exited →
      t.client.place ≠ .exited →
      (∀ p codes, (p, .answered codes) ∈ (Ledger.read t.log).ended →
        (p, .answered codes) ∈ (Ledger.read s.log).ended) →
      t.client.subscriptions.granted = s.client.subscriptions.granted) ∧
    ∀ {reader : Frame.Reader} {given : Except Transport.Error Bytes} {elapsed : Nat} {p : Inbound}
        {r : Petition},
      s.client.place = .listening reader → reader.receive given elapsed = .packet p →
      r ∈ (Ledger.read s.log).waiting → r.kind = .subAck → (r.filters.map Prod.fst).Nodup →
      p.verdict? = some (r.key, r.filters.map (·.2.toByte)) →
      Passive s (s.take (.heard given elapsed)) →
      (s.take (.heard given elapsed)).client.subscriptions.granted =
          regrantAll s.client.subscriptions.granted r.filters ∧
        (s.client.subscriptions.granted = r.filters →
          (s.take (.heard given elapsed)).client.subscriptions.granted = r.filters) := by
  refine ⟨fun {reader given elapsed p sessionPresent} here read accepted alive passive => ⟨?_, ?_⟩,
    reachable.granted_later, fun {reader given elapsed p r} here read waits kind once grants
      passive => ?_⟩
  · obtain ⟨ordered, -⟩ := reachable.good
    have taken : s.take (.heard given elapsed) =
        ((Act.readEnded >>= fun _ => Act.openSession sessionPresent).run
          (s.note (.received p))).2 := take_greeted here read accepted
    rw [taken] at passive ⊢
    obtain ⟨log, resumes⟩ :=
      Act.accepted_resumes (s := s.note (.received p)) sessionPresent reachable.granted_valid
    exact resumes (passive.split (List.suffix_cons _ _) log).2
      ⟨alive, rfl, (ordered.greeting reader here).1, ordered.hasTime, reachable.numbered, rfl⟩
  · exact reachable.granted_greeted here read
  · have answered := reachable.granted_answered here read waits kind once grants passive
    refine ⟨answered, fun same => ?_⟩
    rw [answered, same, regrantAll_self]

/-- A client to which two filters were granted, and that lost the connection; the broker, which has
no session for it, is about to accept the next one. -/
def renewing : System Script :=
  inSession.takes
    [.call (.subscribeAll [("a", .atLeastOnce), ("b", .exactlyOnce)]), .heard (.ok [0x90, 4]) 0,
      .heard (.ok [0, 1, 1, 1]) 0, .turn, .heard (.ok []) 0, .turn, .intervalPassed, .turn,
      .dialled (.ok ()), .heard (.ok [0x20, 2]) 0]

theorem grants_renewed_renewing :
    let renewed := renewing.takes [.heard (.ok [0, 0]) 0, .turn, .heard (.ok [0x90, 4]) 0]
    let granted := [("a", Qos.atLeastOnce), ("b", Qos.atLeastOnce)]
    renewing.client.subscriptions.granted = granted ∧
      Resumes false granted (renewing.note (.received ⟨.connAck, 0, [0, 0]⟩))
        (renewing.take (.heard (.ok [0, 0]) 0)) ∧
      renewed.client.subscriptions.granted = granted ∧
      (renewed.take (.heard (.ok [0, 2, 1, 1]) 0)).client.subscriptions.granted = granted := by
  intro renewed granted
  have reachable : Reachable renewing := inSession_reachable.takes _
  have reachable' : Reachable renewed := reachable.takes _
  have here : renewing.client.place =
      .greeting ⟨65536, 4000, .body ⟨.connAck, 0, 2⟩ [] 2⟩ := by decide +kernel
  have here' : renewed.client.place =
      .listening ⟨65536, 4000, .body ⟨.subAck, 0, 4⟩ [] 4⟩ := by decide +kernel
  have held : renewing.client.subscriptions.granted = granted := by decide +kernel
  have ended : (Ledger.read renewed.log).ended = (Ledger.read renewing.log).ended := by
    decide +kernel
  have waits : (Ledger.read renewed.log).waiting = [⟨1, .subAck, 2, granted⟩] := by decide +kernel
  have passive : Passive renewing (renewing.take (.heard (.ok [0, 0]) 0)) :=
    .of_all ((renewing.take (.heard (.ok [0, 0]) 0)).log.take 4) (by decide +kernel)
      (by decide +kernel)
  have passive' : Passive renewed (renewed.take (.heard (.ok [0, 2, 1, 1]) 0)) :=
    .of_all ((renewed.take (.heard (.ok [0, 2, 1, 1]) 0)).log.take 3) (by decide +kernel)
      (by decide +kernel)
  obtain ⟨begins, lasts, -⟩ := Reachable.grants_renewed reachable
  obtain ⟨-, -, answered⟩ := Reachable.grants_renewed reachable'
  have same : renewed.client.subscriptions.granted = granted :=
    (lasts reachable' (by decide +kernel) (by decide +kernel) (by decide +kernel)
      fun p codes member => ended ▸ member).trans held
  have resumes := (begins here rfl rfl (by decide +kernel) passive).1
  rw [held] at resumes
  exact ⟨held, resumes, same, (answered (r := ⟨1, .subAck, 2, granted⟩) here' rfl
    (waits ▸ List.mem_singleton_self _) rfl (by decide) rfl passive').2 same⟩

/-- An answer to another request that comes first grants a third filter, and then the answer that
grants both of `renewing` anew puts them behind it. -/
theorem grants_reordered_renewing :
    let outrun := renewing.takes
      [.heard (.ok [0, 0]) 0, .turn, .call (.subscribe "c" .atLeastOnce),
        .heard (.ok [0x90, 3]) 0, .heard (.ok [0, 3, 1]) 0, .turn, .heard (.ok [0x90, 4]) 0]
    let ended := outrun.take (.heard (.ok [0, 2, 1, 1]) 0)
    let granted := [("a", Qos.atLeastOnce), ("b", Qos.atLeastOnce)]
    let last := ("c", Qos.atLeastOnce)
    renewing.client.subscriptions.granted = granted ∧ Passive renewing ended ∧
      ⟨1, .subAck, 2, granted⟩ ∈ (Ledger.read outrun.log).waiting ∧
      (⟨1, .subAck, 2, granted⟩, .answered [1, 1]) ∈ (Ledger.read ended.log).ended ∧
      outrun.client.subscriptions.granted = granted ++ [last] ∧
      ended.client.subscriptions.granted = last :: granted := by
  intro outrun ended granted last
  exact ⟨by decide +kernel,
    .of_all (ended.log.take 11) (by decide +kernel) (by decide +kernel),
    by decide +kernel, by decide +kernel, by decide +kernel, by decide +kernel⟩

end Mqtt
