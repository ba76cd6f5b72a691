import Mqtt.Proofs.Walks

/-!
# Lapses

A lapse is a stretch of a run in which nothing happens to the connection: no transport
is opened or closed, no session begins or ends, nothing is read, and what is sent is sent
within a session.  Only what is outside goes on, the application may replace settings or the
will, and the registries change.  Calls and callbacks are lapses, and so is most of what the thread
does in a session (`Act.dispatch_lapse`, `Act.scan_lapses`).
-/

namespace Mqtt

/-! ## What a lapse may hold -/

/-- What is outside was used once. -/
inductive Environment.Use {σ : Type} [Environment σ] : σ → σ → Prop
  | now (o : σ) : Use o (Environment.now o).2
  | offer (o : σ) (bs : Bytes) (time : Nat) : Use o (Environment.offer o bs time).2
  | react (o : σ) (c : Client) (event : Event) : Use o (Environment.react o c event).2
  | wait (o : σ) (ms : UInt32) : Use o (Environment.wait o ms).2
  | spawn (o : σ) : Use o (Environment.spawn o).2

/-- What is outside was used any number of times. -/
abbrev Environment.Later {σ : Type} [Environment σ] : σ → σ → Prop :=
  Relation.ReflTransGen Environment.Use

/-- The settings that a call replaced, as its answer says. -/
def Call.replaced : Call → Reply → List Config.Setting
  | .configure settings, .done => settings
  | _, _ => []

/-- The settings that were replaced by the call of an entry. -/
def Entry.replaced : Entry → List Config.Setting
  | .reacted _ c _ reply | .called c reply => c.replaced reply
  | _ => []

/-- The will that a call set, as its answer says. -/
def Call.bequeathed : Call → Reply → Option (Option LastWill)
  | .setWill will, .done => some will
  | _, _ => none

/-- The will that was set by the call of an entry. -/
def Entry.bequeathed : Entry → Option (Option LastWill)
  | .reacted _ c _ reply | .called c reply => c.bequeathed reply
  | _ => none

/-- What connections are made with: the settings and the will. -/
abbrev Terms :=
  Config × Option LastWill

/-- What the connections of a client are made with. -/
def Client.terms (c : Client) : Terms :=
  (c.config, c.will)

/-- The terms after an entry. -/
def Entry.amend (e : Entry) (terms : Terms) : Terms :=
  (terms.1.setAll e.replaced, e.bequeathed.getD terms.2)

/-- The terms after some entries, the latest first. -/
def Entry.amends (entries : List Entry) (terms : Terms) : Terms :=
  entries.foldr amend terms

theorem Entry.amends_of_same {entries : List Entry} (terms : Terms)
    (same : ∀ e ∈ entries, e.replaced = [] ∧ e.bequeathed = none) :
    amends entries terms = terms := by
  induction entries with
  | nil => rfl
  | cons e earlier ih =>
    obtain ⟨replaced, bequeathed⟩ := same e List.mem_cons_self
    unfold amends
    rw [List.foldr_cons, ← amends, ih fun e member => same e (List.mem_cons_of_mem _ member), amend,
      replaced, bequeathed]
    rfl

/-- The kinds of packets that are sent only to keep or end a session. -/
def Packet.Kind.steering : List Packet.Kind :=
  [.connect, .pingReq, .disconnect]

/-- Whether octets are a packet that is sent within a session. -/
def Packet.IsInner (packet : Bytes) : Prop :=
  ∃ q, parse? packet = some q ∧ q.kind ∉ Kind.steering

theorem Packet.isInner_ack {kind : Kind} (inner : kind ∉ Kind.steering) (id : UInt16) :
    IsInner (ack kind id) :=
  ⟨_, parse?_ack kind id, inner⟩

theorem Packet.isInner_put {p : Publish} {packet : Bytes} (written : encode p.put = .ok packet) :
    IsInner packet := by
  obtain ⟨_, flags, body, _, whole, _⟩ := Publish.parse?_put written
  exact ⟨_, whole, by simp [Kind.steering]⟩

theorem Resendable.isInner {id : UInt16} {awaits : AckKind} {packet : Bytes}
    (h : Resendable id awaits packet) : Packet.IsInner packet := by
  obtain ⟨q, whole, resent⟩ := h.parse?
  refine ⟨q, whole, fun steering => ?_⟩
  revert resent steering
  cases q.kind <;> decide

theorem Requested.isInner {packet : Bytes} (h : Requested packet) : Packet.IsInner packet := by
  obtain ⟨q, whole, asked⟩ := h.parse?
  refine ⟨q, whole, fun steering => ?_⟩
  revert asked steering
  cases q.kind <;> decide

/-- Whether an event tells of the beginning or the end of a session, or of what leads to
another or to none. -/
def Event.IsTurning : Event → Prop
  | .connected _ | .disconnected _ | .reconnecting | .destroying => True
  | _ => False

/-- Whether an entry can be written in a lapse, under a client as it stands. -/
def Entry.Within (c : Client) : Entry → Prop
  | .dialled .. | .opened | .closed | .received _ | .obeyed _ => False
  | .sent a => c.phase = .connected ∧ c.linked = true ∧ Packet.IsInner a.whole
  | .raised event _ _ => ¬ event.IsTurning
  | _ => True

theorem Entry.Within.of_eq {c c' : Client} {e : Entry} (h : e.Within c)
    (phase : c'.phase = c.phase) (linked : c'.linked = c.linked) : e.Within c' := by
  cases e <;> first
    | exact h
    | exact ⟨phase.trans h.1, linked.trans h.2.1, h.2.2⟩

/-- Whether two places are the same but for the time that a packet under way has left. -/
inductive Place.Alike : Place → Place → Prop
  | same (p : Place) : Alike p p
  | greeting (reader reader' : Frame.Reader) : Alike (.greeting reader) (.greeting reader')
  | listening (reader reader' : Frame.Reader) : Alike (.listening reader) (.listening reader')

theorem Place.Alike.trans {p q r : Place} (first : Alike p q) (later : Alike q r) : Alike p r := by
  cases first with
  | same => exact later
  | greeting reader => cases later <;> exact .greeting reader _
  | listening reader => cases later <;> exact .listening reader _

theorem Place.Alike.symm {p q : Place} (h : Alike p q) : Alike q p := by
  cases h with
  | same => exact .same _
  | greeting reader reader' => exact .greeting reader' reader
  | listening reader reader' => exact .listening reader' reader

/-- Whether a packet is under way. -/
def Place.isReading : Place → Bool
  | .greeting _ | .listening _ => true
  | _ => false

/-- Where no packet is under way alike places are the same. -/
theorem Place.Alike.eq {p q : Place} (h : Alike p q) (unread : q.isReading = false) : p = q := by
  cases h with
  | same => rfl
  | greeting | listening => cases unread

theorem Client.alike_pass (c : Client) (ms : Nat) : Place.Alike c.place (c.pass ms).place := by
  rw [Client.pass_place]
  split
  next here => rw [here]; exact .greeting _ _
  next here => rw [here]; exact .listening _ _
  · exact .same _

/-- What a client keeps of its connection. -/
def Client.bearing (c : Client) : Phase × Bool × KeepAlive × Place × Bool × Terms :=
  (c.phase, c.linked, c.keepAlive, c.place, c.parked, c.terms)

/-- Whether two clients differ only in what is no part of the connection. -/
def Client.Spares (c' c : Client) : Prop :=
  c'.bearing = c.bearing

theorem Client.Spares.parts {c' c : Client} (h : c'.Spares c) :
    c'.phase = c.phase ∧ c'.linked = c.linked ∧ c'.keepAlive = c.keepAlive ∧
      c'.place = c.place ∧ c'.parked = c.parked ∧ c'.terms = c.terms := by
  simpa [Spares, bearing] using h

theorem Client.spares_claimId (c : Client) : c.claimId.2.Spares c := by
  rcases c.claimId_cases with claimed | ⟨id, -, claimed⟩
  all_goals rw [claimed]; exact rfl

variable {σ : Type} [Environment σ] {s s' s'' : System σ}

/-- One move of a lapse. -/
inductive LapseMove : System σ → System σ → Prop
  | used (s : System σ) {outside : σ} : Environment.Use s.outside outside →
    LapseMove s (s.shift outside)
  | changed (s : System σ) {f : Client → Client} : (f s.client).Spares s.client →
    LapseMove s (s.change f)
  | told (s : System σ) {event : Event} : ¬ event.IsTurning → LapseMove s (s.announce event)
  | remarked (s : System σ) {e : Entry} : e.IsRemark → e.replaced = [] → e.bequeathed = none →
    LapseMove s (s.note e)
  /-- Settings were replaced, as the entry of the call says. -/
  | settled (s : System σ) {config : Config} {e : Entry} : e.IsRemark →
    config = s.client.config.setAll e.replaced → e.bequeathed = none → config.validate = .ok () →
    LapseMove s ((s.change (·.under config)).note e)
  /-- The will was set, as the entry of the call says. -/
  | willed (s : System σ) {will : Option LastWill} {e : Entry} : e.IsRemark → e.replaced = [] →
    e.bequeathed = some will → LapseMove s ((s.change fun c => { c with will }).note e)
  | sent (s : System σ) {packet : Bytes} : s.client.phase = .connected →
    Packet.IsInner packet → LapseMove s (s.afterSend packet)
  | started (s : System σ) : s.client.place = .unstarted →
    LapseMove s (s.change fun c => { c with phase := .start, place := .running })
  /-- The teardown of a client that was never started is told of. -/
  | undone (s : System σ) : s.client.phase = .init → LapseMove s (s.announce .destroying)
  | released (s : System σ) : s.client.phase = .init →
    LapseMove s (s.close.change Client.release)

/-- A stretch in which nothing happens to the connection. -/
abbrev Lapse : System σ → System σ → Prop :=
  Relation.ReflTransGen LapseMove

theorem Lapse.shift (s : System σ) {outside : σ} (used : Environment.Use s.outside outside) :
    Lapse s (s.shift outside) :=
  .single (.used s used)

theorem Lapse.change (s : System σ) {f : Client → Client} (spares : (f s.client).Spares s.client) :
    Lapse s (s.change f) :=
  .single (.changed s spares)

theorem Lapse.announce (s : System σ) {event : Event} (inner : ¬ event.IsTurning) :
    Lapse s (s.announce event) :=
  .single (.told s inner)

/-! ## Lapses of a client that was started -/

omit [Environment σ] in
/-- Whether a client was started. -/
def System.Begun (s : System σ) : Prop :=
  s.client.phase ≠ .init ∧ s.client.place ≠ .unstarted

omit [Environment σ] in
theorem System.Busy.begun (h : s.Busy) : s.Begun :=
  ⟨h.2, by rw [h.1]; exact Place.noConfusion⟩

omit [Environment σ] in
/-- What a lapse leaves alone of a client that was started. -/
structure Still (s s' : System σ) : Prop where
  phase : s'.client.phase = s.client.phase
  linked : s'.client.linked = s.client.linked
  place : Place.Alike s.client.place s'.client.place
  parked : s'.client.parked = s.client.parked
  valid : s.client.config.validate = .ok () → s'.client.config.validate = .ok ()
  entries : ∃ new, s'.log = new ++ s.log ∧ (∀ e ∈ new, e.Within s.client) ∧
    s'.client.terms = Entry.amends new s.client.terms

namespace Still

omit [Environment σ]

theorem of_log (phase : s'.client.phase = s.client.phase)
    (linked : s'.client.linked = s.client.linked) (place : s'.client.place = s.client.place)
    (parked : s'.client.parked = s.client.parked) (terms : s'.client.terms = s.client.terms)
    (log : s'.log = s.log) : Still s s' := by
  have config : s'.client.config = s.client.config := congrArg Prod.fst terms
  exact ⟨phase, linked, place ▸ .same _, parked, by rw [config]; exact id, [], log,
    fun _ none => (by cases none), terms⟩

theorem of_entry {e : Entry} (phase : s'.client.phase = s.client.phase)
    (linked : s'.client.linked = s.client.linked) (place : s'.client.place = s.client.place)
    (parked : s'.client.parked = s.client.parked)
    (valid : s.client.config.validate = .ok () → s'.client.config.validate = .ok ())
    (terms : s'.client.terms = e.amend s.client.terms)
    (log : s'.log = e :: s.log) (within : e.Within s.client) : Still s s' :=
  ⟨phase, linked, place ▸ .same _, parked, valid, [e], log, fun _ member =>
    List.mem_singleton.1 member ▸ within, terms⟩

theorem trans (first : Still s s') (later : Still s' s'') : Still s s'' := by
  obtain ⟨new, log, within, terms⟩ := first.entries
  obtain ⟨newer, log', within', terms'⟩ := later.entries
  refine ⟨later.phase.trans first.phase, later.linked.trans first.linked,
    first.place.trans later.place, later.parked.trans first.parked,
    fun valid => later.valid (first.valid valid), newer ++ new,
    by rw [log', log, List.append_assoc], fun e member => ?_, ?_⟩
  · rcases List.mem_append.1 member with new | old
    · exact (within' e new).of_eq first.phase.symm first.linked.symm
    · exact within e old
  · rw [terms', terms]
    exact (List.foldr_append ..).symm

theorem begun (still : Still s s') (h : s.Begun) : s'.Begun := by
  refine ⟨by rw [still.phase]; exact h.1, fun unstarted => h.2 ?_⟩
  rw [← unstarted]
  exact still.place.eq (by rw [unstarted]; rfl)

theorem busy (still : Still s s') (h : s.Busy) : s'.Busy := by
  refine ⟨?_, by rw [still.phase]; exact h.2⟩
  rw [← h.1]
  exact still.place.symm.eq (by rw [h.1]; rfl)

end Still

theorem Entry.IsRemark.within {e : Entry} (h : e.IsRemark) (c : Client) : e.Within c := by
  cases e <;> first | exact trivial | exact absurd h id

/-- Within a session what is offered of a packet of sessions may be written in a lapse. -/
theorem System.within_of_mem_offers {packet : Bytes} {a : Transport.Attempt}
    (connected : s.client.phase = .connected) (inner : Packet.IsInner packet)
    (offered : a ∈ s.offers packet) : (Entry.sent a).Within s.client := by
  refine ⟨connected, Decidable.byContradiction fun closed => ?_,
    System.whole_of_mem_offers offered ▸ inner⟩
  rw [System.offers, if_neg closed] at offered
  cases offered

theorem LapseMove.still (move : LapseMove s s') (begun : s.Begun) : Still s s' := by
  cases move with
  | used => exact .of_log rfl rfl rfl rfl rfl rfl
  | changed spares =>
    obtain ⟨phase, linked, -, place, parked, terms⟩ := spares.parts
    exact .of_log phase linked place parked terms rfl
  | told inner => exact .of_entry rfl rfl rfl rfl id rfl rfl inner
  | remarked remark replaced bequeathed =>
    refine .of_entry rfl rfl rfl rfl id ?_ rfl (remark.within _)
    rw [Entry.amend, replaced, bequeathed]
    rfl
  | settled remark config bequeathed valid =>
    refine .of_entry rfl rfl rfl rfl (fun _ => valid) ?_ rfl (remark.within _)
    rw [Entry.amend, bequeathed, config]
    rfl
  | willed remark replaced bequeathed =>
    refine .of_entry rfl rfl rfl rfl id ?_ rfl (remark.within _)
    rw [Entry.amend, replaced, bequeathed]
    rfl
  | @sent packet connected inner =>
    have terms : (s.afterSend packet).client.terms = s.client.terms := by
      simp [Client.terms, Client.pass_will]
    refine ⟨by simp, by simp, ?_, by simp, by simp, _, s.afterSend_log packet, ?_, ?_⟩
    · rw [System.afterSend_client]
      exact s.client.alike_pass _
    · intro e member
      obtain ⟨a, offered, rfl⟩ := List.mem_map.1 (List.mem_reverse.1 member)
      exact System.within_of_mem_offers connected inner offered
    · rw [terms, Entry.amends_of_same]
      intro e member
      obtain ⟨a, -, rfl⟩ := List.mem_map.1 (List.mem_reverse.1 member)
      exact ⟨rfl, rfl⟩
  | started unstarted => exact absurd unstarted begun.2
  | undone early | released early => exact absurd early begun.1

theorem Lapse.still (lapse : Lapse s s') (begun : s.Begun) : Still s s' := by
  induction lapse with
  | refl => exact .of_log rfl rfl rfl rfl rfl rfl
  | tail _ move ih => exact ih.trans (move.still (ih.begun begun))

theorem Lapse.busy (lapse : Lapse s s') (busy : s.Busy) : s'.Busy :=
  (lapse.still busy.begun).busy busy

omit [Environment σ] in
/-- Whether a session stands. -/
def System.Joined (s : System σ) : Prop :=
  s.client.phase = .connected ∧ s.client.place ≠ .unstarted

omit [Environment σ] in
theorem System.Joined.begun (h : s.Joined) : s.Begun :=
  ⟨by rw [h.1]; exact Phase.noConfusion, h.2⟩

omit [Environment σ] in
theorem System.Busy.joined (h : s.Busy) (connected : s.client.phase = .connected) : s.Joined :=
  ⟨connected, h.begun.2⟩

/-- A session that stands outlasts a lapse. -/
theorem Lapse.joined (lapse : Lapse s s') (h : s.Joined) : s'.Joined :=
  ⟨(lapse.still h.begun).phase.trans h.1, ((lapse.still h.begun).begun h.begun).2⟩

namespace Act

variable {α β : Type}

/-- Whether an action, run from a system, is a lapse. -/
def Lapses (action : Act σ α) (s : System σ) : Prop :=
  action.Ends s fun _ s' => Lapse s s'

/-! ## Putting lapses together -/

namespace Lapses

theorem bind {x : Act σ α} {f : α → Act σ β} (first : x.Lapses s)
    (later : ∀ a s', Lapse s s' → (f a).Lapses s') : (x >>= f).Lapses s :=
  ends_bind.2 <| first.imp fun a s' lapse => (later a s' lapse).imp fun _ _ => lapse.trans

theorem try_bind {x : Try σ α} {f : α → Try σ β} (first : Lapses x.run s)
    (later : ∀ a s', Lapse s s' → Lapses (f a).run s') : Lapses (x >>= f).run s := by
  refine Act.try_bind.2 (first.imp fun r s' lapse => ?_)
  cases r with
  | error e => exact lapse
  | ok a => exact (later a s' lapse).imp fun _ _ => lapse.trans

theorem lift {x : Act σ α} (h : x.Lapses s) : Lapses (Act.lift x).run s :=
  try_lift.2 h

theorem answer {toReply : α → Reply} {x : Try σ α} (h : Lapses x.run s) :
    Lapses (Act.answer toReply x) s :=
  ends_answer.2 h

theorem now : Lapses Act.now s :=
  Lapse.shift s (.now s.outside)

theorem update {f : Client → Client} (spares : (f s.client).Spares s.client) :
    Lapses (Act.update f) s :=
  Lapse.change s spares

theorem draw {f : Client → α × Client} (spares : (f s.client).2.Spares s.client) :
    Lapses (Act.draw f) s :=
  Lapse.change s (f := fun c => (f c).2) spares

theorem transmit {packet : Bytes} (connected : s.client.phase = .connected)
    (inner : Packet.IsInner packet) : Lapses (Act.transmit packet).run s :=
  try_transmit.2 (.single (.sent s connected inner))

/-- Lapses for each member of a list make one lapse. -/
theorem forM {f : α → Act σ Unit} (as : List α) (each : ∀ a s', (f a).Lapses s') :
    (as.forM f).Lapses s := by
  induction as generalizing s with
  | nil => exact .refl
  | cons a as ih =>
    change (f a >>= fun _ => as.forM f).Lapses s
    exact (each a s).bind fun _ _ _ => ih

end Lapses

/-! ## Calls -/

theorem submit_lapses {r : Request} (issued : r.Issued) (connected : s.client.phase = .connected) :
    Lapses (submit r).run s := by
  have claims : Lapse s (s.change fun c => c.claimId.2) := .change s s.client.spares_claimId
  have standing : (s.change fun c => c.claimId.2).client.phase = .connected :=
    s.client.spares_claimId.parts.1.trans connected
  unfold submit
  refine try_bind.2 (try_lift.2 (ends_draw.2 ?_))
  generalize s.client.claimId.1 = claimed
  generalize (s.change fun c => c.claimId.2) = s₁ at claims standing ⊢
  cases claimed with
  | none => exact claims
  | some id =>
    dsimp only
    cases written : Packet.encode (r.packet id) with
    | error e => exact claims
    | ok packet =>
      have inner := (Requested.request issued written).isInner
      simp only [try_bind, try_lift, ends_now, ends_update, try_tryCatch, try_transmit]
      generalize registered : System.change (s₁.shift (Environment.now s₁.outside).2) _ = t
      have waits : Lapse s t :=
        registered ▸ (claims.tail (.used s₁ (.now s₁.outside))).tail (.changed _ rfl)
      have connected' : t.client.phase = .connected := registered ▸ standing
      have sent := waits.tail (.sent t connected' inner)
      cases t.sendResult packet with
      | ok u => exact sent
      | error e => exact sent.trans (Lapse.change _ (f := (·.unregister r.awaits id)) rfl)

theorem subscribe_lapses (filters : List (String × Qos)) : Lapses (subscribe filters).run s := by
  unfold subscribe
  cases filters with
  | nil => exact .refl
  | cons first rest =>
    refine after_checkFilters (fun checked => ?_) fun _ _ => .refl
    refine after_ensureConnected (fun _ connected => ?_) fun _ _ => .refl
    exact submit_lapses (.subscribe first (List.cons_ne_nil first rest)
      (List.forall_mem_map.1 checked)) connected

theorem unsubscribe_lapses (filters : List String) : Lapses (unsubscribe filters).run s := by
  unfold unsubscribe
  cases filters with
  | nil => exact .refl
  | cons first rest =>
    refine after_checkFilters (fun checked => ?_) fun _ _ => .refl
    refine after_ensureConnected (fun _ connected => ?_) fun _ _ => .refl
    exact submit_lapses (.unsubscribe _ (List.cons_ne_nil first rest) checked) connected

theorem publish_lapses (topic : String) (payload : Bytes) (qos : Qos) (retain : Bool) :
    Lapses (publish topic payload qos retain).run s := by
  unfold publish
  refine after_checkName ?_ fun _ _ => .refl
  refine after_ensureConnected (fun _ connected => ?_) fun _ _ => .refl
  cases qos with
  | atMostOnce =>
    refine Lapses.try_bind (try_transmitPacket.2 ?_) fun _ _ _ => .refl
    split
    · cases written : Packet.encode _ with
      | error e => exact .refl
      | ok bs => exact .single (.sent s connected (Packet.isInner_put written))
    · exact .refl
  | atLeastOnce =>
    exact (submit_lapses (.atLeastOnce topic payload retain) connected).try_bind fun _ _ _ => .refl
  | exactlyOnce =>
    exact (submit_lapses (.exactlyOnce topic payload retain) connected).try_bind fun _ _ _ => .refl

section Raising

variable {raise : Event → Act σ Unit}

/-- Raising an event writes its entry, and the rest is a lapse. -/
abbrev RaisesLapsing (raise : Event → Act σ Unit) : Prop :=
  ∀ (s : System σ) (e : Event), Ends (raise e) s fun _ s' => Lapse (s.announce e) s'

theorem RaisesLapsing.lapses (raises : RaisesLapsing raise) {e : Event} (inner : ¬ e.IsTurning) :
    (raise e).Lapses s :=
  (raises s e).imp fun _ _ => (Lapse.announce s inner).trans

theorem join_lapses (caller : Caller) : (join caller).Lapses s := by
  unfold join
  refine ends_bind.2 (ends_client.2 ?_)
  split
  · exact .refl
  · cases caller with
    | thread => exact .refl
    | application => exact Lapses.bind (.update rfl) fun _ _ _ => .refl

/-- Every call but one for other settings or another will is a lapse. -/
theorem perform_lapses (calls : Raises raise) (raises : RaisesLapsing raise) (caller : Caller)
    {c : Call} (other : ∀ settings, c ≠ .configure settings) (kept : ∀ will, c ≠ .setWill will) :
    (perform raise caller c).Lapses s := by
  cases c
  case configure settings => exact absurd rfl (other settings)
  case setWill will => exact absurd rfl (kept will)
  case start =>
    refine Lapses.answer (after_ensureAlive (fun _ => ?_) fun _ _ => .refl)
    simp only [try_bind, try_lift, ends_client]
    split
    · exact .refl
    next there =>
      have unstarted := Client.unstarted_of_hasConnector (by simpa using there)
      simp only [try_bind, try_lift, ends_spawn]
      have asked := Lapse.shift s (.spawn s.outside)
      split
      · exact asked.tail (.started _ unstarted)
      · exact asked.trans (Lapse.change _ (f := fun c => { c with spoilt := true }) rfl)
  case destroy =>
    refine Lapses.answer (after_ensureAlive (fun _ => ?_) fun _ _ => .refl)
    refine Lapses.lift (ends_bind.2 (ends_update.2 (ends_bind.2 (ends_client.2 ?_))))
    have condemned : Lapse s (s.change fun c => { c with destroyed := true }) := .change s rfl
    split
    next early =>
      rw [ends_bind]
      apply ((raises _ .destroying).and (calls _ .destroying)).imp
      rintro _ s₁ ⟨told, undone⟩
      rw [ends_release]
      have phase := (unstarted_of_calls undone ⟨rfl, early⟩).2
      exact ((condemned.tail (.undone _ early)).trans told).tail (.released s₁ phase)
    · exact (Lapses.update rfl : (ask .destroy).Lapses _).imp fun _ _ => condemned.trans
  case join => exact join_lapses caller
  case tryJoin =>
    refine ends_bind.2 (ends_client.2 (ends_bind.2 (ends_client.2 ?_)))
    split
    · exact .refl
    · exact join_lapses caller
  case makeWill topic payload qos retain =>
    exact ends_answer.2
      ((makeWill_stays topic payload qos retain).imp fun _ _ same => same ▸ .refl)
  case reconnect =>
    refine Lapses.answer (after_ensureAlive (fun _ => ?_) fun _ _ => .refl)
    exact after_ensureStarted (fun _ => Lapses.lift (.update rfl)) fun _ _ => .refl
  case disconnect notify =>
    refine Lapses.answer (after_ensureAlive (fun _ => ?_) fun _ _ => .refl)
    exact after_ensureStarted (fun _ => Lapses.lift (.update rfl)) fun _ _ => .refl
  case subscribe filter qos => exact (subscribe_lapses _).answer
  case subscribeAll filters => exact (subscribe_lapses filters).answer
  case unsubscribe filter => exact (unsubscribe_lapses _).answer
  case unsubscribeAll filters => exact (unsubscribe_lapses filters).answer
  case publish topic payload qos retain => exact (publish_lapses topic payload qos retain).answer
  case discard awaits id =>
    refine Lapses.answer (Lapses.try_bind (.lift (.draw rfl)) fun taken s₁ _ => ?_)
    cases taken with
    | none => exact .refl
    | some t =>
      refine Lapses.lift ?_
      split
      · exact Lapses.bind (.update rfl) fun _ _ _ => raises.lapses fun turning => turning
      · exact raises.lapses fun turning => turning
  case enable mask => exact Lapses.bind (.update rfl) fun _ _ _ => .refl
  case disable mask => exact Lapses.bind (.update rfl) fun _ _ _ => .refl
  all_goals exact .refl

/-- A call with the entry that says how it was answered is a lapse. -/
theorem record_lapse (calls : Raises raise) (raises : RaisesLapsing raise) (caller : Caller)
    (c : Call) {entry : Reply → Entry} (remark : ∀ r, (entry r).IsRemark)
    (replaced : ∀ r, (entry r).replaced = c.replaced r)
    (bequeathed : ∀ r, (entry r).bequeathed = c.bequeathed r) :
    Ends (perform raise caller c) s fun r s' => Lapse s (s'.note (entry r)) := by
  by_cases set : ∃ settings, c = .configure settings
  · obtain ⟨settings, rfl⟩ := set
    refine ends_answer.2 ?_
    unfold configure
    simp only [try_bind, try_lift, ends_client]
    cases sound : (s.client.config.setAll settings).validate with
    | error fault => exact .single (.remarked s (remark _) (replaced _) (bequeathed _))
    | ok u =>
      exact .single (.settled s (remark _) (by rw [replaced]; rfl) (bequeathed _) sound)
  · by_cases willed : ∃ will, c = .setWill will
    · obtain ⟨will, rfl⟩ := willed
      exact .single (.willed s (remark _) (replaced _) (bequeathed _))
    · have other : ∀ settings, c ≠ .configure settings := fun settings same =>
        set ⟨settings, same⟩
      have kept : ∀ will, c ≠ .setWill will := fun will same => willed ⟨will, same⟩
      refine (perform_lapses calls raises caller other kept).imp fun r s' lapse => ?_
      refine lapse.tail (.remarked s' (remark r) ((replaced r).trans ?_) ((bequeathed r).trans ?_))
      all_goals cases c <;> first
        | rfl
        | exact absurd rfl (other _)
        | exact absurd rfl (kept _)

end Raising

/-! ## Callbacks -/

theorem carryOut_lapses {respond : Call → Act σ Reply} {caller : Caller} (plan : Plan)
    (responds : ∀ (s : System σ) c heeded,
      Ends (respond c) s fun r s' => Lapse s (s'.note (.reacted caller c heeded r))) :
    (carryOut respond caller plan).Lapses s := by
  induction plan generalizing s with
  | finish => exact .refl
  | call c heeded next ih =>
    refine ends_bind.2 ((responds s c heeded).imp fun reply s₁ lapse => ?_)
    exact ends_bind.2 (ends_note.2 ((ih reply).imp fun _ _ => lapse.trans))
  | wait ms next ih =>
    refine Lapses.bind (Lapse.shift s (.wait s.outside ms)) fun reading s₁ _ => ?_
    have noted : Lapse s₁ (s₁.note (.waited caller ms reading)) :=
      .single (.remarked s₁ trivial rfl rfl)
    exact Lapses.bind noted fun _ _ _ => ih reading

/-- What callbacks do is a lapse, however deep they nest. -/
theorem raiseAt_lapsing (depth : Nat) (caller : Caller) :
    RaisesLapsing (raiseAt (σ := σ) depth caller) := by
  induction depth with
  | zero => exact fun s e => .refl
  | succ depth ih =>
    intro s e
    unfold raiseAt
    rw [ends_bind, ends_announce]
    split
    · refine Lapses.bind (Lapse.shift _ (.react _ _ e)) fun plan s₁ _ => ?_
      exact carryOut_lapses plan fun s c heeded =>
        record_lapse (raiseAt_calls depth caller) ih caller c (fun _ => trivial) (fun _ => rfl)
          fun _ => rfl
    · exact .refl

theorem tell_lapse (e : Event) : Ends (tell e) s fun _ s' => Lapse (s.announce e) s' :=
  raiseAt_lapsing _ .thread s e

theorem tell_lapses {e : Event} (inner : ¬ e.IsTurning) : (tell e).Lapses s :=
  RaisesLapsing.lapses (raiseAt_lapsing _ .thread) inner

/-- A call of the application is a lapse. -/
theorem call_lapses (c : Call) : (call c).Lapses s :=
  ends_bind.2 <| record_lapse (raise_calls .application) (raiseAt_lapsing _ .application)
    .application c (fun _ => trivial) (fun _ => rfl) fun _ => rfl

/-! ## The registries -/

theorem warnPending_lapses (warning : Option Nat) : (warnPending warning).Lapses s := by
  cases warning with
  | none => exact .refl
  | some count => exact tell_lapses fun turning => turning

theorem migrate_lapses : (migrate (σ := σ)).Lapses s :=
  Lapses.bind (.draw rfl) fun warning _ _ => warnPending_lapses warning

theorem track_lapses (awaits : AckKind) (id : UInt16) (packet : Bytes) (subject : Subject) :
    (track awaits id packet subject).Lapses s :=
  Lapses.now.bind fun _ _ _ => Lapses.bind (.draw rfl) fun warning _ _ => warnPending_lapses warning

/-! ## Acting on a packet -/

theorem deliver_lapses (message : Message) : (deliver message).Lapses s := by
  refine ends_bind.2 (ends_client.2 ?_)
  split <;> exact tell_lapses fun turning => turning

theorem reply_lapses {kind : Packet.Kind} {id : UInt16} (inner : kind ∉ Packet.Kind.steering)
    (joined : s.Joined) : Lapses (transmit (Packet.ack kind id)).run s :=
  .transmit joined.1 (Packet.isInner_ack inner id)

theorem onPublish_lapses (joined : s.Joined) (m : Packet.Publish) :
    Lapses (onPublish m).run s := by
  unfold onPublish
  dsimp only
  split
  · exact Lapses.try_bind (.lift (deliver_lapses _)) fun _ _ delivered =>
      reply_lapses (by decide) (delivered.joined joined)
  · refine Lapses.try_bind (.refl : Lapses (lift client).run s) fun c s₁ look => ?_
    split
    · exact reply_lapses (by decide) (look.joined joined)
    · refine Lapses.try_bind (.lift (deliver_lapses _)) fun _ s₂ delivered => ?_
      refine Lapses.try_bind (.lift (track_lapses _ _ _ _)) fun _ s₃ tracked => ?_
      exact reply_lapses (by decide) (tracked.joined (delivered.joined (look.joined joined)))
  · exact .lift (deliver_lapses _)

theorem onPubRel_lapses (joined : s.Joined) (id : UInt16) : Lapses (onPubRel id).run s :=
  Lapses.try_bind (.lift (.draw rfl)) fun _ _ taken =>
    reply_lapses (by decide) (taken.joined joined)

theorem onPublished_lapses (awaits : AckKind) (id : UInt16) : (onPublished awaits id).Lapses s := by
  refine Lapses.bind (.draw rfl) fun taken _ _ => ?_
  cases taken with
  | none => exact .refl
  | some t => exact tell_lapses fun turning => turning

theorem onPubRec_lapses (joined : s.Joined) (id : UInt16) : Lapses (onPubRec id).run s := by
  refine Lapses.try_bind (.lift (.draw rfl)) fun taken s₁ drawn => ?_
  cases taken with
  | none =>
    refine Lapses.try_bind (.refl : Lapses (lift client).run s₁) fun c s₂ look => ?_
    split
    · exact reply_lapses (by decide) (look.joined (drawn.joined joined))
    · exact .refl
  | some t =>
    exact Lapses.try_bind (.lift (track_lapses _ _ _ _)) fun _ _ tracked =>
      reply_lapses (by decide) (tracked.joined (drawn.joined joined))

theorem settle_lapses (id : UInt16) (subject : Subject) (code : UInt8) :
    (settle id subject code).Lapses s := by
  unfold settle
  cases Qos.ofByte? code with
  | none => exact tell_lapses fun turning => turning
  | some qos =>
    refine Lapses.bind (.update rfl) fun _ _ _ => ?_
    exact Lapses.bind (tell_lapses fun turning => turning) fun _ _ _ => .update rfl

theorem onSubAck_lapses (id : UInt16) (codes : Bytes) : (onSubAck id codes).Lapses s := by
  refine Lapses.bind (.draw rfl) fun taken _ _ => ?_
  cases taken with
  | none => exact .refl
  | some t =>
    refine Lapses.bind (.draw rfl) fun subjects _ _ => ?_
    split
    · exact .forM _ fun (subject, code) _ => settle_lapses id subject code
    · refine .forM _ fun _ _ => ?_
      exact tell_lapses fun turning => turning

theorem onUnsubAck_lapses (id : UInt16) : (onUnsubAck id).Lapses s := by
  refine Lapses.bind (.draw rfl) fun taken _ _ => ?_
  cases taken with
  | none => exact .refl
  | some t =>
    refine Lapses.bind (.draw rfl) fun subjects _ _ => ?_
    refine .forM _ fun _ _ => Lapses.bind (.update rfl) fun _ _ _ => ?_
    exact tell_lapses fun turning => turning

end Act

/-- The system once the heartbeat took note of a packet of the session. -/
def System.revived (s : System σ) (p : Inbound) : System σ :=
  if p.kind = .pingResp then
    (s.shift (Environment.now s.outside).2).change
      fun c => { c with keepAlive := c.keepAlive.pong (Environment.now s.outside).1 }
  else s

/-- The heartbeat takes nothing else from a packet. -/
theorem System.revived_client (s : System σ) (p : Inbound) :
    ∃ keepAlive, (s.revived p).client = { s.client with keepAlive } := by
  unfold System.revived
  split <;> exact ⟨_, rfl⟩

@[simp]
theorem System.revived_log (s : System σ) (p : Inbound) : (s.revived p).log = s.log := by
  unfold System.revived
  split <;> rfl

@[simp]
theorem System.revived_phase (s : System σ) (p : Inbound) :
    (s.revived p).client.phase = s.client.phase := by
  obtain ⟨_, client⟩ := s.revived_client p
  rw [client]

@[simp]
theorem System.revived_linked (s : System σ) (p : Inbound) :
    (s.revived p).client.linked = s.client.linked := by
  obtain ⟨_, client⟩ := s.revived_client p
  rw [client]

theorem System.Busy.revived (h : s.Busy) (p : Inbound) : (s.revived p).Busy := by
  obtain ⟨_, client⟩ := s.revived_client p
  rw [System.Busy, client]
  exact h

namespace Act

/-- Acting on a packet of the session is a lapse, but for what the heartbeat takes from it. -/
theorem dispatch_lapse (joined : s.Joined) (p : Inbound) :
    Ends (dispatch p).run s fun _ s' => Lapse (s.revived p) s' := by
  have skip {α : Type} (decoded : Except Packet.Error α) {action : α → Try σ Unit}
      (act : ∀ a, Lapses (action a).run s) : Lapses (onDecoded decoded action).run s := by
    cases decoded with
    | error e => exact .refl
    | ok a => exact act a
  by_cases answer : p.kind = .pingResp
  · unfold dispatch System.revived
    rw [if_pos answer, answer]
    exact .refl
  · rw [System.revived, if_neg answer]
    unfold dispatch
    split
    · exact skip _ (onPublish_lapses joined)
    · exact skip _ fun id => .lift (onPublished_lapses _ id)
    · exact skip _ fun id => .lift (onPublished_lapses _ id)
    · exact skip _ (onPubRec_lapses joined)
    · exact skip _ (onPubRel_lapses joined)
    · exact skip _ fun a => .lift (onSubAck_lapses a.packetId a.codes)
    · exact skip _ fun id => .lift (onUnsubAck_lapses id)
    next named => exact absurd named answer
    · exact .refl

/-! ## Looking after transactions -/

theorem expire_lapses (t : Transaction) : (expire t).Lapses s := by
  refine Lapses.bind (.draw rfl) fun listed _ _ => ?_
  refine .forM _ fun subject _ => ?_
  split <;> exact tell_lapses fun turning => turning

theorem carryActions_lapses (actions : List Action) (failure : Option Error) (joined : s.Joined)
    (inner : ∀ kind id retries packet, .resend kind id retries packet ∈ actions →
      Packet.IsInner packet) : (carryActions failure actions).Lapses s := by
  induction actions generalizing s failure with
  | nil => exact .refl
  | cons a rest ih =>
    have next (failure : Option Error) {s' : System σ} (lapse : Lapse s s') :
        (carryActions failure rest).Lapses s' :=
      ih failure (lapse.joined joined) fun kind id retries packet member =>
        inner kind id retries packet (List.mem_cons_of_mem _ member)
    cases a with
    | warn kind id retries =>
      rw [carryActions]
      exact Lapses.bind (tell_lapses fun turning => turning) fun _ _ => next failure
    | expire t =>
      rw [carryActions]
      exact (expire_lapses t).bind fun _ _ => next failure
    | resend kind id retries packet =>
      cases failure with
      | some e => exact next (some e) .refl
      | none =>
        rw [carryActions]
        refine Lapses.bind (.transmit joined.1 (inner kind id retries packet List.mem_cons_self))
          fun result s₁ sent => ?_
        cases result with
        | error e => exact next _ sent
        | ok u =>
          exact Lapses.bind (tell_lapses fun turning => turning) fun _ _ told =>
            next none (sent.trans told)

/-- A look at the transactions of a session is a lapse. -/
theorem scan_lapses (force : Bool) (joined : s.Joined) (sane : s.client.pending.Sane) :
    (scan force).Lapses s := by
  refine ends_bind.2 (ends_client.2 (ends_bind.2 (ends_now.2 (ends_bind.2 (ends_draw.2 ?_)))))
  let s₁ := s.shift (Environment.now s.outside).2
  have looked : Lapse s (s₁.change fun c => { c with pending := (c.pending.scan
      (Environment.now s.outside).1 s.client.config.retryWarning force).2 }) :=
    .tail (Lapse.shift s (.now s.outside)) (.changed s₁ rfl)
  refine (carryActions_lapses _ none (looked.joined joined) ?_).imp fun _ _ => looked.trans
  intro kind id retries packet member
  obtain ⟨t, active, asked⟩ := Pending.mem_scan_actions.1 member
  exact ((sane.sound t (Pending.mem_all.2 (Or.inl active))).resendable asked).isInner

theorem resubscribe_lapses : (resubscribe (σ := σ)).Lapses s := by
  unfold resubscribe
  refine ends_bind.2 (ends_client.2 ?_)
  dsimp only
  split
  · exact .refl
  · exact Lapses.bind (perform_lapses (raise_calls .thread) (raiseAt_lapsing _ .thread) .thread
      (fun _ => Call.noConfusion) fun _ => Call.noConfusion)
      fun reply s₁ _ => .single (.remarked s₁ trivial rfl rfl)

end Act

end Mqtt
