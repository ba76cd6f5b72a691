import Mqtt.Proofs.Chores
import Mqtt.Proofs.Lapses

/-!
# The strides of the thread

A chore finds the client as it needs it (`Chore.Ready`), whichever way led to it.  What the
application and the transactions do on such a way is an interlude: a lapse between two things to
do.  So each way is a stride of moves from place to place, and what is done from a chore on is a
walk of them (`Route.leads`).
-/

namespace Mqtt

variable {σ : Type} [Environment σ] {s s' t : System σ} {chore next : Chore}

/-! ## Interludes -/

omit [Environment σ] in
/-- What holds of a client whose thread is between two places. -/
structure System.Awake (s : System σ) : Prop where
  busy : s.Busy
  sane : s.client.pending.Sane
  valid : s.client.config.validate = .ok ()

/-- A lapse between two things to do. -/
structure Interlude (s s' : System σ) : Prop where
  before : s.Awake
  lapse : Lapse s s'
  after : s'.Awake

namespace Interlude

theorem of_lapse (before : s.Awake) (lapse : Lapse s s') (sane : s'.client.pending.Sane) :
    Interlude s s' :=
  ⟨before, lapse, lapse.busy before.busy, sane, (lapse.still before.busy.begun).valid before.valid⟩

theorem still (h : Interlude s s') : Still s s' :=
  h.lapse.still h.before.busy.begun

theorem phase (h : Interlude s s') : s'.client.phase = s.client.phase :=
  h.still.phase

theorem linked (h : Interlude s s') : s'.client.linked = s.client.linked :=
  h.still.linked

theorem trans (first : Interlude s t) (later : Interlude t s') : Interlude s s' :=
  ⟨first.before, first.lapse.trans later.lapse, later.after⟩

end Interlude

/-- Whether the thread serves a session. -/
structure System.Serving (s : System σ) : Prop extends System.Awake s where
  linked : s.client.linked = true
  connected : s.client.phase = .connected

/-- Whether the thread asks for a session over an open transport, from which nothing was read or
something was. -/
structure System.Hailing (fresh : Bool) (s : System σ) : Prop extends System.Awake s where
  linked : s.client.linked = true
  apart : s.client.phase ≠ .connected
  heard : Entry.isFresh s.log = fresh

theorem System.Serving.later (h : s.Serving) (interlude : Interlude s s') : s'.Serving :=
  ⟨interlude.after, interlude.linked.trans h.linked, interlude.phase.trans h.connected⟩

namespace System.Awake

omit [Environment σ] in
theorem noted (h : s.Awake) (e : Entry) : (s.note e).Awake :=
  ⟨h.busy, h.sane, h.valid⟩

omit [Environment σ] in
theorem obeying (h : s.Awake) (control : Control) (parked : Bool) :
    (s.obeying control parked).Awake :=
  ⟨h.busy, h.sane, h.valid⟩

omit [Environment σ] in
theorem close (h : s.Awake) : s.close.Awake := by
  refine ⟨?_, ?_, ?_⟩
  · simpa [System.Busy] using h.busy
  · simpa using h.sane
  · simpa using h.valid

omit [Environment σ] in
theorem shut (h : s.Awake) : s.shut.Awake :=
  ⟨⟨h.close.busy.1, Phase.noConfusion⟩, h.close.sane, h.close.valid⟩

theorem afterSend (h : s.Awake) (packet : Bytes) : (s.afterSend packet).Awake :=
  ⟨h.busy.afterSend packet, by simpa using h.sane, by simpa using h.valid⟩

theorem polled (h : s.Awake) : s.polled.Awake :=
  ⟨h.busy, h.sane, h.valid⟩

theorem opening (h : s.Awake) : s.opening.Awake :=
  ⟨⟨h.busy.1, Phase.noConfusion⟩, h.sane, h.valid⟩

theorem revived (h : s.Awake) (p : Inbound) : (s.revived p).Awake := by
  obtain ⟨_, client⟩ := s.revived_client p
  exact ⟨h.busy.revived p, by rw [client]; exact h.sane, by rw [client]; exact h.valid⟩

/-- What the application does as it is told of an event. -/
theorem tells (h : s.Awake) (event : Event) : Interlude (s.announce event) (s.told event) := by
  have told : (s.announce event).Awake := h.noted _
  have calls : Calls (s.announce event) (s.told event) := Act.tell_calls event
  have turns : Turns none (s.announce event) (s.told event) := calls.turns
  exact .of_lapse told (Act.tell_lapse event) (turns.sane told.busy told.sane)

theorem migrates (h : s.Awake) : Interlude s (Act.migrate.run s).2 := by
  have warned : Warned (s.change fun c => { c with pending := c.pending.migrate.2 })
      (Act.migrate.run s).2 := Act.migrate_warned
  have turns : Turns none (s.change fun c => { c with pending := c.pending.migrate.2 })
      (Act.migrate.run s).2 := warned.turns
  exact .of_lapse h Act.migrate_lapses (turns.sane h.busy h.sane.migrate)

theorem renews (h : s.Awake) : Interlude s (Act.resubscribe.run s).2 := by
  have quiets : Quiets s (Act.resubscribe.run s).2 := Act.resubscribe_quiets
  have turns : Turns none s (Act.resubscribe.run s).2 :=
    Relation.ReflTransGen.mono (fun _ _ move => move.turn) _ _ quiets
  exact .of_lapse h Act.resubscribe_lapses (turns.sane h.busy h.sane)

/-- The thread goes on once reading has ended. -/
theorem reads (stopped : (s.change fun c => { c with place := .running }).Awake) :
    Interlude (s.change fun c => { c with place := .running }) s.unread :=
  stopped.migrates

end System.Awake

namespace System.Serving

theorem scans (h : s.Serving) {force : Bool} {failure : Option Error}
    (looked : (Act.scan force).run s = (failure, t)) : Interlude s t := by
  have turns : Act.Ends (Act.scan force) s fun _ s' => Turns none s s' :=
    Act.scan_turns force h.busy h.sane
  have lapse := Act.scan_lapses force (h.busy.joined h.connected) h.sane
  exact .of_lapse h.toAwake (lapse.at_run looked) ((turns.at_run looked).sane h.busy h.sane)

theorem dispatches (h : s.Serving) {p : Inbound} {result : Except Error Unit}
    (dispatched : (Act.dispatch p).run.run s = (result, t)) : Interlude (s.revived p) t := by
  have lapse := Act.dispatch_lapse (h.busy.joined h.connected) p
  have acted := Act.dispatch_acted h.busy p
  exact .of_lapse (h.toAwake.revived p) (lapse.at_run dispatched)
    ((acted.at_run dispatched).sane h.busy h.sane)

theorem revived (h : s.Serving) (p : Inbound) : (s.revived p).Serving :=
  ⟨h.toAwake.revived p, by simpa using h.linked, by simpa using h.connected⟩

theorem polled (h : s.Serving) : s.polled.Serving :=
  ⟨h.toAwake.polled, h.linked, h.connected⟩

theorem afterSend (h : s.Serving) (packet : Bytes) : (s.afterSend packet).Serving :=
  ⟨h.toAwake.afterSend packet, by simpa using h.linked, by simpa using h.connected⟩

end System.Serving

/-! ## What chores find -/

/-- What a chore finds when the thread turns to it. -/
def Chore.Ready : Chore → System σ → Prop
  | .rests, _ => True
  | .ends _, s | .recalls, s => s.Awake
  | .obeys control, s => s.Awake ∧ (control = .destroy → s.client.destroyed = true)
  | .hails _, s => s.Hailing true
  | .greets _, s | .opens _, s => s.Hailing false
  | .resumes _, s | .welcomes _, s | .attends _, s | .tends, s | .beats, s => s.Serving

theorem Goes.ready (goes : Goes chore s next t) (ready : chore.Ready s) : next.Ready t := by
  cases goes with
  | ended | left | recalled | parked | hailed | kept | renewed | unpaced | quiet | pinged => trivial
  | quit => exact ((ready.1.obeying _ _).close.tells _).after
  | freed => exact (ready.1.obeying _ _).close
  | parted => exact (ready.1.obeying _ _).afterSend _
  | dropped => exact ready.1.obeying _ _
  | unwritten | refused => exact ready.toAwake
  | unsent => exact ready.toAwake.afterSend _
  | accepted => exact ready
  | opened =>
    have begun : s.opening.Serving := ⟨ready.toAwake.opening, ready.linked, rfl⟩
    exact begun.later begun.toAwake.migrates
  | failed looked | cut looked => exact (ready.scans looked).after
  | resumed looked | tended looked => exact ready.later (ready.scans looked)
  | acted dispatched => exact (ready.revived _).later (ready.dispatches dispatched)
  | broke dispatched => exact (ready.dispatches dispatched).after
  | unpinged => exact ready.toAwake.polled.afterSend _
  | dead => exact ready.toAwake.polled

/-- What every way keeps from a chore that finds what it needs. -/
theorem Route.hold {I : Chore → System σ → Prop} (route : Route chore s s')
    (goes : ∀ {chore next : Chore} {s t : System σ},
      Goes chore s next t → chore.Ready s → I chore s → I next t)
    (ready : chore.Ready s) (start : I chore s) : I .rests s' :=
  (route.keep (I := fun chore s => chore.Ready s ∧ I chore s)
    (fun way ⟨ready, held⟩ => ⟨way.ready ready, goes way ready held⟩) ⟨ready, start⟩).2

/-- What each chore comes to, from what the next one comes to. -/
theorem Route.comes {P : Chore → System σ → System σ → Prop} (route : Route chore s s')
    (done : ∀ s, P .rests s s)
    (goes : ∀ {chore next : Chore} {s t s' : System σ},
      Goes chore s next t → chore.Ready s → P next t s' → P chore s s')
    (ready : chore.Ready s) : P chore s s' := by
  induction route with
  | done s => exact done s
  | step way _ ih => exact goes way ready (ih (way.ready ready))

/-! ## Acting on a packet -/

/-- The system once a packet of the session was acted on: where that lost the session the
transport is closed. -/
def System.afterDispatch (s : System σ) (p : Inbound) : System σ :=
  match (Act.dispatch p).run.run s with
  | (.ok (), s') => s'
  | (.error e, s') => if e.isFatal then s'.close else s'

/-- What holds once the packet was dispatched, and with the transport closed where that lost the
session, holds once it was acted on. -/
theorem afterDispatch_of_ends {p : Inbound} {Q : System σ → Prop}
    (ended : Act.Ends (Act.dispatch p).run s fun r s' =>
      Q s' ∧ (LosesSession r → Q s'.close)) : Q (s.afterDispatch p) := by
  unfold Act.Ends at ended
  unfold System.afterDispatch
  split
  next s' run =>
    rw [run] at ended
    exact ended.1
  next e s' run =>
    rw [run] at ended
    split
    next fatal => exact ended.2 fatal
    · exact ended.1

/-- What acting on a packet comes to: a walk with the packet in hand, at its end perhaps
a reply that failed for good, and the transport closed. -/
theorem afterDispatch_cases (busy : s.Busy) (p : Inbound) :
    Turns (some p) s (s.afterDispatch p) ∨
      ∃ s₀ packet, Turns (some p) s s₀ ∧ Owed p s₀ packet ∧
        LosesSession (s₀.sendResult packet) ∧ s.afterDispatch p = (s₀.afterSend packet).close := by
  have acted := Act.dispatch_acted busy p
  unfold Act.Ends at acted
  unfold System.afterDispatch
  cases run : (Act.dispatch p).run.run s with
  | mk r s₁ =>
    rw [run] at acted
    rcases acted with ⟨goesOn, turns⟩ | ⟨lost, s₀, packet, turns, owed, rfl, rfl⟩
    · left
      cases r with
      | ok u => exact turns
      | error e =>
        have mild : ¬ e.isFatal = true := goesOn
        dsimp only
        rw [if_neg mild]
        exact turns
    · right
      refine ⟨s₀, packet, turns, owed, lost, ?_⟩
      cases failed : s₀.sendResult packet with
      | ok u =>
        rw [failed] at lost
        cases lost
      | error e =>
        rw [failed] at lost
        exact if_pos lost

theorem afterDispatch_busy (busy : s.Busy) (sane : s.client.pending.Sane) (p : Inbound) :
    (s.afterDispatch p).Busy ∧ (s.afterDispatch p).client.pending.Sane := by
  rcases afterDispatch_cases busy p with turns | ⟨s₀, packet, turns, -, -, ended⟩
  · exact ⟨turns.busy busy, turns.sane busy sane⟩
  · have busy₀ := turns.busy busy
    rw [ended]
    constructor
    · simpa [System.Busy, Client.pass_place, busy₀.1] using busy₀.2
    · simpa using turns.sane busy sane

/-! ## From place to place -/

/-- What the thread does with no packet of the session in hand: a move, or a look at the
transactions with all that comes of it. -/
inductive Pace : System σ → System σ → Prop
  | move {s s' : System σ} : ThreadMove s s' → Pace s s'
  | looked {s s' : System σ} {failure : Option Error} (force : Bool) : s.Busy →
    (Act.scan force).run s = (failure, s') → Turns none s s' → Pace s s'

/-- A walk from place to place, with no packet of the session in hand. -/
abbrev Walk : System σ → System σ → Prop :=
  Relation.ReflTransGen Pace

/-- A walk that ends between two places. -/
structure Onward (s s' : System σ) : Prop where
  walk : Walk s s'
  busy : s'.Busy
  sane : s'.client.pending.Sane

theorem Onward.refl (busy : s.Busy) (sane : s.client.pending.Sane) : Onward s s :=
  ⟨.refl, busy, sane⟩

theorem Onward.trans {t : System σ} (h : Onward s s') (h' : Onward s' t) : Onward s t :=
  ⟨h.walk.trans h'.walk, h'.busy, h'.sane⟩

theorem Onward.tail {t : System σ} (h : Onward s s') (move : ThreadMove s' t) (busy : t.Busy) :
    Onward s t :=
  ⟨h.walk.tail (.move move), busy, move.sane h.sane⟩

theorem Quiets.onward (quiets : Quiets s s') (busy : s.Busy) (sane : s.client.pending.Sane) :
    Onward s s' := by
  induction quiets with
  | refl => exact .refl busy sane
  | tail _ move ih => exact ih.tail (.turn ih.busy move) (move.turn.busy ih.busy)

theorem Onward.quiets {t : System σ} (h : Onward s s') (quiets : Quiets s' t) : Onward s t :=
  h.trans (quiets.onward h.busy h.sane)

theorem Onward.closed (h : Onward s s') : Onward s s'.close :=
  h.tail (.closed s' h.busy) (by simpa [System.Busy] using h.busy)

theorem Onward.entered (h : Onward s s') {phase : Phase}
    (which : phase = .disconnected ∨ phase = .reconnecting) :
    Onward s (s'.change fun c => { c with phase }) :=
  h.tail (.entered s' phase h.busy which)
    ⟨h.busy.1, by rcases which with rfl | rfl <;> exact Phase.noConfusion⟩

theorem Onward.parted (h : Onward s s') {packet : Bytes} (parting : Parting packet) :
    Onward s (s'.afterSend packet).close :=
  h.tail (.parted s' h.busy parting) <| by
    simpa [System.Busy, Client.pass_place, h.busy.1] using h.busy.2

/-- What a chore comes to until the thread waits. -/
def Chore.Leads : Chore → System σ → System σ → Prop
  | .rests, s, s' => s' = s
  | .ends _, s, s' => Onward s.close s'
  | .obeys control, s, s' => Walk (s.note (.obeyed control)) s'
  | .hails _, s, s' => Walk s s'
  | .attends p, s, s' => Onward (s.afterDispatch p) s'
  | _, s, s' => Onward s s'

/-- The application is told of an event. -/
theorem Onward.told (h : Onward s s') (event : Event) (plain : event.IsPlain)
    (quiet : event.isOutcome = false) (first : event.isRetry = false) :
    Onward s (s'.told event) :=
  h.quiets (Act.tell_quiets event plain quiet first)

namespace System.Awake

theorem onward (h : s.Awake) : Onward s s :=
  .refl h.busy h.sane

theorem obeys (h : s.Awake) (control : Control) (parked : Bool) :
    Onward (s.note (.obeyed control)) (s.obeying control parked) :=
  have noted : (s.note (.obeyed control)).Busy := h.busy
  (Onward.refl noted h.sane).tail (.parked _ parked noted) noted

theorem polls (h : s.Awake) : Onward s s.polled :=
  h.onward.quiets (.tail (.single (.call (.outside s _))) (.pulsed _ _))

theorem migrated (h : s.Awake) : Onward s (Act.migrate.run s).2 :=
  have warned : Warned (s.change fun c => { c with pending := c.pending.migrate.2 })
      (Act.migrate.run s).2 := Act.migrate_warned
  (h.onward.quiets (.single (.migrated s))).quiets warned.quiets

theorem scanned (h : s.Awake) {force : Bool} {failure : Option Error}
    (looked : (Act.scan force).run s = (failure, t)) : Onward s t :=
  have turns : Act.Ends (Act.scan force) s fun _ s' => Turns none s s' :=
    Act.scan_turns force h.busy h.sane
  ⟨.single (.looked force h.busy looked (turns.at_run looked)),
    (turns.at_run looked).busy h.busy, (turns.at_run looked).sane h.busy h.sane⟩

end System.Awake

/-- A session is opened once the broker accepted it. -/
theorem System.Hailing.opened (h : s.Hailing false) : Onward s s.opening := by
  have shifted : Onward s (s.shift (Environment.now s.outside).2) :=
    h.onward.quiets (.single (.call (.outside s _)))
  exact shifted.tail (.began _ _ shifted.busy h.heard) ⟨h.busy.1, Phase.noConfusion⟩

theorem afterDispatch_of_run {p : Inbound} {result : Except Error Unit}
    (dispatched : (Act.dispatch p).run.run s = (result, t)) :
    (¬ LosesSession result → s.afterDispatch p = t) ∧
      (LosesSession result → s.afterDispatch p = t.close) := by
  unfold System.afterDispatch
  rw [dispatched]
  cases result with
  | ok u => exact ⟨fun _ => rfl, False.elim⟩
  | error e => exact ⟨fun mild => if_neg mild, fun fatal => if_pos fatal⟩

theorem Goes.leads (goes : Goes chore s next t) (ready : chore.Ready s) (later : next.Leads t s') :
    chore.Leads s s' := by
  cases goes with
  | ended =>
    obtain rfl := later
    exact (ready.close.onward.entered (Or.inl rfl)).told (.disconnected _) trivial rfl rfl
  | left =>
    obtain rfl := later
    have told := (ready.1.noted (.obeyed .destroy)).onward.told .destroying trivial rfl rfl
    have calls : Calls ((s.note (.obeyed .destroy)).announce .destroying)
        ((s.note (.obeyed .destroy)).told .destroying) := Act.tell_calls .destroying
    exact told.walk.tail (.move (.left _ told.busy (calls.destroyed (ready.2 rfl))))
  | quit =>
    have closed := (ready.1.obeys .reconnect false).closed
    exact ((closed.told (.disconnected .userRequested) trivial rfl rfl).trans later).walk
  | freed => exact ((ready.1.obeys .reconnect false).closed.trans later).walk
  | recalled =>
    obtain rfl := later
    exact (ready.onward.told .reconnecting trivial rfl rfl).entered (Or.inr rfl)
  | parted =>
    exact (((ready.1.obeys (.disconnect true) true).parted .disconnect).trans later).walk
  | dropped => exact ((ready.1.obeys (.disconnect false) true).closed.trans later).walk
  | parked =>
    obtain rfl := later
    exact ((ready.1.obeys _ true).closed.entered (Or.inl rfl)).walk
  | unwritten => exact (ready.onward.closed.trans later).walk
  | unsent _ written => exact ((ready.onward.parted (.connect written)).trans later).walk
  | hailed linked written sent =>
    obtain rfl := later
    exact .single (.move (.saluted s _ ready.busy linked ready.apart ready.heard written sent))
  | refused => exact ready.onward.closed.trans later
  | accepted => exact later
  | opened => exact (ready.opened.trans ready.toAwake.opening.migrated).trans later
  | failed looked | cut looked => exact (ready.scanned looked).closed.trans later
  | resumed looked | tended looked => exact (ready.scanned looked).trans later
  | kept =>
    obtain rfl := later
    exact ready.onward.told (.connected true) trivial rfl rfl
  | renewed =>
    obtain rfl := later
    exact (ready.onward.told (.connected false) trivial rfl rfl).quiets Act.resubscribe_quiets
  | acted dispatched mild =>
    change Onward _ _
    rw [(afterDispatch_of_run dispatched).1 mild]
    exact later
  | broke dispatched fatal =>
    change Onward _ _
    rw [(afterDispatch_of_run dispatched).2 fatal]
    exact later
  | unpaced =>
    obtain rfl := later
    exact ready.onward
  | quiet =>
    obtain rfl := later
    exact ready.polls
  | pinged _ _ mild =>
    obtain rfl := later
    exact ready.polls.quiets (.single (.pinged _ mild))
  | unpinged => exact (ready.polls.parted .pingReq).trans later
  | dead => exact ready.polls.closed.trans later

/-- What is done from a chore on is a walk from place to place. -/
theorem Route.leads (route : Route chore s s') (ready : chore.Ready s) : chore.Leads s s' :=
  route.comes (P := Chore.Leads) (fun _ => rfl) Goes.leads ready

end Mqtt
