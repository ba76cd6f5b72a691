import Mqtt.Proofs.Strides
import Mqtt.Simulation

/-!
# Reachable systems

A system is reachable when inputs lead to it from a client just made: calls of the
application, turns of the thread, what the thread waited for, and any change of what is
outside.  Every input is a run of steps, so what all steps keep holds of every
reachable system.
-/

namespace Mqtt

variable {σ : Type} [Environment σ] {s s' : System σ}

omit [Environment σ] in
/-- The system once a packet was read: the thread goes on with the staged transactions
made active. -/
def System.accept (s : System σ) (p : Inbound) : System σ :=
  (s.note (.received p)).change
    fun c => { c with place := .running, pending := c.pending.migrate.2 }

/-- One step of a client. -/
inductive Step : System σ → System σ → Prop
  | call {s s' : System σ} : CallMove s s' → Step s s'
  | thread {s s' : System σ} : Pace s s' → Step s s'
  /-- A packet of the session is read and acted on. -/
  | attended {s s₁ : System σ} {reader : Frame.Reader} (p : Inbound) :
    s.client.place = .listening reader → Warned (s.accept p) s₁ → Step s (s₁.afterDispatch p)

/-- A run of steps. -/
abbrev Steps : System σ → System σ → Prop :=
  Relation.ReflTransGen Step

theorem Walk.steps (walk : Walk s s') : Steps s s' :=
  Relation.ReflTransGen.mono (fun _ _ pace => .thread pace) _ _ walk

theorem Calls.steps (calls : Calls s s') : Steps s s' :=
  Relation.ReflTransGen.mono (fun _ _ move => .call move) _ _ calls

omit [Environment σ] in
/-- The thread stands between two places once it read a packet. -/
theorem accept_busy {reader : Frame.Reader} (ordered : Ordered s)
    (here : s.client.place = .listening reader) (p : Inbound) : (s.accept p).Busy :=
  ⟨rfl, ordered.begun (here.trans_ne Place.noConfusion)⟩

theorem Warned.isFresh (warned : Warned s s') : Entry.isFresh s'.log = Entry.isFresh s.log := by
  rcases warned with rfl | ⟨count, calls⟩
  · rfl
  · exact calls.isFresh

/-! ## Invariants -/

/-- What is kept by every single move of a client in order.  With a packet of the session
in hand something else may be kept. -/
structure Keeps (I : Option Inbound → System σ → Prop) : Prop where
  call : ∀ {s s' : System σ}, Ordered s → s.client.pending.Sane → CallMove s s' →
    I none s → I none s'
  thread : ∀ {s s' : System σ}, Ordered s → s.client.pending.Sane → ThreadMove s s' →
    I none s → I none s'
  accept : ∀ {s : System σ} {reader : Frame.Reader} (p : Inbound), Ordered s →
    s.client.pending.Sane → s.client.place = .listening reader → I none s →
    I (some p) (s.accept p)
  turn : ∀ {s s' : System σ} {hand : Option Inbound}, Ordered s → s.client.pending.Sane →
    s.Busy → TurnMove hand s s' → I hand s → I hand s'
  lost : ∀ {s : System σ} {p : Inbound} {packet : Bytes}, Ordered s → s.client.pending.Sane →
    s.Busy → Owed p s packet → LosesSession (s.sendResult packet) →
    I (some p) s → I none (s.afterSend packet).close
  done : ∀ {s : System σ} {p : Inbound}, s.Busy → I (some p) s → I none s

omit [Environment σ] in
theorem Ordered.accept {reader : Frame.Reader} (h : Ordered s)
    (here : s.client.place = .listening reader) (p : Inbound) : Ordered (s.accept p) :=
  h.of_running rfl (accept_busy h here p).2 h.condemned rfl fun _ => rfl

theorem Ordered.lost (h : Ordered s) (busy : s.Busy) (packet : Bytes) :
    Ordered (s.afterSend packet).close := by
  have sent := h.afterSend packet
  refine sent.of_running ?_ ?_ ?_ ?_ ?_
  · simp [Client.pass_place, busy.1]
  · simpa using busy.2
  · simpa using h.condemned
  · simp
  · rw [isFresh_close, System.close_client]
    exact sent.connected

/-- What the moves of a turn keep while the client is in order. -/
theorem Turns.hold {I : System σ → Prop} {hand : Option Inbound}
    (turn : ∀ {s s' : System σ}, Ordered s → s.client.pending.Sane → s.Busy →
      TurnMove hand s s' → I s → I s')
    (turns : Turns hand s s') (busy : s.Busy) (ordered : Ordered s) (sane : s.client.pending.Sane)
    (start : I s) : s'.Busy ∧ Ordered s' ∧ s'.client.pending.Sane ∧ I s' :=
  Turns.keep (I := fun s => Ordered s ∧ s.client.pending.Sane ∧ I s)
    (fun _ _ busy move ⟨ordered, sane, held⟩ =>
      ⟨move.ordered ordered, move.sane sane, turn ordered sane busy move held⟩)
    turns busy ⟨ordered, sane, start⟩

/-- What the moves with a packet in hand keep holds once it was acted on, but for what
closing the transport may change. -/
theorem afterDispatch_hold {I J : System σ → Prop} {p : Inbound}
    (turn : ∀ {s s' : System σ}, Ordered s → s.client.pending.Sane → s.Busy →
      TurnMove (some p) s s' → I s → I s')
    (lost : ∀ {s : System σ} {packet : Bytes}, Ordered s → s.client.pending.Sane → s.Busy →
      Owed p s packet → LosesSession (s.sendResult packet) → I s → J (s.afterSend packet).close)
    (done : ∀ {s : System σ}, s.Busy → I s → J s)
    (busy : s.Busy) (ordered : Ordered s) (sane : s.client.pending.Sane) (start : I s) :
    (Ordered (s.afterDispatch p) ∧ (s.afterDispatch p).client.pending.Sane) ∧
      J (s.afterDispatch p) := by
  rcases afterDispatch_cases busy p with turns | ⟨s₀, packet, turns, owed, failed, ended⟩
  · obtain ⟨busy, ordered, sane, acted⟩ := turns.hold turn busy ordered sane start
    exact ⟨⟨ordered, sane⟩, done busy acted⟩
  · obtain ⟨busy, ordered, sane, acted⟩ := turns.hold turn busy ordered sane start
    rw [ended]
    exact ⟨⟨ordered.lost busy packet, by simpa using sane⟩,
      lost ordered sane busy owed failed acted⟩

/-- A client in order is so once it read a packet of the session. -/
theorem Warned.good {reader : Frame.Reader} {p : Inbound} (warned : Warned (s.accept p) s')
    (ordered : Ordered s) (sane : s.client.pending.Sane)
    (here : s.client.place = .listening reader) :
    s'.Busy ∧ Ordered s' ∧ s'.client.pending.Sane := by
  have turns : Turns none (s.accept p) s' := warned.turns
  obtain ⟨busy, ordered', sane', -⟩ := turns.hold (I := fun _ => True)
    (fun _ _ _ _ _ => trivial) (accept_busy ordered here p) (ordered.accept here p) sane.migrate
    trivial
  exact ⟨busy, ordered', sane'⟩

/-- Every step keeps order and what all moves keep. -/
theorem Step.keep {I : Option Inbound → System σ → Prop} (keeps : Keeps I) (step : Step s s')
    (ordered : Ordered s) (sane : s.client.pending.Sane) (start : I none s) :
    (Ordered s' ∧ s'.client.pending.Sane) ∧ I none s' := by
  cases step with
  | call move => exact ⟨⟨move.ordered ordered, move.sane sane⟩, keeps.call ordered sane move start⟩
  | thread pace =>
    cases pace with
    | move move =>
      exact ⟨⟨move.ordered ordered, move.sane sane⟩, keeps.thread ordered sane move start⟩
    | looked _ busy _ turns =>
      obtain ⟨-, ordered, sane, looked⟩ := turns.hold keeps.turn busy ordered sane start
      exact ⟨⟨ordered, sane⟩, looked⟩
  | @attended s₁ reader p here warned =>
    obtain ⟨busy, ordered, sane, read⟩ := Turns.hold (I := I (some p)) keeps.turn warned.turns
      (accept_busy ordered here p) (ordered.accept here p) sane.migrate
      (keeps.accept p ordered sane here start)
    exact afterDispatch_hold keeps.turn keeps.lost keeps.done busy ordered sane read

theorem Step.good (step : Step s s') (ordered : Ordered s) (sane : s.client.pending.Sane) :
    Ordered s' ∧ s'.client.pending.Sane :=
  have always : Keeps (fun _ (_ : System σ) => True) :=
    ⟨fun _ _ _ _ => trivial, fun _ _ _ _ => trivial, fun _ _ _ _ _ => trivial,
      fun _ _ _ _ _ => trivial, fun _ _ _ _ _ _ => trivial, fun _ _ => trivial⟩
  (step.keep always ordered sane trivial).1

theorem Steps.good (steps : Steps s s') (ordered : Ordered s) (sane : s.client.pending.Sane) :
    Ordered s' ∧ s'.client.pending.Sane := by
  induction steps with
  | refl => exact ⟨ordered, sane⟩
  | tail _ step ih => exact step.good ih.1 ih.2

theorem Steps.keep {I : Option Inbound → System σ → Prop} (keeps : Keeps I) (steps : Steps s s')
    (ordered : Ordered s) (sane : s.client.pending.Sane) (start : I none s) :
    (Ordered s' ∧ s'.client.pending.Sane) ∧ I none s' := by
  induction steps with
  | refl => exact ⟨⟨ordered, sane⟩, start⟩
  | tail _ step ih => exact step.keep keeps ih.1.1 ih.1.2 ih.2

/-! ## Reading -/

/-- Reading has ended, and the staged transactions become active. -/
theorem Act.readEnded_warned :
    Ends readEnded s fun _ s' => Warned
      (s.change fun c => { c with place := .running, pending := c.pending.migrate.2 }) s' := by
  unfold readEnded
  rw [ends_bind, ends_goTo]
  exact migrate_warned

theorem reading_warned (s : System σ) (p : Inbound) : Warned (s.accept p) (s.reading p) :=
  Act.readEnded_warned (s := s.note (.received p))

/-- What the application does once reading has ended. -/
theorem Ordered.reads (ordered : Ordered s) (sane : s.client.pending.Sane)
    (started : s.client.place ≠ .unstarted) :
    Interlude (s.change fun c => { c with place := .running }) s.unread :=
  System.Awake.reads ⟨⟨rfl, ordered.begun started⟩, sane, ordered.valid⟩

/-- What the application does once a packet was read. -/
theorem Ordered.readsPacket (ordered : Ordered s) (sane : s.client.pending.Sane)
    (started : s.client.place ≠ .unstarted) (p : Inbound) :
    Interlude ((s.note (.received p)).change fun c => { c with place := .running })
      (s.reading p) :=
  System.Awake.reads (s := s.note (.received p)) ⟨⟨rfl, ordered.begun started⟩, sane, ordered.valid⟩

theorem Ordered.readEnded (ordered : Ordered s) (sane : s.client.pending.Sane)
    {reader : Frame.Reader}
    (here : s.client.place = .greeting reader ∨ s.client.place = .listening reader) :
    Onward s s.unread := by
  have begun : s.client.phase ≠ .init := ordered.begun <| by
    rcases here with here | here <;> rw [here] <;> exact Place.noConfusion
  have stopped : Onward s
      (s.change fun c => { c with place := .running, pending := c.pending.migrate.2 }) :=
    ⟨.single (.move (.readEnded s here)), ⟨rfl, begun⟩, sane.migrate⟩
  have warned : Warned _ s.unread := Act.readEnded_warned
  exact stopped.quiets warned.quiets

/-- The first packet of a connection was read. -/
theorem Ordered.greeted (ordered : Ordered s) (sane : s.client.pending.Sane)
    {reader : Frame.Reader} (here : s.client.place = .greeting reader) (p : Inbound) :
    Onward s (s.reading p) := by
  have begun : s.client.phase ≠ .init := ordered.begun (here.trans_ne Place.noConfusion)
  have read : Onward s (s.accept p) :=
    ⟨.single (.move (.greeted s p here)), ⟨rfl, begun⟩, sane.migrate⟩
  exact read.quiets (reading_warned s p).quiets

/-! ## Inputs -/

variable {input : Input σ} {chore : Chore} {t : System σ}

/-- What an input leaves to be done finds what it needs. -/
theorem Starts.ready (starts : Starts s input chore t) (ordered : Ordered s)
    (sane : s.client.pending.Sane) : chore.Ready t := by
  cases starts with
  | called | went | stray | listened | rested | dialled | greetedOn | readOn => trivial
  | @turned control controls runnable popped =>
    have begun : s.client.phase ≠ .init := ordered.begun <| by
      rcases Client.isRunnable_cases runnable with here | ⟨interval, here⟩ <;> rw [here] <;>
        exact Place.noConfusion
    refine ⟨⟨⟨rfl, begun⟩, sane, ordered.valid⟩, fun destroy => ordered.condemned ?_⟩
    rw [Queue.toList_of_pop? popped, destroy]
    exact List.mem_cons_self
  | deserted here =>
    exact ⟨⟨here, ordered.begun (here.trans_ne Place.noConfusion)⟩, sane, ordered.valid⟩
  | unopened here | woke here =>
    exact ⟨⟨rfl, ordered.begun (here.trans_ne Place.noConfusion)⟩, sane, ordered.valid⟩
  | opened here =>
    exact ⟨⟨⟨rfl, ordered.begun (here.trans_ne Place.noConfusion)⟩, sane, ordered.valid⟩, rfl,
      ordered.connecting _ here, rfl⟩
  | @greeted reader given elapsed p here =>
    obtain ⟨linked, apart, -⟩ := ordered.greeting reader here
    have read := ordered.readsPacket sane (here.trans_ne Place.noConfusion) p
    exact ⟨read.after, read.linked.trans linked, fun up => apart (read.phase.symm.trans up),
      (reading_warned s p).isFresh⟩
  | unanswered here | misread here | lost here =>
    exact (ordered.reads sane (here.trans_ne Place.noConfusion)).after
  | @attended reader given elapsed p here =>
    obtain ⟨linked, connected⟩ := ordered.listening reader here
    have read := ordered.readsPacket sane (here.trans_ne Place.noConfusion) p
    exact ⟨read.after, read.linked.trans linked, read.phase.trans connected⟩
  | @idled reader given elapsed here =>
    obtain ⟨linked, connected⟩ := ordered.listening reader here
    have read := ordered.reads sane (here.trans_ne Place.noConfusion)
    exact ⟨read.after, read.linked.trans linked, read.phase.trans connected⟩

theorem Starts.steps (starts : Starts s input chore t) (ordered : Ordered s)
    (sane : s.client.pending.Sane) (later : chore.Leads t s') : Steps s s' := by
  have busy (here : s.client.place = .running) : s.Busy :=
    ⟨here, ordered.begun (here.trans_ne Place.noConfusion)⟩
  cases starts with
  | called c =>
    obtain rfl := later
    have calls : Calls s ((Act.call c).run s).2 := Act.call_calls c
    exact calls.steps
  | went outside =>
    obtain rfl := later
    exact .single (.call (.outside s outside))
  | stray =>
    obtain rfl := later
    exact .refl
  | turned runnable popped =>
    have walk : Walk s s' :=
      .head (.move (.obeyed s (Client.isRunnable_cases runnable) popped)) later
    exact walk.steps
  | listened here connected linked =>
    obtain rfl := later
    exact .single (.thread (.move (.listened s _ (busy here) linked connected)))
  | deserted here =>
    have stays : Onward s s := .refl (busy here) sane
    exact (stays.closed.trans later).walk.steps
  | rested here lost =>
    obtain rfl := later
    exact .single (.thread (.move (.rested s _ (busy here) lost)))
  | dialled here up =>
    obtain rfl := later
    exact .single (.thread (.move (.dialled s s.client.config (busy here) up)))
  | unopened here =>
    have begun : s.client.phase ≠ .init := ordered.begun (here.trans_ne Place.noConfusion)
    have back : Onward s (s.change fun c => { c with place := .running }) :=
      ⟨.single (.move (.unanswered s here)), ⟨rfl, begun⟩, sane⟩
    exact (back.closed.trans later).walk.steps
  | opened here =>
    have walk : Walk s s' := .head (.move (.opened s here)) later
    exact walk.steps
  | greetedOn here =>
    obtain rfl := later
    exact .single (.thread (.move (.greetedOn s _ here)))
  | greeted here => exact ((ordered.greeted sane here _).trans later).walk.steps
  | unanswered here | misread here =>
    exact ((ordered.readEnded sane (Or.inl here)).closed.trans later).walk.steps
  | readOn here =>
    obtain rfl := later
    exact .single (.thread (.move (.readOn s _ here)))
  | attended here => exact .head (.attended _ here (reading_warned s _)) later.walk.steps
  | idled here => exact ((ordered.readEnded sane (Or.inr here)).trans later).walk.steps
  | lost here => exact ((ordered.readEnded sane (Or.inr here)).closed.trans later).walk.steps
  | woke here =>
    have begun : s.client.phase ≠ .init := ordered.begun (here.trans_ne Place.noConfusion)
    have woken : Onward s (s.change fun c => { c with place := .running }) :=
      ⟨.single (.move (.woke s here)), ⟨rfl, begun⟩, sane⟩
    exact (woken.trans later).walk.steps

/-- Every input is a run of steps. -/
theorem take_steps (ordered : Ordered s) (sane : s.client.pending.Sane) (input : Input σ) :
    Steps s (s.take input) := by
  obtain ⟨chore, t, starts, route⟩ := s.take_route input
  exact starts.steps ordered sane (route.leads (starts.ready ordered sane))

/-! ## Runs -/

/-- A client just made. -/
def Client.fresh (config : Config) : Client where
  config
  pending := { threshold := config.pendingWarning }

omit [Environment σ] in
theorem create_eq_ok {config : Config} {client : Client}
    (made : Client.create config = .ok client) :
    config.validate = .ok () ∧ client = Client.fresh config := by
  unfold Client.create at made
  split at made
  · cases made
  next sound =>
    cases made
    exact ⟨sound, rfl⟩

/-- The systems to which inputs lead from a client just made. -/
inductive Reachable : System σ → Prop
  | created {config : Config} {client : Client} (outside : σ) :
    Client.create config = .ok client → Reachable ⟨client, outside, []⟩
  | input {s : System σ} (input : Input σ) : Reachable s → Reachable (s.take input)

namespace Reachable

omit [Environment σ] in
/-- A client just made is in order and has no transactions. -/
theorem good_of_fresh {config : Config} (outside : σ) (valid : config.validate = .ok ()) :
    Ordered (⟨Client.fresh config, outside, []⟩ : System σ) ∧
      (Client.fresh config).pending.Sane := by
  refine ⟨⟨fun started => absurd rfl started, fun member => ?_, valid, Phase.noConfusion,
    fun _ => Place.noConfusion, fun _ => Place.noConfusion, fun _ => Place.noConfusion⟩,
    ⟨fun _ member => ?_, ⟨.nil, fun _ member => ?_⟩⟩⟩
  all_goals cases member

theorem good (h : Reachable s) : Ordered s ∧ s.client.pending.Sane := by
  induction h with
  | created outside made =>
    obtain ⟨valid, rfl⟩ := create_eq_ok made
    exact good_of_fresh outside valid
  | input input _ ih => exact (take_steps ih.1 ih.2 input).good ih.1 ih.2

theorem takes (h : Reachable s) (inputs : List (Input σ)) : Reachable (s.takes inputs) := by
  induction inputs generalizing s with
  | nil => exact h
  | cons first rest ih => exact ih (.input first h)

/-- What holds of a client just made and is kept by every step holds of every reachable
system. -/
theorem induct {I : System σ → Prop} (h : Reachable s)
    (created : ∀ (config : Config) (outside : σ), I ⟨Client.fresh config, outside, []⟩)
    (step : ∀ s s' : System σ, Ordered s → s.client.pending.Sane → Step s s' → I s → I s') :
    I s := by
  induction h with
  | created outside made =>
    obtain ⟨-, rfl⟩ := create_eq_ok made
    exact created _ outside
  | @input s input reachable ih =>
    obtain ⟨ordered, sane⟩ := reachable.good
    have along {t : System σ} (steps : Steps s t) :
        (Ordered t ∧ t.client.pending.Sane) ∧ I t := by
      induction steps with
      | refl => exact ⟨⟨ordered, sane⟩, ih⟩
      | tail _ move held =>
        rcases held with ⟨⟨ordered, sane⟩, kept⟩
        exact ⟨move.good ordered sane, step _ _ ordered sane move kept⟩
    exact (along (take_steps ordered sane input)).2

/-- What holds of a client just made and is kept by every move holds of every reachable
system. -/
theorem keep {I : Option Inbound → System σ → Prop} (keeps : Keeps I) (h : Reachable s)
    (created : ∀ (config : Config) (outside : σ), I none ⟨Client.fresh config, outside, []⟩) :
    I none s :=
  h.induct created fun _ _ ordered sane step start => (step.keep keeps ordered sane start).2

end Reachable

/-- A simulated client whose transport was opened and whose CONNECT was answered, by a broker
with no session for it, and that reads. -/
def inSession : System Script :=
  System.takes ⟨Client.fresh { host := "broker", clientId := "dev" }, {}, []⟩
    [.call .start, .turn, .turn, .dialled (.ok ()), .heard (.ok [0x20, 2]) 0,
      .heard (.ok [0, 0]) 0, .turn]

theorem inSession_reachable : Reachable inSession :=
  have made : Client.create { host := "broker", clientId := "dev" } = .ok (Client.fresh _) := rfl
  (Reachable.created _ made).takes _

end Mqtt
