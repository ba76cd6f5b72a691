import Mqtt.Proofs.Reach

/-!
# Moments of a run

The entry of an event keeps the client as it stood when the event arose, in the middle
of whatever the thread or a call was doing.  So the moments of a run (`System.Moment`)
are these and the present.  What holds of a client and its log after every move holds
at every moment, for a move that adds an event adds nothing else.
-/

namespace Mqtt

variable {σ : Type}

/-- Whether an entry is of an event. -/
def Entry.IsRaised : Entry → Prop
  | .raised .. => True
  | _ => False

/-- The client and the log as they are, or as they were when an event had just arisen. -/
inductive System.Moment (s : System σ) : Client → List Entry → Prop
  | now : Moment s s.client s.log
  | before {e : Event} {client : Client} {told : Bool} {earlier : List Entry} :
    .raised e client told :: earlier <:+ s.log →
    Moment s client (.raised e client told :: earlier)

/-- Whether something held whenever an event of a log had just arisen. -/
def Shown (P : Client → List Entry → Prop) (log : List Entry) : Prop :=
  ∀ e client told earlier, .raised e client told :: earlier <:+ log →
    P client (.raised e client told :: earlier)

/-- Whether no event arose from one system to another. -/
def Unraised (s s' : System σ) : Prop :=
  ∃ new, s'.log = new ++ s.log ∧ ∀ e ∈ new, ¬ e.IsRaised

/-- Whether an event arose from one system to the next, and nothing was written else. -/
def Raised (s s' : System σ) : Prop :=
  ∃ e told, s'.log = .raised e s'.client told :: s.log

variable {P : Client → List Entry → Prop} {s s' s'' : System σ}

theorem System.Moment.holds {client : Client} {log : List Entry} (moment : s.Moment client log)
    (now : P s.client s.log) (shown : Shown P s.log) : P client log := by
  cases moment with
  | now => exact now
  | before suffixed => exact shown _ _ _ _ suffixed

namespace Unraised

theorem writes (h : Unraised s s') : Writes (fun e => ¬ e.IsRaised) s s' := h

theorem of_log (log : s'.log = s.log) : Unraised s s' :=
  Writes.of_log log

theorem of_entry {e : Entry} (log : s'.log = e :: s.log) (quiet : ¬ e.IsRaised) : Unraised s s' :=
  Writes.of_entry log quiet

theorem trans (first : Unraised s s') (later : Unraised s' s'') : Unraised s s'' :=
  first.writes.trans later.writes

theorem close (s : System σ) : Unraised s s.close :=
  Writes.close s id

theorem afterSend [Environment σ] (s : System σ) (bs : Bytes) : Unraised s (s.afterSend bs) :=
  Writes.afterSend s fun _ _ => id

theorem shown (h : Unraised s s') (shown : Shown P s.log) : Shown P s'.log := by
  refine h.writes.keep (fun {first log} quiet shown => ?_) shown
  intro e client told earlier suffixed
  rcases List.suffix_cons_iff.1 suffixed with same | suffixed
  · cases same
    exact absurd trivial quiet
  · exact shown _ _ _ _ suffixed

end Unraised

theorem Raised.shown (h : Raised s s') (shown : Shown P s.log) (now : P s'.client s'.log) :
    Shown P s'.log := by
  obtain ⟨e, told, log⟩ := h
  rw [log] at now ⊢
  intro e' client told' earlier suffixed
  rcases List.suffix_cons_iff.1 suffixed with same | suffixed
  · cases same
    exact now
  · exact shown _ _ _ _ suffixed

theorem suffix_of_raises (step : Unraised s s' ∨ Raised s s') : s.log <:+ s'.log := by
  rcases step with ⟨new, log, -⟩ | ⟨e, told, log⟩
  · exact ⟨new, log.symm⟩
  · exact ⟨[_], log.symm⟩

/-- What held whenever an event had arisen still does if it holds now. -/
theorem Shown.later (shown : Shown P s.log) (step : Unraised s s' ∨ Raised s s')
    (now : P s'.client s'.log) : Shown P s'.log :=
  step.elim (fun quiet => quiet.shown shown) fun raised => raised.shown shown now

/-! ## What moves write -/

variable [Environment σ] {hand : Option Inbound}

/-- Of events calls raise these only: that a transaction was given up, and that a client that
was never started is about to be torn down. -/
theorem CallMove.tells (move : CallMove s s') :
    Unraised s s' ∨ ∃ e told, s'.log = .raised e s'.client told :: s.log ∧
      (e = .destroying ∧ s.client.phase = .init ∨
        ∃ awaits id topic, e = .discarded awaits id topic) := by
  cases move with
  | remarked e remark =>
    refine Or.inl (.of_entry rfl ?_)
    cases e <;> first | exact id | exact absurd remark id
  | undone _ init => exact Or.inr ⟨_, _, rfl, Or.inl ⟨rfl, init⟩⟩
  | discarded => exact Or.inr ⟨_, _, rfl, Or.inr ⟨_, _, _, rfl⟩⟩
  | released => exact Or.inl (.close s)
  | requested | refused | sent => exact Or.inl (.afterSend _ _)
  | _ => exact Or.inl (.of_log rfl)

theorem CallMove.raises (move : CallMove s s') : Unraised s s' ∨ Raised s s' :=
  move.tells.imp id fun ⟨e, told, log, _⟩ => ⟨e, told, log⟩

theorem TurnMove.raises (move : TurnMove hand s s') : Unraised s s' ∨ Raised s s' := by
  cases move with
  | call move => exact move.raises
  | told | delivered | completed => exact Or.inr ⟨_, _, rfl⟩
  | replied | resent | pinged => exact Or.inl (.afterSend _ _)
  | _ => exact Or.inl (.of_log rfl)

/-- Between two places where the thread waits events arise, and nowhere else. -/
theorem ThreadMove.tells (move : ThreadMove s s') :
    Unraised s s' ∨ s.Busy ∧ QuietMove s s' := by
  cases move with
  | turn busy move => exact Or.inr ⟨busy, move⟩
  | obeyed => exact Or.inl (.of_entry rfl id)
  | dialled => exact Or.inl (.trans (.close s) (.of_entry rfl id))
  | opened => exact Or.inl (.of_entry rfl id)
  | saluted => exact Or.inl (.afterSend s _)
  | parted => exact Or.inl (.trans (.afterSend s _) (.close _))
  | closed => exact Or.inl (.close s)
  | greeted => exact Or.inl (.of_entry rfl id)
  | left => exact Or.inl (.close s)
  | _ => exact Or.inl (.of_log rfl)

theorem ThreadMove.raises (move : ThreadMove s s') : Unraised s s' ∨ Raised s s' :=
  move.tells.elim Or.inl fun ⟨_, move⟩ => move.turn.raises

/-- Nothing that was written is taken back. -/
theorem Keeps.later (log : List Entry) : Keeps fun _ (s : System σ) => log <:+ s.log where
  call _ _ move later := later.trans (suffix_of_raises move.raises)
  thread _ _ move later := later.trans (suffix_of_raises move.raises)
  accept _ _ _ _ later := later.trans (List.suffix_cons _ _)
  turn _ _ _ move later := later.trans (suffix_of_raises move.raises)
  lost _ _ _ _ _ later :=
    later.trans (suffix_of_raises (Or.inl (.trans (.afterSend _ _) (.close _))))
  done _ later := later

theorem Steps.later (steps : Steps s s') (ordered : Ordered s) (sane : s.client.pending.Sane) :
    s.log <:+ s'.log :=
  (steps.keep (.later s.log) ordered sane (List.suffix_refl _)).2

/-- Where an invariant of all moves speaks of a client and its log, it held whenever an
event had arisen. -/
theorem Keeps.shown {I : Option Inbound → System σ → Prop} (keeps : Keeps I)
    (holds : ∀ hand s, I hand s → P s.client s.log) :
    Keeps fun hand s => I hand s ∧ Shown P s.log where
  call ordered sane move h :=
    have kept := keeps.call ordered sane move h.1
    ⟨kept, h.2.later move.raises (holds _ _ kept)⟩
  thread ordered sane move h :=
    have kept := keeps.thread ordered sane move h.1
    ⟨kept, h.2.later move.raises (holds _ _ kept)⟩
  accept {s} _ p ordered sane here h :=
    have read : Unraised s (s.accept p) := .of_entry rfl id
    ⟨keeps.accept p ordered sane here h.1, read.shown h.2⟩
  turn ordered sane busy move h :=
    have kept := keeps.turn ordered sane busy move h.1
    ⟨kept, h.2.later move.raises (holds _ _ kept)⟩
  lost ordered sane busy owed lost h :=
    ⟨keeps.lost ordered sane busy owed lost h.1,
      Unraised.shown (.trans (.afterSend _ _) (.close _)) h.2⟩
  done busy h := ⟨keeps.done busy h.1, h.2⟩

/-- What holds of a client just made and is kept by every move holds at every moment. -/
theorem Reachable.keepMoments {I : Option Inbound → System σ → Prop} (keeps : Keeps I)
    (holds : ∀ hand s, I hand s → P s.client s.log) (reachable : Reachable s)
    (created : ∀ (config : Config) (outside : σ), I none ⟨Client.fresh config, outside, []⟩)
    {client : Client} {log : List Entry} (moment : s.Moment client log) : P client log := by
  obtain ⟨held, shown⟩ := reachable.keep (keeps.shown holds) fun config outside =>
    ⟨created config outside, fun _ _ _ _ none => by cases List.suffix_nil.1 none⟩
  exact moment.holds (holds _ _ held) shown

end Mqtt
