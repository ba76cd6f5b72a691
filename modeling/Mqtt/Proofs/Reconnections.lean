import Mathlib.Data.List.Induction
import Mqtt.Proofs.Courses

/-!
# What leads to another attempt to connect

Three things are said of the attempts of a run.  None begins while the latest wish of the
application that the thread turned to was to end the session (`Heeds`).  Between two of them
another was told of, or, if the client may not connect by itself, asked for (`Prompted`).  And
each is made with the settings and the will that the client stood under when it was told of,
with what was amended since (`Equipped`).  All three are read off the log and kept by every
course.
-/

namespace Mqtt

/-! ## Marks of a log -/

namespace Entry

/-- Whether an attempt to connect begins. -/
def IsDial : Entry → Prop
  | .dialled .. => True
  | _ => False

/-- Whether the thread turned to the wish to end the session. -/
def IsParting : Entry → Prop
  | .obeyed (.disconnect _) => True
  | _ => False

/-- Whether the thread turned to the wish for another attempt. -/
def IsRecall : Entry → Prop
  | .obeyed .reconnect => True
  | _ => False

/-- Whether the application is told that another attempt is made ready. -/
def IsNotice : Entry → Prop
  | .raised .reconnecting _ _ => True
  | _ => False

theorem IsRecall.eq {e : Entry} (h : e.IsRecall) : e = .obeyed .reconnect := by
  cases e with
  | obeyed control => cases control <;> first | rfl | exact absurd h id
  | _ => exact absurd h id

theorem IsNotice.eq {e : Entry} (h : e.IsNotice) : ∃ c told, e = .raised .reconnecting c told := by
  cases e with
  | raised event c told => cases event <;> first | exact ⟨c, told, rfl⟩ | exact absurd h id
  | _ => exact absurd h id

/-- Whether an entry is nothing of all this. -/
def IsUnmarked (e : Entry) : Prop :=
  ¬ e.IsDial ∧ ¬ e.IsParting ∧ ¬ e.IsRecall ∧ ¬ e.IsNotice

theorem IsRoutine.unmarked {e : Entry} (h : e.IsRoutine) : e.IsUnmarked := by
  cases e with
  | dialled | obeyed => exact absurd h id
  | raised event => cases event <;> first | exact ⟨id, id, id, id⟩ | exact absurd h id
  | _ => exact ⟨id, id, id, id⟩

/-- Whether, since the last entry that is marked, there is one that is a cause, or none is
marked. -/
def Since (mark cause : Entry → Prop) : List Entry → Prop
  | [] => True
  | e :: earlier => cause e ∨ ¬ mark e ∧ Since mark cause earlier

end Entry

variable {σ : Type} {s s' : System σ}

namespace Entry.Since

variable {mark cause : Entry → Prop} {log : List Entry}

theorem cons {e : Entry} (h : Since mark cause log) (still : ¬ mark e) :
    Since mark cause (e :: log) :=
  Or.inr ⟨still, h⟩

theorem later (h : Since mark cause s.log) (writes : Writes (fun e => ¬ mark e) s s') :
    Since mark cause s'.log :=
  writes.keep (fun still h => h.cons still) h

theorem of_unmarked (none : ∀ e ∈ log, ¬ mark e) : Since mark cause log := by
  induction log with
  | nil => trivial
  | cons e log ih =>
    exact (ih fun x member => none x (List.mem_cons_of_mem _ member)).cons
      (none e List.mem_cons_self)

/-- After a marked entry a cause must have come. -/
theorem exists_cause {between earlier : List Entry} {e : Entry}
    (h : Since mark cause (between ++ e :: earlier)) (marked : mark e) (other : ¬ cause e) :
    ∃ x ∈ between, cause x := by
  induction between with
  | nil =>
    rcases h with own | ⟨unmarked, -⟩
    · exact absurd own other
    · exact absurd marked unmarked
  | cons x between ih =>
    rcases h with own | ⟨-, h⟩
    · exact ⟨x, List.mem_cons_self, own⟩
    · obtain ⟨y, member, own⟩ := ih h
      exact ⟨y, List.mem_cons_of_mem _ member, own⟩

end Entry.Since

/-! ## Stretches without marks -/

theorem Routine.unmarked (h : Routine s s') : Writes Entry.IsUnmarked s s' :=
  h.writes.imp fun _ routine => routine.unmarked

/-- Nothing is marked while CONNECT is sent. -/
theorem Routine.unmarked_opened [Environment σ] {packet : Bytes}
    (h : Routine (s.opened.afterSend packet) s') : Writes Entry.IsUnmarked s s' := by
  have opened : Writes Entry.IsUnmarked s s.opened := .of_entry rfl ⟨id, id, id, id⟩
  exact (opened.trans (.afterSend _ fun _ _ => ⟨id, id, id, id⟩)).trans h.unmarked

/-- Nothing is marked while the client is torn down. -/
theorem Routine.unmarked_left {controls : Queue Control}
    (h : Routine ((s.turned .destroy controls).announce .destroying) s') :
    Writes Entry.IsUnmarked s s'.close := by
  have turned : Writes Entry.IsUnmarked s (s.turned .destroy controls) :=
    .of_entry rfl ⟨id, id, id, id⟩
  have told : Writes Entry.IsUnmarked s ((s.turned .destroy controls).announce .destroying) :=
    turned.trans (.of_entry rfl ⟨id, id, id, id⟩)
  exact (told.trans h.unmarked).trans (Routine.close s').unmarked

/-- On the way to another attempt none is made, and no session is ended. -/
theorem Recalls.writes (h : Recalls s s') :
    Writes (fun e => ¬ e.IsDial ∧ ¬ e.IsParting) s s' := by
  obtain ⟨t, before, after, -⟩ := h
  have plain {t t' : System σ} (routine : Routine t t') :
      Writes (fun e => ¬ e.IsDial ∧ ¬ e.IsParting) t t' :=
    routine.unmarked.imp fun _ unmarked => ⟨unmarked.1, unmarked.2.1⟩
  exact ((plain before).trans (.of_entry rfl ⟨id, id⟩)).trans (plain after)

theorem Recalls.parked (h : Recalls s s') : s'.client.parked = s.client.parked := by
  obtain ⟨t, before, after, -⟩ := h
  exact after.parked.trans before.parked

/-! ## Wishes of the application -/

/-- Whether a client heeds the wish to end the session. -/
structure Heeds (s : System σ) : Prop where
  free : s.client.parked = false → Entry.Since Entry.IsParting Entry.IsRecall s.log
  parked : s.client.parked = true → s.client.phase = .disconnected ∧
    (s.client.place = .running ∨ s.client.place = .idle none ∨ s.client.place = .exited)
  dials : Entry.Each (fun e earlier =>
    e.IsDial → Entry.Since Entry.IsParting Entry.IsRecall earlier) s.log

namespace Heeds

/-- A client that is in an attempt or in a session was not told to end it. -/
theorem engaged (h : Heeds s) (engaged : s.Engaged) : s.client.parked = false := by
  rw [← Bool.not_eq_true]
  intro parked
  obtain ⟨phase, place⟩ := h.parked parked
  rcases engaged with ⟨config, here⟩ | ⟨reader, here⟩ | ⟨connected, -⟩
  · rw [here] at place
    rcases place with here | here | here <;> cases here
  · rw [here] at place
    rcases place with here | here | here <;> cases here
  · cases phase.symm.trans connected

theorem later (h : Heeds s) (writes : Writes (fun e => ¬ e.IsDial ∧ ¬ e.IsParting) s s')
    (same : s'.client.parked = s.client.parked)
    (parked : s'.client.parked = true → s'.client.phase = .disconnected ∧
      (s'.client.place = .running ∨ s'.client.place = .idle none ∨ s'.client.place = .exited)) :
    Heeds s' where
  free free := (h.free (same ▸ free)).later (writes.imp fun _ plain => plain.2)
  parked := parked
  dials := h.dials.later (writes.imp fun _ plain _ dial => absurd dial plain.1)

/-- A client that was not told to end its session goes on. -/
theorem goesOn (h : Heeds s) (writes : Writes (fun e => ¬ e.IsDial ∧ ¬ e.IsParting) s s')
    (same : s'.client.parked = s.client.parked) (free : s.client.parked = false) : Heeds s' := by
  refine h.later writes same fun parked => ?_
  exact absurd (free.symm.trans (same.symm.trans parked)) Bool.noConfusion

variable [Environment σ]

theorem course (course : Course s s') (h : Heeds s) : Heeds s' := by
  have plain {t t' : System σ} (writes : Writes Entry.IsUnmarked t t') :
      Writes (fun e => ¬ e.IsDial ∧ ¬ e.IsParting) t t' :=
    writes.imp fun _ unmarked => ⟨unmarked.1, unmarked.2.1⟩
  cases course with
  | kept routine phase alike =>
    refine h.later (plain routine.unmarked) routine.parked fun parked => ?_
    obtain ⟨before, place⟩ := h.parked (routine.parked.symm.trans parked)
    have unread : s.client.place.isReading = false := by
      rcases place with here | here | here <;> rw [here] <;> rfl
    rw [phase, alike.symm.eq unread]
    exact ⟨before, place⟩
  | went engaged routine =>
    exact h.goesOn (plain routine.unmarked) routine.parked (h.engaged engaged)
  | @hailed _ config _ here _ routine =>
    have free := h.engaged (Or.inl ⟨config, here⟩)
    refine h.goesOn (plain routine.unmarked_opened) ?_ free
    rw [routine.parked]
    simp [System.opened]
  | @rested interval here phase may =>
    refine ⟨h.free, fun parked => ⟨phase, Or.inr (Or.inl ?_)⟩, h.dials⟩
    cases interval with
    | none => rfl
    | some ms => exact absurd (parked.symm.trans (may ms rfl).1) Bool.noConfusion
  | dialled here up down =>
    have free : s.client.parked = false := by
      rw [← Bool.not_eq_true]
      exact fun parked => down (h.parked parked).1
    have closed := h.goesOn (plain (Routine.close s).unmarked) (Routine.close s).parked free
    have order := closed.free ((Routine.close s).parked.trans free)
    refine ⟨fun _ => Or.inr ⟨id, order⟩, fun parked => ?_, closed.dials.cons fun _ => order⟩
    rw [System.change_client, System.note_client, (Routine.close s).parked, free] at parked
    cases parked
  | @parted _ notify controls _ routine place phase =>
    have parked : s'.client.parked = true := routine.parked
    have dials : Entry.Each _ (.obeyed (.disconnect notify) :: s.log) :=
      h.dials.cons fun dial => absurd dial id
    exact ⟨fun free => absurd (free.symm.trans parked) Bool.noConfusion,
      fun _ => ⟨phase, Or.inl place⟩,
      dials.later (routine.unmarked.imp fun _ plain _ dial => absurd dial plain.1)⟩
  | @recalled _ controls _ recalls =>
    have turned : Heeds ((s.turned .reconnect controls).change fun c =>
        { c with parked := false }) :=
      ⟨fun _ => Or.inl trivial, fun parked => (by cases parked),
        h.dials.cons fun dial => absurd dial id⟩
    exact turned.goesOn recalls.writes recalls.parked rfl
  | @woken _ interval here recalls =>
    have free : s.client.parked = false := by
      rw [← Bool.not_eq_true]
      intro parked
      obtain ⟨-, place⟩ := h.parked parked
      rw [here] at place
      rcases place with here | here | here <;> cases here
    exact (h.goesOn (.of_log rfl) rfl free).goesOn recalls.writes recalls.parked free
  | @left t controls _ _ _ routine =>
    refine h.later (plain routine.unmarked_left) ?_ fun _ => ⟨rfl, Or.inr (Or.inr rfl)⟩
    change t.close.client.parked = _
    rw [(Routine.close t).parked, routine.parked]
    rfl

end Heeds

/-! ## Causes of attempts -/

/-- Whether the thread is about to connect. -/
def System.Ready (s : System σ) : Prop :=
  s.client.place = .running ∧ s.client.phase ≠ .connected ∧ s.client.phase ≠ .disconnected

theorem Client.Returned.unready (h : s.client.Returned) : ¬ s.Ready := by
  rintro ⟨running, up, down⟩
  rcases h with ⟨-, phase⟩ | ⟨reader, here⟩ | ⟨reader, here⟩
  · exact phase.elim up down
  · cases here.symm.trans running
  · cases here.symm.trans running

/-- Whether each attempt of a client but the first has a cause that came since the one before. -/
structure Prompted (cause : Entry → Prop) (s : System σ) : Prop where
  ready : s.Ready → Entry.Since Entry.IsDial cause s.log
  dials : Entry.Each (fun e earlier => e.IsDial → Entry.Since Entry.IsDial cause earlier) s.log

namespace Prompted

variable {cause : Entry → Prop}

theorem later (h : Prompted cause s) (writes : Writes Entry.IsUnmarked s s')
    (ready : s'.Ready → s.Ready) : Prompted cause s' where
  ready here := (h.ready (ready here)).later (writes.imp fun _ plain => plain.1)
  dials := h.dials.later (writes.imp fun _ plain _ dial => absurd dial plain.1)

theorem of_recalls (recalls : Recalls s s')
    (dials : Entry.Each (fun e earlier => e.IsDial → Entry.Since Entry.IsDial cause earlier) s.log)
    (caused : (∀ e, e.IsNotice → cause e) ∨ Entry.Since Entry.IsDial cause s.log) :
    Prompted cause s' := by
  refine ⟨fun _ => ?_, dials.later (recalls.writes.imp fun _ plain _ dial => absurd dial plain.1)⟩
  rcases caused with all | since
  · obtain ⟨t, -, after, -⟩ := recalls
    have told : Entry.Since Entry.IsDial cause (t.announce .reconnecting).log :=
      Or.inl (all _ trivial)
    exact told.later (after.unmarked.imp fun _ plain => plain.1)
  · exact since.later (recalls.writes.imp fun _ plain => plain.1)

variable [Environment σ]

/-- What is told of each attempt is a cause, and if none begins by itself so is what asks for
one. -/
theorem course (course : Course s s') (h : Prompted cause s)
    (asked : (∀ e, e.IsNotice → cause e) ∨
      (∀ e, e.IsRecall → cause e) ∧ ∀ ms, s.client.place ≠ .idle (some ms)) :
    Prompted cause s' := by
  cases course with
  | kept routine phase alike =>
    refine h.later routine.unmarked fun ⟨running, ready⟩ => ⟨?_, by rwa [phase] at ready⟩
    rw [← running]
    exact alike.eq (by rw [running]; rfl)
  | went _ routine back => exact h.later routine.unmarked fun ready => absurd ready back.unready
  | hailed _ _ routine back =>
    exact h.later routine.unmarked_opened fun ready => absurd ready back.unready
  | rested => exact h.later (.of_log rfl) fun ready => by cases ready.1
  | dialled here up down =>
    have closed : Prompted cause s.close := h.later (Routine.close s).unmarked fun ready => by
      simpa [System.Ready] using ready
    have order := closed.ready (by simpa [System.Ready] using ⟨here, up, down⟩)
    exact ⟨fun ready => (by cases ready.1), closed.dials.cons fun _ => order⟩
  | @parted _ notify _ _ routine _ phase =>
    have dials : Entry.Each _ (.obeyed (.disconnect notify) :: s.log) :=
      h.dials.cons fun dial => absurd dial id
    exact ⟨fun ready => absurd phase ready.2.2,
      dials.later (routine.unmarked.imp fun _ plain _ dial => absurd dial plain.1)⟩
  | @recalled _ controls _ recalls =>
    refine .of_recalls recalls (h.dials.cons fun dial => absurd dial id) ?_
    exact asked.imp_right fun ⟨byRecall, _⟩ => Or.inl (byRecall _ trivial)
  | @woken _ interval here recalls =>
    refine .of_recalls recalls h.dials (Or.inl ?_)
    exact asked.resolve_right fun ⟨_, unready⟩ => unready interval here
  | left _ _ _ routine => exact h.later routine.unmarked_left fun ready => by cases ready.1

end Prompted

/-! ## The terms of attempts -/

/-- Whether terms are those under which a client was told of any attempt, with what was amended
since. -/
def Amended (terms : Terms) (log : List Entry) : Prop :=
  ∀ between c told earlier, log = between ++ .raised .reconnecting c told :: earlier →
    terms = Entry.amends between c.terms

/-- Whether settings are those of the latest attempt: those under which a client was told of it,
or of one before, with what was amended until it began. -/
def DialledUnder (config : Config) (log : List Entry) : Prop :=
  ∀ after host tcpPort timeout between c told earlier,
    log = after ++ .dialled host tcpPort timeout ::
      (between ++ .raised .reconnecting c told :: earlier) →
    (∀ e ∈ after, ¬ e.IsDial) → config = (Entry.amends between c.terms).1

namespace Amended

variable {terms : Terms} {new log : List Entry}

theorem cons {e : Entry} (h : Amended terms log) (plain : ¬ e.IsNotice) :
    Amended (e.amend terms) (e :: log) := by
  intro between c told earlier split
  cases between with
  | nil =>
    cases (List.cons.inj split).1
    exact absurd trivial plain
  | cons x between =>
    obtain ⟨rfl, further⟩ := List.cons.inj split
    exact congrArg e.amend (h between c told earlier further)

/-- An entry that amends nothing. -/
theorem cons_same {e : Entry} (h : Amended terms log) (plain : ¬ e.IsNotice)
    (same : e.replaced = [] ∧ e.bequeathed = none) : Amended terms (e :: log) := by
  have amended := h.cons plain
  rwa [Entry.amend, same.1, same.2] at amended

theorem append (h : Amended terms log) (plain : ∀ e ∈ new, ¬ e.IsNotice) :
    Amended (Entry.amends new terms) (new ++ log) := by
  induction new with
  | nil => exact h
  | cons e new ih =>
    exact (ih fun x member => plain x (List.mem_cons_of_mem _ member)).cons
      (plain e List.mem_cons_self)

theorem routine (h : Amended s.client.terms s.log) (routine : Routine s s') :
    Amended s'.client.terms s'.log := by
  obtain ⟨new, log, plain, terms⟩ := routine.entries
  rw [log, terms]
  exact h.append fun e member => (plain e member).unmarked.2.2.2

/-- From here on the terms are those under which the client is told of an attempt now. -/
theorem notice (h : Amended s.client.terms s.log) :
    Amended (s.announce .reconnecting).client.terms (s.announce .reconnecting).log := by
  intro between c told earlier split
  rw [System.announce_log] at split
  cases between with
  | nil =>
    cases (List.cons.inj split).1
    rfl
  | cons x between =>
    obtain ⟨rfl, further⟩ := List.cons.inj split
    exact h between c told earlier further

end Amended

namespace DialledUnder

variable {config : Config} {log : List Entry}

theorem cons {e : Entry} (h : DialledUnder config log) (plain : ¬ e.IsDial) :
    DialledUnder config (e :: log) := by
  intro after host tcpPort timeout between c told earlier split undialled
  cases after with
  | nil =>
    cases (List.cons.inj split).1
    exact absurd trivial plain
  | cons x after =>
    obtain ⟨rfl, further⟩ := List.cons.inj split
    exact h after host tcpPort timeout between c told earlier further fun y member =>
      undialled y (List.mem_cons_of_mem _ member)

theorem later (h : DialledUnder config s.log) (writes : Writes (fun e => ¬ e.IsDial) s s') :
    DialledUnder config s'.log :=
  writes.keep (fun plain h => h.cons plain) h

/-- An attempt is made under the terms as they are. -/
theorem cons_dial {terms : Terms} (h : Amended terms log) (host : String) (tcpPort : UInt16)
    (timeout : UInt32) : DialledUnder terms.1 (.dialled host tcpPort timeout :: log) := by
  intro after host' tcpPort' timeout' between c told earlier split undialled
  cases after with
  | nil => rw [h between c told earlier (List.cons.inj split).2]
  | cons x after =>
    obtain ⟨rfl, -⟩ := List.cons.inj split
    exact absurd trivial (undialled _ List.mem_cons_self)

end DialledUnder

/-- Whether an entry is right after those before it: an attempt is made with the terms as
amended, and CONNECT is written with the settings of the attempt and the will as amended. -/
def Entry.IsEquipped : Entry → List Entry → Prop
  | .dialled host tcpPort timeout, earlier => ∃ terms : Terms, Amended terms earlier ∧
    host = terms.1.host ∧ tcpPort = terms.1.tcpPort ∧ timeout = terms.1.connectTimeout
  | .sent a, earlier => Packet.kind? a.whole = some .connect →
    ∃ (config : Config) (terms : Terms), DialledUnder config earlier ∧ Amended terms earlier ∧
      Packet.encode (Act.connectPacket config terms.2).put = .ok a.whole
  | _, _ => True

theorem Entry.IsRoutine.isEquipped {e : Entry} (h : e.IsRoutine) (earlier : List Entry) :
    e.IsEquipped earlier := by
  cases e with
  | dialled => exact absurd h id
  | sent a => exact fun connect => absurd connect h
  | _ => trivial

/-- Whether the attempts of a client are made with what they should be. -/
structure Equipped (s : System σ) : Prop where
  terms : s.client.place ≠ .exited → Amended s.client.terms s.log
  connecting : ∀ config, s.client.place = .connecting config → DialledUnder config s.log
  entries : Entry.Each Entry.IsEquipped s.log

namespace Equipped

theorem of_routine (routine : Routine s s') (h : Equipped s)
    (present : s'.client.place ≠ .exited → s.client.place ≠ .exited)
    (connecting : ∀ config, s'.client.place = .connecting config →
      s.client.place = .connecting config) : Equipped s' := by
  refine ⟨fun here => (h.terms (present here)).routine routine, fun config here => ?_, ?_⟩
  · have before := h.connecting config (connecting config here)
    exact before.later (routine.unmarked.imp fun _ plain => plain.1)
  · exact h.entries.later (routine.writes.imp fun _ plain => plain.isEquipped)

theorem turned (h : Equipped s) (here : s.client.place ≠ .exited) (control : Control)
    (controls : Queue Control) (parked : Bool) :
    Equipped ((s.turned control controls).change fun c => { c with parked }) :=
  ⟨fun _ => (h.terms here).cons_same id ⟨rfl, rfl⟩, fun _ => Place.noConfusion,
    h.entries.cons trivial⟩

theorem of_recalls (recalls : Recalls s s') (h : Equipped s) (here : s.client.place ≠ .exited) :
    Equipped s' := by
  obtain ⟨t, before, after, running, -⟩ := recalls
  have absent : ∀ config, s'.client.place ≠ .connecting config := fun config => by
    rw [running]
    exact Place.noConfusion
  have told : Entry.Each Entry.IsEquipped (t.announce .reconnecting).log :=
    (h.entries.later (before.writes.imp fun _ plain => plain.isEquipped)).cons trivial
  exact ⟨fun _ => (Amended.notice ((h.terms here).routine before)).routine after,
    fun config connecting => absurd connecting (absent config),
    told.later (after.writes.imp fun _ plain => plain.isEquipped)⟩

variable [Environment σ]

/-- The offers of CONNECT are right. -/
theorem offers {config : Config} (terms : Terms) {packet : Bytes}
    (written : Packet.encode (Act.connectPacket config terms.2).put = .ok packet)
    (dialled : DialledUnder config s.log) (amended : Amended terms s.log)
    (entries : Entry.Each Entry.IsEquipped s.log) :
    Amended terms (s.afterSend packet).log ∧
      Entry.Each Entry.IsEquipped (s.afterSend packet).log := by
  have offers : Writes (fun e => ∃ a : Transport.Attempt, e = .sent a ∧ a.whole = packet) s
    (s.afterSend packet) := s.afterSend_entries packet
  have kept := offers.keep
    (I := fun log => DialledUnder config log ∧ Amended terms log ∧
      Entry.Each Entry.IsEquipped log) ?_ ⟨dialled, amended, entries⟩
  · exact kept.2
  rintro _ log ⟨a, rfl, own⟩ ⟨dialled, amended, entries⟩
  have right : Entry.IsEquipped (.sent a) log := fun _ =>
    ⟨config, terms, dialled, amended, own ▸ written⟩
  exact ⟨dialled.cons id, amended.cons_same id ⟨rfl, rfl⟩, entries.cons right⟩

theorem course (course : Course s s') (h : Equipped s) : Equipped s' := by
  have waits (runnable : s.client.isRunnable = true) : s.client.place ≠ .exited := fun here => by
    rw [Client.isRunnable, here] at runnable
    cases runnable
  have away (back : s'.client.Returned) (config : Config) :
      s'.client.place ≠ .connecting config := fun here => back.present (by rw [here]; trivial)
  cases course with
  | kept routine _ alike =>
    refine h.of_routine routine (fun here exited => here ?_) fun config here => ?_
    · rw [← exited]
      exact alike.symm.eq (by rw [exited]; rfl)
    · rw [← here]
      exact alike.eq (by rw [here]; rfl)
  | went engaged routine back =>
    have present : s.client.place ≠ .exited := by
      rcases engaged with ⟨_, here⟩ | ⟨_, here⟩ | ⟨-, here⟩
      · rw [here]; exact Place.noConfusion
      · rw [here]; exact Place.noConfusion
      · exact here
    exact h.of_routine routine (fun _ => present) fun config here => absurd here (away back config)
  | @hailed _ config packet here written routine back =>
    have opened : Amended s.client.terms s.opened.log :=
      (h.terms (by rw [here]; exact Place.noConfusion)).cons_same id ⟨rfl, rfl⟩
    have dialled : DialledUnder config s.opened.log := (h.connecting config here).cons id
    obtain ⟨amended, entries⟩ := Equipped.offers s.client.terms written dialled opened
      (h.entries.cons trivial)
    have running : (s.opened.afterSend packet).client.place = .running := by
      simp [Client.pass_place, System.opened]
    have terms : (s.opened.afterSend packet).client.terms = s.client.terms := by
      simp [Client.terms, System.opened]
    have sent : Equipped (s.opened.afterSend packet) := by
      refine ⟨fun _ => ?_, fun config here => ?_, entries⟩
      · rw [terms]
        exact amended
      · rw [running] at here
        cases here
    refine sent.of_routine routine (fun _ => ?_) fun config here => absurd here (away back config)
    rw [running]
    exact Place.noConfusion
  | rested here =>
    exact ⟨fun _ => h.terms (by rw [here]; exact Place.noConfusion),
      fun _ => Place.noConfusion, h.entries⟩
  | dialled here =>
    have closed : Equipped s.close := h.of_routine (.close s) (fun _ => by
      rw [here]; exact Place.noConfusion) fun config connecting => by simpa using connecting
    have amended : Amended s.client.terms s.close.log := by
      simpa [Client.terms] using closed.terms (by simp [here])
    refine ⟨fun _ => ?_, fun config connecting => ?_, closed.entries.cons
      ⟨s.client.terms, amended, rfl, rfl, rfl⟩⟩
    · simpa [Client.terms] using amended.cons_same id ⟨rfl, rfl⟩
    · cases connecting
      exact .cons_dial amended _ _ _
  | parted runnable routine here =>
    refine of_routine routine (h.turned (waits runnable) _ _ _) (fun _ => Place.noConfusion)
      fun config connecting => ?_
    rw [here] at connecting
    cases connecting
  | recalled runnable recalls =>
    exact of_recalls recalls (h.turned (waits runnable) _ _ _) Place.noConfusion
  | woken here recalls =>
    refine of_recalls recalls ⟨fun _ => ?_, fun _ => Place.noConfusion, h.entries⟩
      Place.noConfusion
    exact h.terms (by rw [here]; exact Place.noConfusion)
  | @left t controls _ _ _ routine =>
    refine ⟨fun here => absurd rfl here, fun _ => Place.noConfusion, ?_⟩
    have obeyed : Entry.Each Entry.IsEquipped (s.turned .destroy controls).log :=
      h.entries.cons trivial
    have told : Entry.Each Entry.IsEquipped
        ((s.turned .destroy controls).announce .destroying).log := obeyed.cons trivial
    exact told.later ((routine.trans (.close t)).writes.imp fun _ plain => plain.isEquipped)

end Equipped

/-! ## Clients whose thread did nothing yet -/

/-- Whether a client was made, and perhaps started, and only calls were made since. -/
structure Young (s : System σ) : Prop where
  early : s.Early
  parked : s.client.parked = false
  entries : ∀ e ∈ s.log, e.OfCall

theorem Entry.OfCall.unmarked {e : Entry} (h : e.OfCall) : e.IsUnmarked := by
  cases e with
  | dialled | obeyed => exact absurd h id
  | raised event => cases event <;> first | exact ⟨id, id, id, id⟩ | exact absurd h id
  | _ => exact ⟨id, id, id, id⟩

theorem Entry.OfCall.isEquipped {e : Entry} (h : e.OfCall) (earlier : List Entry) :
    e.IsEquipped earlier := by
  cases e with
  | dialled => exact absurd h id
  | sent a =>
    intro connect
    obtain ⟨kind, named, free⟩ := (Requested.isInner h).kind?
    cases named.symm.trans connect
    exact absurd free (by decide)
  | _ => trivial

/-- Whether the attempts of a client are as they should be. -/
structure Warranted (s : System σ) : Prop where
  heeds : Heeds s
  prompted : Prompted Entry.IsNotice s
  equipped : Equipped s

namespace Young

/-- Nothing of a young client began an attempt or led to one. -/
theorem each (h : Young s) {right : Entry → List Entry → Prop}
    (own : ∀ e : Entry, e.OfCall → ∀ earlier, right e earlier) : Entry.Each right s.log :=
  fun e earlier suffixed => own e (h.entries e (suffixed.subset List.mem_cons_self)) earlier

theorem prompted (h : Young s) (cause : Entry → Prop) : Prompted cause s where
  ready _ := .of_unmarked fun e member => (h.entries e member).unmarked.1
  dials := h.each fun _ own _ dial => absurd dial own.unmarked.1

theorem warranted (h : Young s) : Warranted s where
  heeds := {
    free := fun _ => .of_unmarked fun e member => (h.entries e member).unmarked.2.1
    parked := fun parked => absurd (h.parked.symm.trans parked) Bool.noConfusion
    dials := h.each fun _ own _ dial => absurd dial own.unmarked.1 }
  prompted := h.prompted _
  equipped := {
    terms := fun _ _ c told _ split => by
      have member : .raised .reconnecting c told ∈ s.log := by rw [split]; simp
      exact absurd trivial (h.entries _ member).unmarked.2.2.2
    connecting := fun config here => by
      rcases h.early.2 with ⟨place, -⟩ | ⟨place, -⟩ <;> cases place.symm.trans here
    entries := h.each fun _ => Entry.OfCall.isEquipped }

end Young

variable [Environment σ]

theorem CallMove.parked (move : CallMove s s') : s'.client.parked = s.client.parked := by
  cases move with
  | requested | refused | sent => simp [Client.register, Client.passOver]
  | released => simp [Client.release]
  | _ => rfl

theorem CallMove.young (move : CallMove s s') (h : Young s) : Young s' := by
  obtain ⟨new, log, own⟩ := move.entries
  refine ⟨move.early h.early, move.parked.trans h.parked, fun e member => ?_⟩
  rw [log] at member
  exact (List.mem_append.1 member).elim (own e) (h.entries e)

/-- A client that was not started stays young. -/
theorem Young.take (h : Young s) (unstarted : s.client.place = .unstarted) (input : Input σ) :
    Young (s.take input) := by
  by_cases called : ∃ c, input = .call c
  · obtain ⟨c, rfl⟩ := called
    have calls : Calls s (s.take (.call c)) := Act.call_calls c
    generalize s.take (.call c) = s' at calls
    induction calls with
    | refl => exact h
    | tail _ move ih => exact move.young ih
  · obtain ⟨client, log⟩ := System.take_away (Or.inl unstarted) fun c same => called ⟨c, same⟩
    obtain ⟨⟨stands, here⟩, parked, entries⟩ := h
    refine ⟨⟨stands.of_eq log (by rw [client]) (by rw [client]), ?_⟩, ?_, ?_⟩
    · rw [client]; exact here
    · rw [client]; exact parked
    · rw [log]; exact entries

/-! ## All runs -/

/-- The system that inputs lead to from a client just made. -/
def Client.after (client : Client) (outside : σ) (inputs : List (Input σ)) : System σ :=
  System.takes ⟨client, outside, []⟩ inputs

/-- Whether a client may not connect by itself in all of a run. -/
def Client.Manual (client : Client) (outside : σ) (inputs : List (Input σ)) : Prop :=
  ∀ before, before <+: inputs → (client.after outside before).client.config.autoReconnect = false

theorem Course.started (course : Course s s') (started : s.client.place ≠ .unstarted) :
    s'.client.place ≠ .unstarted := by
  intro unstarted
  rcases course.place with alike | present | ⟨_, here, -⟩ | here | here
  · exact started (unstarted ▸ alike.eq (by rw [unstarted]; rfl))
  · exact present (by rw [unstarted]; trivial)
  all_goals cases unstarted.symm.trans here

/-- A client that may not connect by itself does not wait to. -/
theorem Course.unattended (course : Course s s') (manual : s.client.config.autoReconnect = false)
    (h : ∀ ms, s.client.place ≠ .idle (some ms)) (ms : UInt32) :
    s'.client.place ≠ .idle (some ms) := by
  intro waits
  rcases course.place with alike | present | ⟨_, here, may⟩ | here | here
  · exact h ms (waits ▸ alike.eq (by rw [waits]; rfl))
  · exact present (by rw [waits]; trivial)
  · cases waits.symm.trans here
    cases manual.symm.trans (may ms rfl).2
  all_goals cases waits.symm.trans here

namespace Reachable

theorem begun (reachable : Reachable s) (started : s.client.place ≠ .unstarted) : s.Begun :=
  ⟨reachable.good.1.begun started, started⟩

theorem young (reachable : Reachable s) (unstarted : s.client.place = .unstarted) : Young s := by
  induction reachable with
  | created outside made =>
    obtain ⟨-, rfl⟩ := create_eq_ok made
    refine ⟨⟨⟨rfl, rfl, ⟨Bool.noConfusion, fun differ => absurd rfl differ⟩, Phase.noConfusion⟩,
      Or.inl ⟨rfl, rfl⟩⟩, rfl, fun _ none => (by cases none)⟩
  | @input s input reachable ih =>
    by_cases before : s.client.place = .unstarted
    · exact (ih before).take before input
    · exact absurd unstarted ((reachable.course (reachable.begun before) input).started before)

theorem warranted (reachable : Reachable s) : Warranted s := by
  induction reachable with
  | created outside made =>
    obtain ⟨-, rfl⟩ := create_eq_ok made
    exact ((Reachable.created outside made).young rfl).warranted
  | @input s input reachable ih =>
    by_cases before : s.client.place = .unstarted
    · exact ((reachable.young before).take before input).warranted
    · have course := reachable.course (reachable.begun before) input
      exact ⟨ih.heeds.course course, ih.prompted.course course (Or.inl fun _ => id),
        ih.equipped.course course⟩

end Reachable

section Runs

variable {config : Config} {client : Client}

/-- Where a client may not connect by itself it does so only when it is asked to. -/
theorem Client.Manual.prompted {outside : σ} {inputs : List (Input σ)}
    (manual : client.Manual outside inputs) (made : Client.create config = .ok client) :
    Prompted Entry.IsRecall (client.after outside inputs) ∧
      ∀ ms, (client.after outside inputs).client.place ≠ .idle (some ms) := by
  have start : Reachable (⟨client, outside, []⟩ : System σ) := .created outside made
  induction inputs using List.reverseRecOn with
  | nil =>
    obtain ⟨-, rfl⟩ := create_eq_ok made
    exact ⟨(start.young rfl).prompted _, fun _ => Place.noConfusion⟩
  | append_singleton inputs input ih =>
    obtain ⟨prompted, unattended⟩ := ih fun before earlier =>
      manual before (earlier.trans (List.prefix_append inputs [input]))
    have off := manual inputs (List.prefix_append inputs [input])
    have reachable : Reachable (client.after outside inputs) := start.takes inputs
    have last : client.after outside (inputs ++ [input]) =
        (client.after outside inputs).take input := by
      rw [Client.after, System.takes, List.foldl_append]
      rfl
    rw [last]
    generalize client.after outside inputs = s at *
    by_cases before : s.client.place = .unstarted
    · have young := (reachable.young before).take before input
      refine ⟨young.prompted _, fun ms waits => ?_⟩
      rcases young.early.2 with ⟨here, -⟩ | ⟨here, -⟩ <;> cases here.symm.trans waits
    · have course := reachable.course (reachable.begun before) input
      exact ⟨prompted.course course (Or.inr ⟨fun _ => id, unattended⟩),
        course.unattended off unattended⟩

/-- **Reconnections.**  In every run, once the thread turned to the wish to end the session, no
attempt to connect begins before it turned to the wish for another.  Between an attempt and the
next the application is told that one is made ready; and where the client may not connect by
itself in all of the run, the thread turns to the wish for one.  An attempt that follows such an
event is made with the settings as they were then, with what the application replaced of them
since; and the CONNECT of the attempt is written with the identifier, the times, the name and the
password of these settings, and with the will as it was then, or as it was set since, before
CONNECT is sent. -/
theorem reconnections (made : Client.create config = .ok client) (outside : σ)
    (inputs : List (Input σ)) {host : String} {tcpPort : UInt16} {timeout : UInt32}
    {between earlier : List Entry} {e : Entry}
    (dialled : .dialled host tcpPort timeout :: (between ++ e :: earlier) <:+
      (client.after outside inputs).log) :
    (∀ notify, e = .obeyed (.disconnect notify) → .obeyed .reconnect ∈ between) ∧
    (e.IsDial → (∃ c told, .raised .reconnecting c told ∈ between) ∧
      (client.Manual outside inputs → .obeyed .reconnect ∈ between)) ∧
    ∀ c told, e = .raised .reconnecting c told →
      let terms := Entry.amends between c.terms
      (host = terms.1.host ∧ tcpPort = terms.1.tcpPort ∧ timeout = terms.1.connectTimeout) ∧
      ∀ a after,
        .sent a :: (after ++ .dialled host tcpPort timeout :: (between ++ e :: earlier)) <:+
          (client.after outside inputs).log →
        (∀ x ∈ after, ¬ x.IsDial) → Packet.kind? a.whole = some .connect →
        Packet.encode (Packet.Connect.put
          { clientId := terms.1.clientId
            keepAlive := terms.1.keepAlive
            cleanSession := terms.1.cleanSession
            username := terms.1.username
            password := terms.1.password.map Bytes.ofText
            will := (Entry.amends after terms).2.map LastWill.toWill }) = .ok a.whole := by
  have warranted : Warranted (client.after outside inputs) :=
    ((Reachable.created outside made).takes inputs).warranted
  have recalled (caused : ∃ x ∈ between, x.IsRecall) : .obeyed .reconnect ∈ between := by
    obtain ⟨x, member, own⟩ := caused
    exact own.eq ▸ member
  refine ⟨?_, fun dial => ⟨?_, fun manual => ?_⟩, ?_⟩
  · rintro notify rfl
    exact recalled ((warranted.heeds.dials _ _ dialled trivial).exists_cause trivial id)
  · obtain ⟨x, member, own⟩ := (warranted.prompted.dials _ _ dialled trivial).exists_cause dial
      fun notice => by cases e <;> first | exact notice | exact dial
    obtain ⟨c, told, rfl⟩ := own.eq
    exact ⟨c, told, member⟩
  · have asked := (manual.prompted made).1
    exact recalled ((asked.dials _ _ dialled trivial).exists_cause dial
      fun own => by cases e <;> first | exact own | exact dial)
  · rintro c told rfl
    obtain ⟨terms, amended, own⟩ := warranted.equipped.entries _ _ dialled
    rw [amended between c told earlier rfl] at own
    refine ⟨own, fun a after sent undialled connect => ?_⟩
    obtain ⟨config, terms, under, amended, written⟩ := warranted.equipped.entries _ _ sent connect
    rw [under after host tcpPort timeout between c told earlier rfl undialled] at written
    have will := amended (after ++ .dialled host tcpPort timeout :: between) c told earlier
      (by rw [List.append_assoc, List.cons_append])
    rw [Entry.amends, List.foldr_append] at will
    rw [will] at written
    exact written

end Runs

/-- An application ends its session and asks for another attempt at once, and has the client
connect elsewhere when it is told of it. -/
def elsewhere : System Script :=
  (Client.fresh { host := "broker", clientId := "dev" }).after {}
    [.call .start, .turn, .turn, .dialled (.ok ()), .heard (.ok [0x20, 2]) 0,
      .heard (.ok [0, 0]) 0, .turn, .call (.disconnect true), .call .reconnect,
      .outside { rules := [⟨.reconnecting,
        fun _ => [.call (.configure [.host "other"]) 0], none⟩] },
      .heard (.error .timeout) 0, .turn, .turn, .turn]

theorem reconnections_elsewhere :
    elsewhere.log.head? = some (.dialled "other" 1883 5000) ∧
    .obeyed .reconnect ∈ elsewhere.log.tail.take 6 ∧
    ∃ c told, .raised .reconnecting c told ∈ elsewhere.log.tail.take 13 := by
  have made : Client.create { host := "broker", clientId := "dev" } = .ok (Client.fresh _) := rfl
  have parted : .dialled "other" 1883 5000 :: (elsewhere.log.tail.take 6 ++
      .obeyed (.disconnect true) :: elsewhere.log.drop 8) <:+ elsewhere.log :=
    ⟨[], by decide +kernel⟩
  have dialled : .dialled "other" 1883 5000 :: (elsewhere.log.tail.take 13 ++
      .dialled "broker" 1883 5000 :: elsewhere.log.drop 15) <:+ elsewhere.log :=
    ⟨[], by decide +kernel⟩
  obtain ⟨heeded, -⟩ := reconnections made _ _ parted
  obtain ⟨-, told, -⟩ := reconnections made _ _ dialled
  exact ⟨by decide +kernel, heeded true rfl, (told trivial).1⟩

end Mqtt
