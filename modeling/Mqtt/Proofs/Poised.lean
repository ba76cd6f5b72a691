import Mqtt.Proofs.Moves

/-!
# What always holds of a client

`Sane` is what always holds of the transactions: each is sound, and no two of one side
share an identifier.  `Ordered` is what always holds of the life of a client: where its
thread waits says whether a transport is open and a session stands.  Every move keeps
both.
-/

namespace Mqtt

variable {σ : Type}

/-- What always holds of the transactions of a client. -/
structure Pending.Sane (p : Pending) : Prop where
  sound : ∀ t ∈ p.all, t.Sound
  distinct : p.Distinct

namespace Pending.Sane

variable {p : Pending}

theorem of_all {q : Pending} (h : p.Sane) (active : q.active = p.active)
    (staged : q.staged = p.staged) : q.Sane := by
  have all : q.all = p.all := by unfold Pending.all; rw [active, staged]
  exact ⟨by rw [all]; exact h.sound, ⟨by rw [all]; exact h.distinct.apart,
    by rw [staged]; exact h.distinct.staged⟩⟩

theorem purge : p.purge.Sane :=
  ⟨fun _ member => by simp [Pending.all, Pending.purge] at member,
    ⟨by simp [Pending.all, Pending.purge], fun _ member => by cases member⟩⟩

theorem remove (h : p.Sane) (awaits : AckKind) (id : UInt16) : (p.remove awaits id).2.Sane :=
  ⟨fun t member => h.sound t ((p.remove_all_sublist awaits id).subset member),
    h.distinct.remove awaits id⟩

theorem take (h : p.Sane) (awaits : AckKind) (id : UInt16) : (p.take awaits id).2.Sane :=
  ⟨fun t member => h.sound t ((p.take_all_sublist awaits id).subset member),
    h.distinct.take awaits id⟩

theorem stage (h : p.Sane) {t : Transaction} (sound : t.Sound) (own : t.awaits.isLocal = true)
    (free : p.idInUse t.packetId = false) : (p.stage t).Sane := by
  refine ⟨fun u member => ?_, h.distinct.stage own free⟩
  rw [stage_all] at member
  rcases List.mem_append.1 member with old | new
  · exact h.sound u old
  · exact List.mem_singleton.1 new ▸ sound

theorem insert (h : p.Sane) {t : Transaction} (sound : t.Sound)
    (apart : ∀ u ∈ p.all, u.Apart t) : (p.insert t).2.Sane := by
  have absent : p.contains t.awaits t.packetId = false := by
    rw [contains_eq_false_iff]
    exact fun u member => (apart u (mem_all.2 (Or.inl member))).not_isFor
  constructor
  · intro u member
    rcases mem_of_mem_insert member with old | rfl
    · exact h.sound u old
    · exact sound
  · rw [insert_of_absent absent]
    refine ⟨?_, h.distinct.staged⟩
    have split := List.pairwise_append.1 h.distinct.apart
    change ((p.active ++ [t]) ++ p.staged.reverse).Pairwise Transaction.Apart
    rw [List.append_assoc, List.pairwise_append, List.singleton_append, List.pairwise_cons]
    refine ⟨split.1, ⟨fun u staged => ?_, split.2.1⟩, fun u active v later => ?_⟩
    · exact (apart u (mem_all.2 (Or.inr (List.mem_reverse.1 staged)))).symm
    · rcases List.mem_cons.1 later with rfl | staged
      · exact apart u (mem_all.2 (Or.inl active))
      · exact split.2.2 u active v staged

theorem migrate (h : p.Sane) : p.migrate.2.Sane :=
  ⟨fun t member => h.sound t (mem_of_mem_migrate member), h.distinct.migrate⟩

theorem scan (h : p.Sane) (now limit : UInt32) (force : Bool) :
    (p.scan now limit force).2.Sane := by
  refine ⟨fun t member => ?_, h.distinct.scan now limit force⟩
  rcases mem_all.1 member with active | staged
  · obtain ⟨u, old, looked⟩ := mem_scan_active.1 active
    exact (h.sound u (mem_all.2 (Or.inl old))).look looked
  · rw [scan_staged] at staged
    exact h.sound t (mem_all.2 (Or.inr staged))

end Pending.Sane

variable [Environment σ] {s s' : System σ}

/-- What a call does to the transactions: nothing, or one is given up, or one is staged,
or a client that was never started drops them all. -/
theorem CallMove.pending (move : CallMove s s') :
    (s'.client.pending.active = s.client.pending.active ∧
      s'.client.pending.staged = s.client.pending.staged) ∨
    (∃ awaits id t, (s.client.pending.remove awaits id).1 = some t ∧
      s'.client.pending = (s.client.pending.remove awaits id).2 ∧
      Entry.GaveUp s'.log awaits id) ∨
    (∃ t : Transaction, t.Sound ∧ t.awaits.isLocal = true ∧
      s.client.pending.idInUse t.packetId = false ∧ s'.client.pending = s.client.pending.stage t) ∨
    (s.client.destroyed = true ∧ s.client.phase = .init ∧
      s'.client.pending = s.client.pending.purge) := by
  cases move with
  | @discarded awaits id t removed =>
    exact Or.inr (Or.inl ⟨awaits, id, t, removed, rfl, _, _, _, List.mem_cons_self⟩)
  | @requested r id packet began issued _ _ free written =>
    have unused := (Client.isFree_iff.1 free).1
    refine Or.inr (Or.inr (Or.inl ⟨
      { awaits := r.awaits, packetId := id, timer := ⟨began, s.client.config.ackTimeout⟩,
        packet := .request packet, subject := .asked r.subject.1 r.subject.2 id },
      issued.sound written rfl rfl rfl, issued.isLocal, unused, ?_⟩))
    simp [Client.register, Client.passOver]
  | released destroyed early => exact Or.inr (Or.inr (Or.inr ⟨destroyed, early, by
      simp [Client.release]⟩))
  | refused | sent => left; simp [Client.passOver]
  | _ => exact Or.inl ⟨rfl, rfl⟩

/-- A client once destroyed stays so. -/
theorem CallMove.destroyed (move : CallMove s s') (h : s.client.destroyed = true) :
    s'.client.destroyed = true := by
  cases move with
  | condemned | undone => rfl
  | released | requested | refused | sent =>
    simpa [Client.release, Client.register, Client.passOver] using h
  | _ => exact h

theorem Calls.destroyed (calls : Calls s s') (h : s.client.destroyed = true) :
    s'.client.destroyed = true := by
  induction calls with
  | refl => exact h
  | tail _ move ih => exact move.destroyed ih

/-- Calls make no transaction active. -/
theorem CallMove.active_subset (move : CallMove s s') :
    s'.client.pending.active ⊆ s.client.pending.active := by
  rcases move.pending with ⟨active, _⟩ | ⟨awaits, id, t, _, same, _⟩ | ⟨t, _, _, _, same⟩ |
    ⟨_, _, same⟩
  · rw [active]
    exact List.Subset.refl _
  · rw [same]
    exact Pending.remove_active_subset _ _ _
  · rw [same]
    exact List.Subset.refl _
  · rw [same]
    exact List.nil_subset _

theorem Calls.active_subset (calls : Calls s s') :
    s'.client.pending.active ⊆ s.client.pending.active := by
  induction calls with
  | refl => exact List.Subset.refl _
  | tail _ move ih => exact List.Subset.trans move.active_subset ih

theorem Calls.absent (calls : Calls s s') {awaits : AckKind} {id : UInt16}
    (absent : s.client.pending.contains awaits id = false) :
    s'.client.pending.contains awaits id = false := by
  rw [Pending.contains_eq_false_iff] at absent ⊢
  exact fun t member => absent t (calls.active_subset member)

/-- Of a client that was started, calls take out only what the application gives up. -/
theorem CallMove.spares (move : CallMove s s') (begun : s.client.phase ≠ .init) {t : Transaction}
    (member : t ∈ s.client.pending.active) :
    t ∈ s'.client.pending.active ∨ Entry.GaveUp s'.log t.awaits t.packetId := by
  rcases move.pending with ⟨active, _⟩ | ⟨awaits, id, _, _, same, gaveUp⟩ | ⟨u, _, _, _, same⟩ |
    ⟨_, early, _⟩
  · rw [active]
    exact Or.inl member
  · by_cases given : t.isFor awaits id = true
    · obtain ⟨rfl, rfl⟩ := Transaction.isFor_iff.1 given
      exact Or.inr gaveUp
    · rw [Bool.not_eq_true] at given
      rw [same]
      exact Or.inl ((Pending.mem_remove_active given).2 member)
  · rw [same]
    exact Or.inl member
  · exact absurd early begun

theorem CallMove.sane (move : CallMove s s') (h : s.client.pending.Sane) :
    s'.client.pending.Sane := by
  rcases move.pending with ⟨active, staged⟩ | ⟨awaits, id, t, _, same, _⟩ |
    ⟨t, sound, own, free, same⟩ | ⟨_, _, same⟩
  · exact h.of_all active staged
  · rw [same]; exact h.remove awaits id
  · rw [same]; exact h.stage sound own free
  · rw [same]; exact .purge

theorem TurnMove.sane {hand : Option Inbound} (move : TurnMove hand s s')
    (h : s.client.pending.Sane) : s'.client.pending.Sane := by
  cases move with
  | call move => exact move.sane h
  | told | filed | pulsed | delivered => exact h
  | remembered _ began _ _ _ absent =>
    refine h.insert rfl fun u member side same => ?_
    rcases Pending.mem_all.1 member with active | staged
    · have kind : u.awaits = .pubRel := by
        cases kind : u.awaits <;> rw [kind] at side <;> first | rfl | cases side
      exact Bool.false_ne_true ((Pending.contains_eq_false_iff.1 absent u active).symm.trans
        (Transaction.isFor_iff.2 ⟨same, kind⟩))
    · rw [h.distinct.staged u staged] at side
      cases side
  | forgotten => exact h.take _ _
  | completed => exact h.take _ _
  | advanced _ began _ taken =>
    obtain ⟨-, own, kind⟩ := Pending.of_take_eq_some taken
    refine (h.take _ _).insert rfl fun u member side same => ?_
    refine h.distinct.apart_of_take taken member ?_ (same.trans own.symm)
    rw [side, kind]
    rfl
  | answered => exact h.take _ _
  | replied | resent | pinged => simpa using h
  | migrated => exact h.migrate
  | scanned => exact h.scan _ _ _

theorem ThreadMove.sane (move : ThreadMove s s') (h : s.client.pending.Sane) :
    s'.client.pending.Sane := by
  cases move with
  | turn _ move => exact move.turn.sane h
  | readEnded => exact h.migrate
  | greeted => exact h.migrate
  | left => exact .purge
  | _ => simpa using h

/-! ## The life of a client -/

/-- What always holds of the life of a client. -/
structure Ordered (s : System σ) : Prop where
  begun : s.client.place ≠ .unstarted → s.client.phase ≠ .init
  condemned : .destroy ∈ s.client.controls.toList → s.client.destroyed = true
  valid : s.client.config.validate = .ok ()
  connected : s.client.phase = .connected → Entry.isFresh s.log = false
  connecting : ∀ config, s.client.place = .connecting config → s.client.phase ≠ .connected
  greeting : ∀ reader, s.client.place = .greeting reader →
    s.client.linked = true ∧ s.client.phase ≠ .connected ∧ Entry.isFresh s.log = true
  listening : ∀ reader, s.client.place = .listening reader →
    s.client.linked = true ∧ s.client.phase = .connected

/-- There is always some time to send a packet. -/
theorem Config.hasTime {c : Config} (valid : c.validate = .ok ()) : c.commandTimeout.toNat ≠ 0 := by
  intro none
  have zero : c.commandTimeout = 0 := UInt32.toNat_inj.1 none
  simp only [Config.validate, zero, or_true, if_true] at valid
  repeat' split at valid
  all_goals cases valid

omit [Environment σ] in
theorem Ordered.hasTime (h : Ordered s) : s.client.config.commandTimeout.toNat ≠ 0 :=
  Config.hasTime h.valid

theorem Entry.OfCall.not_isArrival {e : Entry} (h : e.OfCall) : ¬ e.IsArrival := by
  cases e <;> first | exact id | exact absurd h id

omit [Environment σ] in
theorem Writes.isFresh (h : Writes (fun e => ¬ e.IsArrival) s s') :
    Entry.isFresh s'.log = Entry.isFresh s.log :=
  h.keep (I := fun log => Entry.isFresh log = Entry.isFresh s.log)
    (fun quiet same => (Entry.isFresh_cons _ quiet).trans same) rfl

theorem CallMove.isFresh (move : CallMove s s') : Entry.isFresh s'.log = Entry.isFresh s.log :=
  (move.entries.imp fun _ own => own.not_isArrival).isFresh

theorem Calls.isFresh (calls : Calls s s') : Entry.isFresh s'.log = Entry.isFresh s.log := by
  induction calls with
  | refl => rfl
  | tail _ move ih => exact move.isFresh.trans ih

theorem isFresh_afterSend (s : System σ) (bs : Bytes) :
    Entry.isFresh (s.afterSend bs).log = Entry.isFresh s.log :=
  Writes.isFresh (.afterSend s fun _ _ => id)

omit [Environment σ] in
/-- Order is kept where the thread stays, but for the time that passes, and no more than
the settings, the controls and the log change. -/
theorem Ordered.of_frame (h : Ordered s) (phase : s'.client.phase = s.client.phase)
    (place : ∃ ms, s'.client.place = (s.client.pass ms).place)
    (linked : s'.client.linked = s.client.linked)
    (condemned : .destroy ∈ s'.client.controls.toList → s'.client.destroyed = true)
    (valid : s'.client.config.validate = .ok ())
    (fresh : Entry.isFresh s'.log = Entry.isFresh s.log) : Ordered s' := by
  rcases place with ⟨ms, place⟩
  rw [Client.pass_place] at place
  constructor
  · rw [phase]
    intro started
    refine h.begun fun unstarted => started ?_
    rw [place, unstarted]
  · exact condemned
  · exact valid
  · rw [phase, fresh]
    exact h.connected
  · intro config here
    rw [phase]
    split at place <;> rw [place] at here <;> first | cases here | exact h.connecting config here
  · intro reader here
    rw [phase, linked, fresh]
    split at place <;> rw [place] at here
    next before standing => exact h.greeting before standing
    · cases here
    · exact h.greeting reader here
  · intro reader here
    rw [phase, linked]
    split at place <;> rw [place] at here
    · cases here
    next before standing => exact h.listening before standing
    · exact h.listening reader here

theorem Ordered.afterSend (h : Ordered s) (packet : Bytes) : Ordered (s.afterSend packet) :=
  h.of_frame (by simp) ⟨_, by rw [System.afterSend_client]⟩ (by simp) (by simpa using h.condemned)
    (by simpa using h.valid) (isFresh_afterSend s packet)

theorem CallMove.ordered (move : CallMove s s') (h : Ordered s) : Ordered s' := by
  have fresh := move.isFresh
  have still : ∃ ms, s.client.place = (s.client.pass ms).place := ⟨0, by rw [Client.pass_zero]⟩
  cases move with
  | started alive early =>
    exact ⟨fun _ => Phase.noConfusion, h.condemned, h.valid, Phase.noConfusion,
      fun _ => Place.noConfusion, fun _ => Place.noConfusion, fun _ => Place.noConfusion⟩
  | asked other =>
    refine h.of_frame rfl still rfl (fun member => h.condemned ?_) h.valid fresh
    rw [System.change_client, Queue.toList_push] at member
    rcases List.mem_append.1 member with old | new
    · exact old
    · exact absurd (List.mem_singleton.1 new).symm other
  | condemned => exact h.of_frame rfl still rfl (fun _ => rfl) h.valid fresh
  | undone => exact h.of_frame rfl still rfl (fun _ => rfl) h.valid fresh
  | released destroyed early =>
    have unstarted : s.client.place = .unstarted :=
      Decidable.byContradiction fun started => h.begun started early
    have place : (s.close.change Client.release).client.place = .unstarted := by
      simpa [Client.release] using unstarted
    have phase : (s.close.change Client.release).client.phase = .init := by
      simpa [Client.release] using early
    refine ⟨fun started => absurd place started, ?_, ?_, ?_, ?_, ?_, ?_⟩
    · simpa [Client.release] using h.condemned
    · simpa [Client.release] using h.valid
    · rw [phase]; exact Phase.noConfusion
    all_goals intro _ here; rw [place] at here; cases here
  | configured valid => exact h.of_frame rfl still rfl h.condemned valid fresh
  | requested | refused =>
    refine Ordered.afterSend ?_ _
    exact h.of_frame rfl still rfl h.condemned h.valid rfl
  | sent => exact h.afterSend _
  | _ => exact h.of_frame rfl still rfl h.condemned h.valid fresh

theorem TurnMove.ordered {hand : Option Inbound} (move : TurnMove hand s s') (h : Ordered s) :
    Ordered s' := by
  have still : ∃ ms, s.client.place = (s.client.pass ms).place := ⟨0, by rw [Client.pass_zero]⟩
  cases move with
  | call move => exact move.ordered h
  | replied => exact h.afterSend _
  | resent => exact h.afterSend _
  | pinged => exact h.afterSend _
  | _ => exact h.of_frame rfl still rfl h.condemned h.valid rfl

omit [Environment σ] in
theorem isFresh_close (s : System σ) : Entry.isFresh s.close.log = Entry.isFresh s.log :=
  Writes.isFresh (.close s id)

omit [Environment σ] in
/-- Where the thread stands between two places, only the phase and the log matter. -/
theorem Ordered.of_running (h : Ordered s) (place : s'.client.place = .running)
    (phase : s'.client.phase ≠ .init)
    (condemned : .destroy ∈ s'.client.controls.toList → s'.client.destroyed = true)
    (config : s'.client.config = s.client.config)
    (connected : s'.client.phase = .connected → Entry.isFresh s'.log = false) : Ordered s' := by
  refine ⟨fun _ => phase, condemned, by rw [config]; exact h.valid, connected, ?_, ?_, ?_⟩
  all_goals intro _ here; rw [place] at here; cases here

theorem ThreadMove.ordered (move : ThreadMove s s') (h : Ordered s) : Ordered s' := by
  cases move with
  | turn _ move => exact move.turn.ordered h
  | obeyed here popped =>
    have begun : s.client.phase ≠ .init := h.begun <| by
      rcases here with here | ⟨interval, here⟩ <;> rw [here] <;> exact Place.noConfusion
    refine h.of_running rfl begun (fun member => h.condemned ?_) rfl h.connected
    rw [Queue.toList_of_pop? popped]
    exact List.mem_cons_of_mem _ member
  | rested interval busy lost =>
    exact ⟨fun _ => busy.2, h.condemned, h.valid, h.connected, fun _ => Place.noConfusion,
      fun _ => Place.noConfusion, fun _ => Place.noConfusion⟩
  | woke here =>
    exact h.of_running rfl (h.begun (by rw [here]; exact Place.noConfusion)) h.condemned rfl
      h.connected
  | dialled config busy unconnected =>
    have phase : s.close.client.phase = s.client.phase := by rw [System.close_client]
    refine ⟨fun _ => ?_, ?_, ?_, fun connected => ?_, fun _ _ => ?_, fun _ => Place.noConfusion,
      fun _ => Place.noConfusion⟩
    · exact phase ▸ busy.2
    · simpa using h.condemned
    · simpa using h.valid
    · exact absurd (phase ▸ connected) unconnected
    · exact phase ▸ unconnected
  | unanswered here =>
    exact h.of_running rfl (h.begun (by rw [here]; exact Place.noConfusion)) h.condemned rfl
      h.connected
  | opened here =>
    exact h.of_running rfl (h.begun (by rw [here]; exact Place.noConfusion)) h.condemned rfl
      fun connected => absurd connected (h.connecting _ here)
  | @saluted connect packet reader busy linked unconnected fresh =>
    have sent := h.afterSend packet
    refine ⟨fun _ => ?_, sent.condemned, sent.valid, sent.connected, fun _ => Place.noConfusion,
      fun _ _ => ?_, fun _ => Place.noConfusion⟩
    · simpa using busy.2
    · refine ⟨by simpa using linked, by simpa using unconnected, ?_⟩
      rw [System.change_log, isFresh_afterSend]
      exact fresh
  | @parted packet busy =>
    have sent := h.afterSend packet
    refine sent.of_running ?_ ?_ ?_ ?_ ?_
    · simp [Client.pass_place, busy.1]
    · simpa using busy.2
    · simpa using h.condemned
    · simp
    · rw [isFresh_close, System.close_client]
      exact sent.connected
  | closed busy =>
    refine h.of_running ?_ ?_ ?_ ?_ ?_
    · simpa using busy.1
    · simpa using busy.2
    · simpa using h.condemned
    · simp
    · rw [isFresh_close, System.close_client]
      exact h.connected
  | entered phase busy which =>
    refine h.of_running busy.1 ?_ h.condemned rfl ?_
    all_goals rcases which with rfl | rfl <;> exact Phase.noConfusion
  | parked parked busy => exact h.of_running busy.1 busy.2 h.condemned rfl h.connected
  | began keepAlive busy heard =>
    exact h.of_running busy.1 Phase.noConfusion h.condemned rfl fun _ => heard
  | listened reader busy linked connected =>
    exact ⟨fun _ => busy.2, h.condemned, h.valid, h.connected, fun _ => Place.noConfusion,
      fun _ => Place.noConfusion, fun _ _ => ⟨linked, connected⟩⟩
  | readOn reader here =>
    exact ⟨fun _ => h.begun (by rw [here]; exact Place.noConfusion), h.condemned, h.valid,
      h.connected, fun _ => Place.noConfusion, fun _ => Place.noConfusion,
      fun _ _ => h.listening _ here⟩
  | greetedOn reader here =>
    exact ⟨fun _ => h.begun (by rw [here]; exact Place.noConfusion), h.condemned, h.valid,
      h.connected, fun _ => Place.noConfusion, fun _ _ => h.greeting _ here,
      fun _ => Place.noConfusion⟩
  | readEnded here =>
    have begun : s.client.phase ≠ .init := h.begun <| by
      rcases here with here | here <;> rw [here] <;> exact Place.noConfusion
    exact h.of_running rfl begun h.condemned rfl h.connected
  | greeted p here =>
    exact h.of_running rfl (h.begun (by rw [here]; exact Place.noConfusion)) h.condemned rfl
      fun _ => rfl
  | left busy destroyed =>
    refine ⟨fun _ => Phase.noConfusion, ?_, ?_, Phase.noConfusion, fun _ => Place.noConfusion,
      fun _ => Place.noConfusion, fun _ => Place.noConfusion⟩
    · intro _
      simpa [Client.release] using destroyed
    · simpa [Client.release] using h.valid

end Mqtt
