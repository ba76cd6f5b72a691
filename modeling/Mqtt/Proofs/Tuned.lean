import Mqtt.Proofs.Pings
import Mqtt.Proofs.Rhythm

/-!
# Clients that keep a rhythm

The clock of an environment shows the low 32 bits of a time that does not wrap (`Clock`).  A
client is tuned to a rhythm when its own state agrees with it (`Tuned`).  The timer of the
heartbeat is then started at the latest beat, so it shows too little time at most, and never
too much (`Beats.Shown.poll`).  A stretch of a run sustains a rhythm when its pulses go by the
settings and leave the client tuned (`Sustains`); lapses do.
-/

namespace Mqtt

/-- A clock whose time does not wrap, and of which the low 32 bits are read. -/
structure Clock (σ : Type) [Environment σ] where
  time : σ → Nat
  reads : ∀ o : σ, (Environment.now o).1 = UInt32.ofNat (time (Environment.now o).2)
  onward : ∀ {o o' : σ}, Environment.Use o o' → time o ≤ time o'

variable {σ : Type} [Environment σ]

namespace Clock

variable (clock : Clock σ)

theorem later {o o' : σ} (used : Environment.Later o o') : clock.time o ≤ clock.time o' := by
  induction used with
  | refl => exact Nat.le_refl _
  | tail _ use ih => exact Nat.le_trans ih (clock.onward use)

/-- The time that is read next. -/
def next (s : System σ) : Nat :=
  clock.time (Environment.now s.outside).2

theorem le_next (s : System σ) : clock.time s.outside ≤ clock.next s :=
  clock.onward (.now s.outside)

end Clock

theorem Environment.Use.of_offer {o o' : σ} {bs : Bytes} {left : Nat} {answer : Transport.Answer}
    (offered : Environment.offer o bs left = (answer, o')) : Environment.Use o o' := by
  have use := Environment.Use.offer o bs left
  rw [offered] at use
  exact use

/-- The offers of a packet are so many uses of what is outside. -/
theorem Transport.later_sendRest (whole bs : Bytes) (left : Nat) (o : σ) :
    Environment.Later o (sendRest Environment.offer whole bs left o).line := by
  fun_induction sendRest Environment.offer whole bs left o with
  | case1 => exact .refl
  | case2 => exact .refl
  | case3 _ _ _ _ _ _ _ _ offered => exact .single (.of_offer offered)
  | case4 _ _ _ _ _ _ _ offered => exact .single (.of_offer offered)
  | case5 _ _ _ _ _ _ _ _ offered _ ih => exact .head (.of_offer offered) ih

theorem System.later_afterSend (s : System σ) (packet : Bytes) :
    Environment.Later s.outside (s.afterSend packet).outside := by
  unfold afterSend
  split
  · exact Transport.later_sendRest _ _ _ _
  · exact .refl

/-! ## The timer -/

/-- A timer that has run out did so no earlier than the time says. -/
theorem Timer.le_of_expired {last now : Nat} {seconds : UInt16} (order : last ≤ now)
    (expired : (⟨UInt32.ofNat last, seconds.toUInt32 * 1000⟩ : Timer).expired (.ofNat now) = true) :
    last + seconds.toNat * 1000 ≤ now := by
  have small : seconds.toNat < 65536 := seconds.toNat_lt
  have period : (seconds.toUInt32 * 1000).toNat = seconds.toNat * 1000 := by
    rw [UInt32.toNat_mul, UInt16.toNat_toUInt32]
    change seconds.toNat * 1000 % 2 ^ 32 = _
    omega
  rw [← period]
  exact period_le_of_expired rfl order expired

namespace Beats

/-- Whether the state of a heartbeat shows how the beats of the session stand, at a time. -/
structure Shown (b : Beats) (k : KeepAlive) (now : Nat) : Prop where
  timer : k.timer = ⟨UInt32.ofNat b.last, b.seconds.toUInt32 * 1000⟩
  missed : k.missed.toNat = b.asked
  few : b.asked ≤ KeepAlive.limit.toNat
  /-- Each PINGREQ came a period after what was before it. -/
  spaced : b.heard + b.asked * (b.seconds.toNat * 1000) ≤ b.last
  past : b.last ≤ now

variable {b : Beats} {k : KeepAlive} {now now' : Nat}

theorem shown_fresh (seconds : UInt16) (now : Nat) :
    (fresh seconds now).Shown (.fresh (.ofNat now) (seconds.toUInt32 * 1000)) now :=
  ⟨rfl, rfl, Nat.zero_le _, by simp [fresh], Nat.le_refl _⟩

theorem Shown.later (h : b.Shown k now) (later : now ≤ now') : b.Shown k now' :=
  { h with past := Nat.le_trans h.past later }

theorem Shown.answer (h : b.Shown k now) (later : now ≤ now') :
    (b.answer now').Shown (k.pong (.ofNat now')) now' := by
  have last : max b.last now' = now' := Nat.max_eq_right (Nat.le_trans h.past later)
  refine ⟨?_, rfl, Nat.zero_le _, ?_, ?_⟩
  · change (⟨.ofNat now', k.timer.period⟩ : Timer) =
      ⟨.ofNat (max b.last now'), b.seconds.toUInt32 * 1000⟩
    rw [last, h.timer]
  · have spaced := h.spaced
    change max b.heard now' + 0 * _ ≤ max b.last now'
    omega
  · exact Nat.le_of_eq last

/-- A look at the heartbeat asks for what may come. -/
theorem Shown.poll (h : b.Shown k now) (later : now ≤ now') :
    k.poll (.ofNat now') = (.quiet, k) ∨
      k.poll (.ofNat now') = (.dead, k) ∧ b.MayExpire b.seconds now' ∨
      ∃ k', k.poll (.ofNat now') = (.ping, k') ∧ b.MayAsk b.seconds now' ∧
        (b.ask now').Shown k' now' := by
  have past := Nat.le_trans h.past later
  obtain ⟨-, came⟩ | ⟨expired, counted⟩ := k.poll_cases (.ofNat now')
  · exact Or.inl came
  · have due : b.last + b.seconds.toNat * 1000 ≤ now' := by
      rw [h.timer] at expired
      exact Timer.le_of_expired past expired
    have spaced := h.spaced
    obtain ⟨full, came⟩ | ⟨room, came⟩ := counted
    · have full : KeepAlive.limit.toNat ≤ b.asked := h.missed ▸ UInt8.le_iff_toNat_le.1 full
      have all := Nat.le_antisymm h.few full
      refine Or.inr (Or.inl ⟨came, all, ?_⟩)
      rw [all] at spaced
      rw [Nat.succ_mul]
      omega
    · have few : b.asked < KeepAlive.limit.toNat := h.missed ▸ UInt8.lt_iff_toNat_lt.1 room
      have last : max b.last now' = now' := Nat.max_eq_right past
      have counted := (KeepAlive.toNat_missed_succ room).trans (congrArg (· + 1) h.missed)
      refine Or.inr (Or.inr ⟨_, came, ⟨few, due⟩, ?_⟩)
      refine ⟨?_, counted, few, ?_, Nat.le_of_eq last⟩
      · change (⟨.ofNat now', k.timer.period⟩ : Timer) =
          ⟨.ofNat (max b.last now'), b.seconds.toUInt32 * 1000⟩
        rw [last, h.timer]
      · change b.heard + (b.asked + 1) * (b.seconds.toNat * 1000) ≤ max b.last now'
        rw [Nat.succ_mul, last]
        omega

end Beats

/-! ## Tuned clients -/

/-- Whether a client keeps a rhythm. -/
structure Tuned (clock : Clock σ) (s : System σ) (r : Rhythm) : Prop where
  setting : s.client.config.keepAlive = r.setting
  connecting : ∀ config, s.client.place = .connecting config → config.keepAlive = r.due
  linked : s.client.linked = true → r.announced = some r.due
  session : s.client.phase = .connected →
    ∃ b, r.session = some b ∧ b.Shown s.client.keepAlive (clock.time s.outside)

/-- A stretch of a run in which nothing begins that the heartbeat goes by. -/
structure Glide (clock : Clock σ) (s s' : System σ) : Prop where
  setting : s'.client.config.keepAlive = s.client.config.keepAlive
  connecting : ∀ config, s'.client.place = .connecting config → s.client.place = .connecting config
  linked : s'.client.linked = true → s.client.linked = true
  session : s'.client.phase = .connected →
    s.client.phase = .connected ∧ s'.client.keepAlive = s.client.keepAlive
  time : clock.time s.outside ≤ clock.time s'.outside

/-- Whether what was written to a log since is nothing to the heartbeat. -/
def Silent (log log' : List Entry) : Prop :=
  ∃ new, log' = new ++ log ∧ ∀ time, new.filterMap (Entry.pulse? time) = []

/-- A stretch in which nothing begins, and that is nothing to the heartbeat. -/
structure Drift (clock : Clock σ) (s s' : System σ) : Prop extends Glide clock s s' where
  silent : Silent s.log s'.log

variable {clock : Clock σ} {s s' s'' : System σ} {r : Rhythm} {log : List Entry} {time : Nat}

theorem Tuned.glide (tuned : Tuned clock s r) (glide : Glide clock s s') : Tuned clock s' r where
  setting := glide.setting.trans tuned.setting
  connecting config here := tuned.connecting config (glide.connecting config here)
  linked opened := tuned.linked (glide.linked opened)
  session connected := by
    obtain ⟨before, same⟩ := glide.session connected
    obtain ⟨b, here, shown⟩ := tuned.session before
    exact ⟨b, here, same ▸ shown.later glide.time⟩

theorem Tuned.drift (tuned : Tuned clock s r) (drift : Drift clock s s') : Tuned clock s' r :=
  tuned.glide drift.toGlide

theorem Silent.of_eq {log log' : List Entry} (same : log' = log) : Silent log log' :=
  ⟨[], same, fun _ => rfl⟩

theorem Silent.of_entry {e : Entry} (silent : ∀ time, e.pulse? time = none) (log : List Entry) :
    Silent log (e :: log) :=
  ⟨[e], rfl, fun time => by rw [List.filterMap_cons, silent, List.filterMap_nil]⟩

theorem Glide.afterSend (s : System σ) (packet : Bytes) : Glide clock s (s.afterSend packet) where
  setting := by rw [System.afterSend_client, Client.pass_config]
  connecting config here := by
    rw [System.afterSend_client, Client.pass_place] at here
    split at here
    · cases here
    · cases here
    · exact here
  linked opened := by rwa [System.afterSend_client, Client.pass_linked] at opened
  session connected := by
    rw [System.afterSend_client, Client.pass_phase] at connected
    exact ⟨connected, by rw [System.afterSend_client, Client.pass_keepAlive]⟩
  time := clock.later (s.later_afterSend packet)

namespace Drift

theorem trans (first : Drift clock s s') (later : Drift clock s' s'') : Drift clock s s'' where
  setting := later.setting.trans first.setting
  connecting config here := first.connecting config (later.connecting config here)
  linked opened := first.linked (later.linked opened)
  session connected := by
    obtain ⟨before, same⟩ := later.session connected
    exact (first.session before).imp_right same.trans
  time := Nat.le_trans first.time later.time
  silent := by
    obtain ⟨new, log, silent⟩ := first.silent
    obtain ⟨newer, log', silent'⟩ := later.silent
    refine ⟨newer ++ new, by rw [log', log, List.append_assoc], fun time => ?_⟩
    rw [List.filterMap_append, silent', silent, List.append_nil]

/-- The client changes, and nothing of it begins. -/
theorem change (s : System σ) {f : Client → Client}
    (setting : (f s.client).config = s.client.config)
    (connecting : ∀ config, (f s.client).place = .connecting config →
      s.client.place = .connecting config)
    (linked : (f s.client).linked = true → s.client.linked = true)
    (session : (f s.client).phase = .connected →
      s.client.phase = .connected ∧ (f s.client).keepAlive = s.client.keepAlive) :
    Drift clock s (s.change f) :=
  ⟨⟨congrArg (·.keepAlive) setting, connecting, linked, session, Nat.le_refl _⟩, .of_eq rfl⟩

/-- The client changes in what nothing of this depends on. -/
theorem frame (s : System σ) {f : Client → Client} (config : (f s.client).config = s.client.config)
    (place : (f s.client).place = s.client.place) (linked : (f s.client).linked = s.client.linked)
    (phase : (f s.client).phase = s.client.phase)
    (keepAlive : (f s.client).keepAlive = s.client.keepAlive) : Drift clock s (s.change f) :=
  change s config (fun _ here => place ▸ here) (fun opened => linked ▸ opened)
    fun connected => ⟨phase ▸ connected, keepAlive⟩

theorem note (s : System σ) {e : Entry} (silent : ∀ time, e.pulse? time = none) :
    Drift clock s (s.note e) :=
  ⟨⟨rfl, fun _ => id, id, fun connected => ⟨connected, rfl⟩, Nat.le_refl _⟩,
    .of_entry silent s.log⟩

theorem shift (s : System σ) {outside : σ} (onward : clock.time s.outside ≤ clock.time outside) :
    Drift clock s (s.shift outside) :=
  ⟨⟨rfl, fun _ => id, id, fun connected => ⟨connected, rfl⟩, onward⟩, .of_eq rfl⟩

theorem close (s : System σ) : Drift clock s s.close := by
  unfold System.close
  split
  · have shut : Drift clock s (s.change fun c => { c with linked := false }) :=
      change s rfl (fun _ => id) (fun opened => by cases opened) fun connected => ⟨connected, rfl⟩
    exact shut.trans (note _ fun _ => rfl)
  · exact shift s (Nat.le_refl _)

/-- The thread goes to a place where no transport is awaited. -/
theorem goTo (s : System σ) {place : Place} (stays : ∀ config, place ≠ .connecting config) :
    Drift clock s (s.change fun c => { c with place }) :=
  change s rfl (fun config here => absurd here (stays config)) id fun connected => ⟨connected, rfl⟩

/-- No session stands any more. -/
theorem enter (s : System σ) {phase : Phase} (apart : phase ≠ .connected) :
    Drift clock s (s.change fun c => { c with phase }) :=
  change s rfl (fun _ => id) id fun connected => absurd connected apart

theorem afterSend (s : System σ) {packet : Bytes}
    (silent : ∀ time, Packet.pulse? time packet = none) : Drift clock s (s.afterSend packet) where
  toGlide := .afterSend s packet
  silent := by
    refine ⟨_, s.afterSend_log packet, fun time => List.filterMap_eq_nil_iff.2 fun e member => ?_⟩
    obtain ⟨a, offered, rfl⟩ := List.mem_map.1 (List.mem_reverse.1 member)
    change (if a.opens then Packet.pulse? time a.whole else none) = none
    rw [System.whole_of_mem_offers offered, silent, ite_self]

end Drift

/-- Sending a packet while there is time for it is the pulse that the packet is. -/
theorem System.pulses_afterSend (s : System σ) {packet : Bytes} (more : packet ≠ [])
    (linked : s.client.linked = true) (valid : s.client.config.validate = .ok ()) (time : Nat) :
    ∃ new, (s.afterSend packet).log = new ++ s.log ∧
      new.filterMap (Entry.pulse? time) = (Packet.pulse? time packet).toList := by
  obtain ⟨first, later, made, opens, others⟩ := Transport.sendAll_opens Environment.offer
    s.outside more (Config.hasTime valid)
  have offered : s.offers packet = first :: later := by
    rw [offers, if_pos linked]
    exact made
  have own : first.whole = packet := whole_of_mem_offers (offered ▸ List.mem_cons_self)
  have none : (later.map Entry.sent).reverse.filterMap (Entry.pulse? time) = [] := by
    refine List.filterMap_eq_nil_iff.2 fun e member => ?_
    obtain ⟨a, further, rfl⟩ := List.mem_map.1 (List.mem_reverse.1 member)
    exact if_neg (by simp [others a further])
  have once : Entry.pulse? time (.sent first) = Packet.pulse? time packet :=
    (if_pos opens).trans (by rw [own])
  refine ⟨_, s.afterSend_log packet, ?_⟩
  rw [offered, List.map_cons, List.reverse_cons, List.filterMap_append, none, List.nil_append,
    List.filterMap_cons, once]
  cases Packet.pulse? time packet <;> rfl

/-! ## Stretches that sustain a rhythm -/

/-- Whether pulses go by the settings and leave a client tuned. -/
def Rhythm.LeadsTo (clock : Clock σ) (r : Rhythm) (pulses : List Pulse) (s : System σ) : Prop :=
  r.Lawful pulses ∧ Tuned clock s (r.along pulses)

theorem Rhythm.LeadsTo.append {earlier later : List Pulse} (first : r.Lawful earlier)
    (next : (r.along earlier).LeadsTo clock later s) : r.LeadsTo clock (later ++ earlier) s :=
  ⟨first.append next.1, by rw [along_append]; exact next.2⟩

/-- Whether what was written to a log since sustains a rhythm, if the heartbeat was last looked
at at this time. -/
def Sustains (clock : Clock σ) (time : Nat) (r : Rhythm) (log : List Entry) (s : System σ) :
    Prop :=
  ∃ new, s.log = new ++ log ∧ r.LeadsTo clock (new.filterMap (Entry.pulse? time)) s

namespace Sustains

theorem refl (tuned : Tuned clock s r) : Sustains clock time r s.log s :=
  ⟨[], rfl, trivial, tuned⟩

/-- What was silent before makes no difference. -/
theorem of_silent {log log' : List Entry} (silent : Silent log log')
    (later : Sustains clock time r log' s) : Sustains clock time r log s := by
  obtain ⟨old, log, silent⟩ := silent
  obtain ⟨new, log', leads⟩ := later
  refine ⟨new ++ old, by rw [log', log, List.append_assoc], ?_⟩
  rw [List.filterMap_append, silent, List.append_nil]
  exact leads

theorem drift (tuned : Tuned clock s r) (drift : Drift clock s s') :
    Sustains clock time r s.log s' :=
  of_silent drift.silent (refl (tuned.drift drift))

theorem trans (first : Sustains clock time r log s)
    (later : ∀ r', Tuned clock s r' → Sustains clock time r' s.log s') :
    Sustains clock time r log s' := by
  obtain ⟨old, log, lawful, tuned⟩ := first
  obtain ⟨new, log', leads⟩ := later _ tuned
  refine ⟨new ++ old, by rw [log', log, List.append_assoc], ?_⟩
  rw [List.filterMap_append]
  exact .append lawful leads

end Sustains

/-! ## Lapses -/

theorem LapseMove.sustains (move : LapseMove s s') (tuned : Tuned clock s r) :
    Sustains clock time r s.log s' := by
  cases move with
  | used use => exact .drift tuned (.shift s (clock.onward use))
  | changed spares =>
    obtain ⟨phase, linked, keepAlive, place, -, terms⟩ := spares.parts
    exact .drift tuned (.frame s (congrArg Prod.fst terms) place linked phase keepAlive)
  | told inner => exact .drift tuned (.note s (Entry.pulse?_raised inner _ _))
  | remarked remark none _ =>
    exact .drift tuned (.note s fun time => by rw [remark.pulse?, none]; rfl)
  | @willed will e remark none _ =>
    have kept : Drift clock s (s.change fun c => { c with will }) := .frame s rfl rfl rfl rfl rfl
    exact .drift tuned (kept.trans (.note _ fun time => by rw [remark.pulse?, none]; rfl))
  | @settled _ e remark replaced _ _ =>
    subst replaced
    refine ⟨[e], rfl, ?_⟩
    rw [List.filterMap_cons, remark.pulse?, List.filterMap_nil]
    have setting := s.client.config.setAll_keepAlive e.replaced
    cases given : Config.keepAliveOf e.replaced with
    | none =>
      rw [given] at setting
      exact ⟨trivial, setting.trans tuned.setting, tuned.connecting, tuned.linked, tuned.session⟩
    | some seconds =>
      rw [given] at setting
      exact ⟨⟨trivial, trivial⟩, setting, tuned.connecting, tuned.linked, tuned.session⟩
  | sent _ inner => exact .drift tuned (.afterSend s inner.pulse?)
  | started =>
    exact .drift tuned (.change s rfl (fun _ here => Place.noConfusion here) id
      fun connected => Phase.noConfusion connected)
  | undone => exact .drift tuned (.note s fun _ => rfl)
  | released =>
    exact .drift tuned ((Drift.close s).trans (.frame s.close rfl rfl rfl rfl rfl))

theorem Lapse.sustains (lapse : Lapse s s') (tuned : Tuned clock s r) :
    Sustains clock time r s.log s' := by
  induction lapse with
  | refl => exact .refl tuned
  | tail _ move ih => exact ih.trans fun _ tuned => move.sustains tuned

end Mqtt
