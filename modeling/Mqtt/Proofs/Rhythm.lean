import Mqtt.Proofs.Lapses

/-!
# The rhythm of a heartbeat

What a run holds for the heartbeat is a list of pulses: settings for it, attempts to connect,
the beginnings of sessions, and PINGREQs and their answers with the time of each.  `Rhythm`
follows the pulses, and says of each what the client goes by (`Rhythm.Allows`) and what the
broker was told (`Rhythm.Honours`).  These come to the same while the setting stays what it
was when the attempt to connect began (`Rhythm.Lawful.honours`).
-/

namespace Mqtt

/-! ## Pulses -/

/-- Something of a run that concerns the heartbeat.  Times are milliseconds that do not wrap. -/
inductive Pulse where
  /-- The setting was replaced. -/
  | set (seconds : UInt16)
  /-- An attempt to connect began. -/
  | dialled
  /-- CONNECT was offered to the transport, with this keep-alive. -/
  | announced (seconds : UInt16)
  /-- A session began. -/
  | opened (time : Nat)
  /-- PINGRESP came in a session. -/
  | answered (time : Nat)
  /-- PINGREQ was offered to the transport. -/
  | asked (time : Nat)
  /-- The session was held to be dead. -/
  | expired (time : Nat)
  deriving DecidableEq

/-- The keep-alive among the settings that are replaced, if it is one of them. -/
def Config.Setting.keepAlive? : Setting → Option UInt16
  | .keepAlive seconds => some seconds
  | _ => none

/-- The keep-alive that settings replaced one after the other leave, if it is one of them. -/
def Config.keepAliveOf (settings : List Setting) : Option UInt16 :=
  (settings.filterMap Setting.keepAlive?).getLast?

theorem Config.setAll_keepAlive (c : Config) (settings : List Setting) :
    (c.setAll settings).keepAlive = (keepAliveOf settings).getD c.keepAlive := by
  induction settings generalizing c with
  | nil => rfl
  | cons first rest ih =>
    have one : (c.set first).keepAlive = first.keepAlive?.getD c.keepAlive := by
      cases first <;> rfl
    change ((c.set first).setAll rest).keepAlive = _
    rw [ih, one, keepAliveOf, keepAliveOf, List.filterMap_cons]
    cases first.keepAlive? with
    | none => rfl
    | some seconds =>
      rw [List.getLast?_cons]
      rfl

/-- What a packet that is sent is to the heartbeat, if it was last looked at at this time. -/
def Packet.pulse? (time : Nat) (packet : Bytes) : Option Pulse :=
  match parse? packet with
  | some ⟨.connect, _, body⟩ =>
    (Field.word (body.drop 8)).toOption.map fun (seconds, _) => .announced seconds
  | some ⟨.pingReq, _, _⟩ => some (.asked time)
  | _ => none

/-- What an entry is to the heartbeat, if it was last looked at at this time.  Of the offers
of a packet only the first counts. -/
def Entry.pulse? (time : Nat) : Entry → Option Pulse
  | .dialled .. => some .dialled
  | .sent a => if a.opens then Packet.pulse? time a.whole else none
  | .raised (.disconnected .keepAliveTimeout) _ _ => some (.expired time)
  | e => (Config.keepAliveOf e.replaced).map .set

/-! ## The beats of a session -/

/-- How the heartbeat of a session stands. -/
structure Beats where
  /-- The setting when the session began. -/
  seconds : UInt16
  /-- The latest of its beginning and the answers. -/
  heard : Nat
  /-- The latest of these and the PINGREQs. -/
  last : Nat
  /-- The PINGREQs since `heard`. -/
  asked : Nat

namespace Beats

/-- The heartbeat of a session that begins. -/
def fresh (seconds : UInt16) (time : Nat) : Beats :=
  ⟨seconds, time, time, 0⟩

/-- An answer came. -/
def answer (b : Beats) (time : Nat) : Beats :=
  { b with heard := max b.heard time, last := max b.last time, asked := 0 }

/-- PINGREQ was offered. -/
def ask (b : Beats) (time : Nat) : Beats :=
  { b with last := max b.last time, asked := b.asked + 1 }

/-- Whether PINGREQ may be offered if one period is so many seconds. -/
def MayAsk (b : Beats) (seconds : UInt16) (time : Nat) : Prop :=
  b.asked < KeepAlive.limit.toNat ∧ b.last + seconds.toNat * 1000 ≤ time

/-- Whether the session may be held to be dead if one period is so many seconds. -/
def MayExpire (b : Beats) (seconds : UInt16) (time : Nat) : Prop :=
  b.asked = KeepAlive.limit.toNat ∧
    b.heard + (KeepAlive.limit.toNat + 1) * (seconds.toNat * 1000) ≤ time

end Beats

/-! ## Rhythms -/

/-- What pulses leave behind. -/
structure Rhythm where
  /-- The setting as it stands. -/
  setting : UInt16
  /-- The setting when the last attempt to connect began. -/
  due : UInt16
  /-- Whether the setting has been `due` ever since. -/
  steady : Bool := true
  /-- What the CONNECT of that attempt said. -/
  announced : Option UInt16 := none
  session : Option Beats := none

namespace Rhythm

/-- The rhythm of a client just made. -/
def fresh (seconds : UInt16) : Rhythm :=
  { setting := seconds, due := seconds }

/-- The rhythm after one more pulse. -/
def after (r : Rhythm) : Pulse → Rhythm
  | .set seconds => { r with setting := seconds, steady := r.steady && seconds == r.due }
  | .dialled => { setting := r.setting, due := r.setting }
  | .announced seconds => { r with announced := some seconds }
  | .opened time => { r with session := some (.fresh r.setting time) }
  | .answered time => { r with session := r.session.map (·.answer time) }
  | .asked time => { r with session := r.session.map (·.ask time) }
  | .expired _ => r

/-- The rhythm after pulses, of which the latest comes first. -/
def along (r : Rhythm) : List Pulse → Rhythm
  | [] => r
  | pulse :: earlier => (r.along earlier).after pulse

/-- Whether a pulse goes by the settings: CONNECT says what the setting was when the attempt
began, PINGREQs keep the period that was set when the session began, and there are none
while the setting is zero. -/
def Allows (r : Rhythm) : Pulse → Prop
  | .announced seconds => seconds = r.due
  | .opened _ => r.announced = some r.due
  | .asked time => r.setting ≠ 0 ∧ ∃ b, r.session = some b ∧ b.MayAsk b.seconds time
  | .expired time => r.setting ≠ 0 ∧ ∃ b, r.session = some b ∧ b.MayExpire b.seconds time
  | _ => True

/-- Whether a pulse goes by what CONNECT said. -/
def Honours (r : Rhythm) : Pulse → Prop
  | .asked time => ∃ seconds b, r.announced = some seconds ∧ seconds ≠ 0 ∧
      r.session = some b ∧ b.MayAsk seconds time
  | .expired time => ∃ seconds b, r.announced = some seconds ∧ seconds ≠ 0 ∧
      r.session = some b ∧ b.MayExpire seconds time
  | _ => True

/-- Whether every pulse of a run went by the settings. -/
def Lawful (r : Rhythm) : List Pulse → Prop
  | [] => True
  | pulse :: earlier => r.Lawful earlier ∧ (r.along earlier).Allows pulse

variable {r : Rhythm} {pulse : Pulse} {earlier pulses later : List Pulse}

theorem along_append (r : Rhythm) (later earlier : List Pulse) :
    r.along (later ++ earlier) = (r.along earlier).along later := by
  induction later with
  | nil => rfl
  | cons pulse later ih =>
    rw [List.cons_append, along, ih]
    rfl

theorem Lawful.append (first : r.Lawful earlier) (next : (r.along earlier).Lawful later) :
    r.Lawful (later ++ earlier) := by
  induction later with
  | nil => exact first
  | cons pulse later ih =>
    refine ⟨ih next.1, ?_⟩
    change (r.along (later ++ earlier)).Allows pulse
    rw [along_append]
    exact next.2

theorem Lawful.allows (lawful : r.Lawful pulses) (heard : pulse :: earlier <:+ pulses) :
    r.Lawful earlier ∧ (r.along earlier).Allows pulse := by
  obtain ⟨later, rfl⟩ := heard
  induction later with
  | nil => exact lawful
  | cons _ later ih => exact ih lawful.1

/-! ## While the setting stays -/

/-- Whether a session goes by what CONNECT said, if the setting stayed. -/
structure Sound (r : Rhythm) : Prop where
  setting : r.steady = true → r.setting = r.due
  session : ∀ b, r.session = some b →
    r.announced = some r.due ∧ (r.steady = true → b.seconds = r.due)

theorem Sound.fresh (seconds : UInt16) : (Rhythm.fresh seconds).Sound :=
  ⟨fun _ => rfl, fun b none => by cases none⟩

theorem Sound.after (h : r.Sound) (allowed : r.Allows pulse) : (r.after pulse).Sound := by
  cases pulse with
  | set seconds =>
    have stayed : (r.steady && seconds == r.due) = true → r.steady = true ∧ seconds = r.due :=
      fun both => (Bool.and_eq_true_iff.1 both).imp_right eq_of_beq
    exact ⟨fun both => (stayed both).2, fun b here =>
      (h.session b here).imp_right fun same both => same (stayed both).1⟩
  | dialled => exact ⟨fun _ => rfl, fun b none => by cases none⟩
  | announced seconds =>
    have same : seconds = r.due := allowed
    subst same
    exact ⟨h.setting, fun b here => ⟨rfl, (h.session b here).2⟩⟩
  | opened time =>
    refine ⟨h.setting, fun b here => ?_⟩
    cases here
    exact ⟨allowed, h.setting⟩
  | answered time =>
    refine ⟨h.setting, fun b here => ?_⟩
    obtain ⟨before, there, rfl⟩ := Option.map_eq_some_iff.1 here
    exact h.session before there
  | asked time =>
    refine ⟨h.setting, fun b here => ?_⟩
    obtain ⟨before, there, rfl⟩ := Option.map_eq_some_iff.1 here
    exact h.session before there
  | expired time => exact h

theorem Lawful.sound (lawful : r.Lawful pulses) (h : r.Sound) : (r.along pulses).Sound := by
  induction pulses with
  | nil => exact h
  | cons pulse earlier ih => exact (ih lawful.1).after lawful.2

/-- While the setting stays what it was, to go by the settings is to go by what CONNECT said. -/
theorem Sound.honours (h : r.Sound) (steady : r.steady = true) (allowed : r.Allows pulse) :
    r.Honours pulse := by
  have setting := h.setting steady
  cases pulse with
  | asked time =>
    obtain ⟨some, b, here, may⟩ := allowed
    obtain ⟨announced, seconds⟩ := h.session b here
    rw [seconds steady] at may
    exact ⟨r.due, b, announced, setting ▸ some, here, may⟩
  | expired time =>
    obtain ⟨some, b, here, may⟩ := allowed
    obtain ⟨announced, seconds⟩ := h.session b here
    rw [seconds steady] at may
    exact ⟨r.due, b, announced, setting ▸ some, here, may⟩
  | _ => trivial

/-- Each pulse of a lawful run goes by the settings, and by what CONNECT said if the setting
stayed. -/
theorem Lawful.honours {seconds : UInt16} (lawful : (fresh seconds).Lawful pulses)
    (heard : pulse :: earlier <:+ pulses) :
    ((fresh seconds).along earlier).Allows pulse ∧
      (((fresh seconds).along earlier).steady = true →
        ((fresh seconds).along earlier).Honours pulse) := by
  obtain ⟨before, allowed⟩ := lawful.allows heard
  exact ⟨allowed, fun steady => (before.sound (.fresh seconds)).honours steady allowed⟩

end Rhythm

/-! ## What packets and entries are to the heartbeat -/

theorem Packet.IsInner.pulse? {packet : Bytes} (inner : IsInner packet) (time : Nat) :
    Packet.pulse? time packet = none := by
  obtain ⟨⟨kind, flags, body⟩, whole, free⟩ := inner
  rw [Packet.pulse?, whole]
  cases kind <;> first
    | rfl
    | exact absurd (by simp [Kind.steering]) free

theorem Packet.Connect.pulse?_put {c : Connect} {packet : Bytes}
    (written : encode c.put = .ok packet) (time : Nat) :
    Packet.pulse? time packet = some (.announced c.keepAlive) := by
  obtain ⟨body, whole, rest, word⟩ := read_put written
  rw [Packet.pulse?, whole]
  change (Field.word (body.drop 8)).toOption.map _ = _
  rw [word]
  rfl

theorem Entry.IsRemark.pulse? {e : Entry} (h : e.IsRemark) (time : Nat) :
    e.pulse? time = (Config.keepAliveOf e.replaced).map .set := by
  cases e <;> first
    | rfl
    | exact absurd h id

theorem Entry.pulse?_raised {event : Event} (inner : ¬ event.IsTurning) (c : Client)
    (delivered : Bool) (time : Nat) : (Entry.raised event c delivered).pulse? time = none := by
  cases event <;> first
    | rfl
    | exact absurd trivial inner

end Mqtt
