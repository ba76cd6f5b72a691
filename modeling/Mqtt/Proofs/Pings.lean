import Mathlib.Data.Option.Basic
import Mqtt.KeepAlive
import Mqtt.Proofs.Timers

/-!
# The heartbeat over time

A history is whatever was done with one heartbeat, at times that never go back and of which the
clock shows the low 32 bits (`KeepAlive.History`).  What a heartbeat will ask for next can be read
off its history: when it was restarted last, how often it asked since it was last revived, and
how long its period is (`History.Agrees`).  A look restarts it only by PINGREQ, but an answer
restarts it too, and so an answer that comes late puts the next PINGREQ off.
-/

namespace Mqtt.KeepAlive

/-! ## Histories -/

/-- Something done with a heartbeat, at a time in milliseconds that does not wrap. -/
inductive Deed where
  /-- A session began. -/
  | reset (time : Nat) (period : UInt32)
  /-- An answer came. -/
  | pong (time : Nat)
  /-- The heartbeat was looked at, and asked for something. -/
  | poll (time : Nat) (beat : Beat)
  deriving DecidableEq

namespace Deed

def time : Deed → Nat
  | reset time _ | pong time | poll time _ => time

/-- Whether the PINGREQs are counted anew from here. -/
def revives : Deed → Bool
  | reset .. | pong _ => true
  | poll .. => false

/-- Whether the period runs anew from here. -/
def restarts : Deed → Bool
  | reset .. | pong _ => true
  | poll _ beat => beat = .ping

/-- Whether the next PINGREQ is waited for from here. -/
def waits : Deed → Bool
  | reset .. => true
  | pong _ => false
  | poll _ beat => beat = .ping

/-- Whether the next look is waited for from here. -/
def looks : Deed → Bool
  | reset .. | poll .. => true
  | pong _ => false

def period? : Deed → Option UInt32
  | reset _ period => some period
  | _ => none

theorem looks_of_waits {d : Deed} (waits : d.waits = true) : d.looks = true := by
  cases d with
  | reset => rfl
  | pong => cases waits
  | poll => rfl

theorem restarts_of_waits {d : Deed} (waits : d.waits = true) : d.restarts = true := by
  cases d with
  | reset => rfl
  | pong => cases waits
  | poll => exact waits

end Deed

/-- What was done with a heartbeat, the latest first, and how it stands after that. -/
inductive History : List Deed → KeepAlive → Prop
  | made : History [] {}
  | reset {past : List Deed} {k : KeepAlive} (time : Nat) (period : UInt32) (run : History past k)
    (onward : ∀ d ∈ past, d.time ≤ time) :
    History (.reset time period :: past) (.fresh (.ofNat time) period)
  | pong {past : List Deed} {k : KeepAlive} (time : Nat) (run : History past k)
    (onward : ∀ d ∈ past, d.time ≤ time) :
    History (.pong time :: past) (k.pong (.ofNat time))
  | poll {past : List Deed} {k k' : KeepAlive} {beat : Beat} (time : Nat) (run : History past k)
    (onward : ∀ d ∈ past, d.time ≤ time) (came : k.poll (.ofNat time) = (beat, k')) :
    History (.poll time beat :: past) k'

/-- When the period began to run last: at the latest reset, answer or PINGREQ. -/
def restarted? (past : List Deed) : Option Nat :=
  (past.find? Deed.restarts).map Deed.time

/-- When the PINGREQs were last counted anew: at the latest reset or answer. -/
def revived? (past : List Deed) : Option Nat :=
  (past.find? Deed.revives).map Deed.time

/-- How many PINGREQs were asked for since. -/
def asked (past : List Deed) : Nat :=
  (past.takeWhile fun d => !d.revives).countP Deed.restarts

/-- The period of the latest reset; a heartbeat just made has none. -/
def periodOf (past : List Deed) : Nat :=
  ((past.findSome? Deed.period?).getD 0).toNat

/-- Whether the period has passed at a time. -/
def Due (past : List Deed) (time : Nat) : Prop :=
  ∀ began ∈ restarted? past, began + periodOf past ≤ time

/-! ## What a look can come to -/

variable {past : List Deed} {k k' : KeepAlive} {beat : Beat} {time began gap : Nat}

theorem poll_cases (k : KeepAlive) (now : UInt32) :
    k.timer.expired now = false ∧ k.poll now = (.quiet, k) ∨
      k.timer.expired now = true ∧
        (limit ≤ k.missed ∧ k.poll now = (.dead, k) ∨
          k.missed < limit ∧ k.poll now = (.ping, ⟨k.timer.restart now, k.missed + 1⟩)) := by
  unfold poll
  cases expired : k.timer.expired now with
  | false => exact Or.inl ⟨rfl, rfl⟩
  | true =>
    by_cases full : limit ≤ k.missed
    · exact Or.inr ⟨rfl, Or.inl ⟨full, if_pos full⟩⟩
    · exact Or.inr ⟨rfl, Or.inr ⟨UInt8.not_le.1 full, if_neg full⟩⟩

/-- The count of PINGREQs does not wrap. -/
theorem toNat_missed_succ (few : k.missed < limit) : (k.missed + 1).toNat = k.missed.toNat + 1 := by
  have small : k.missed.toNat < 5 := UInt8.lt_iff_toNat_lt.1 few
  rw [UInt8.toNat_add]
  exact Nat.mod_eq_of_lt (by change k.missed.toNat + 1 < 256; omega)

theorem asked_ping (past : List Deed) (time : Nat) :
    asked (.poll time .ping :: past) = asked past + 1 := by
  simp [asked, Deed.revives, Deed.restarts]

theorem exists_of_mem {p : Deed → Bool} {d : Deed} (member : d ∈ past) (has : p d = true) :
    ∃ time, time ∈ (past.find? p).map Deed.time := by
  obtain ⟨first, found⟩ := Option.isSome_iff_exists.1 (List.find?_isSome.2 ⟨d, member, has⟩)
  exact ⟨first.time, congrArg (Option.map Deed.time) found⟩

theorem le_of_find? {p : Deed → Bool} (onward : ∀ d ∈ past, d.time ≤ time)
    (last : began ∈ (past.find? p).map Deed.time) : began ≤ time := by
  obtain ⟨d, found, rfl⟩ := Option.map_eq_some_iff.1 last
  exact onward d (List.mem_of_find?_eq_some found)

/-- There is a period to wait for only since a reset. -/
theorem exists_of_periodOf (p : Deed → Bool) (resets : ∀ time period, p (.reset time period) = true)
    (some : 0 < periodOf past) : ∃ time, time ∈ (past.find? p).map Deed.time := by
  cases set : past.findSome? Deed.period? with
  | some period =>
    obtain ⟨d, member, has⟩ := List.exists_of_findSome?_eq_some set
    cases d with
    | reset => exact exists_of_mem member (resets _ _)
    | pong => cases has
    | poll => cases has
  | none =>
    rw [periodOf, set] at some
    exact absurd some (Nat.lt_irrefl 0)

namespace History

/-! ## How a heartbeat stands by its history -/

/-- Whether the state of a heartbeat is what its history makes it. -/
structure Agrees (past : List Deed) (k : KeepAlive) : Prop where
  start : ∀ began ∈ restarted? past, k.timer.start = .ofNat began
  period : k.timer.period.toNat = periodOf past
  missed : k.missed.toNat = asked past
  few : asked past ≤ 5
  /-- Each PINGREQ came a period after what was before it. -/
  spaced : ∀ heard ∈ revived? past, ∃ began ∈ restarted? past,
    heard + asked past * periodOf past ≤ began

theorem Agrees.due (h : Agrees past k) (onward : ∀ d ∈ past, d.time ≤ time)
    (expired : k.timer.expired (.ofNat time) = true) : Due past time := by
  intro began last
  rw [← h.period]
  exact Timer.period_le_of_expired (h.start began last) (le_of_find? onward last) expired

theorem Agrees.expired (h : Agrees past k)
    (soon : 0 < periodOf past → ∀ began ∈ restarted? past, time < began + 2 ^ 32)
    (due : Due past time) : k.timer.expired (.ofNat time) = true := by
  rcases Nat.eq_zero_or_pos (periodOf past) with unset | some
  · rw [Timer.expired_iff_toNat, h.period, unset]
    exact Nat.zero_le _
  · obtain ⟨began, last⟩ := exists_of_periodOf Deed.restarts (fun _ _ => rfl) some
    have passed := due began last
    rw [← h.period] at passed
    exact Timer.expired_of_period_le (h.start began last) (soon some began last) passed

theorem agrees (h : History past k) : Agrees past k := by
  induction h with
  | made => exact ⟨nofun, rfl, rfl, Nat.zero_le _, nofun⟩
  | reset time period run onward ih =>
    exact ⟨fun began last => by cases last; rfl, rfl, rfl, Nat.zero_le _,
      fun heard last => by cases last; exact ⟨time, rfl, by simp [asked, Deed.revives, Deed.time]⟩⟩
  | pong time run onward ih =>
    exact ⟨fun began last => by cases last; rfl, ih.period, rfl, Nat.zero_le _,
      fun heard last => by cases last; exact ⟨time, rfl, by simp [asked, Deed.revives, Deed.time]⟩⟩
  | @poll past k k' beat time run onward polled ih =>
    obtain ⟨expired, came⟩ | ⟨expired, ⟨full, came⟩ | ⟨few, came⟩⟩ := k.poll_cases (.ofNat time)
    · rw [came] at polled
      cases polled
      exact ⟨ih.start, ih.period, ih.missed, ih.few, ih.spaced⟩
    · rw [came] at polled
      cases polled
      exact ⟨ih.start, ih.period, ih.missed, ih.few, ih.spaced⟩
    · rw [came] at polled
      cases polled
      have due := ih.due onward expired
      refine ⟨fun began last => by cases last; rfl, ih.period, ?_, ?_, fun heard last => ?_⟩
      · rw [asked_ping, ← ih.missed]
        exact toNat_missed_succ few
      · rw [asked_ping, ← ih.missed]
        exact UInt8.lt_iff_toNat_lt.1 few
      · obtain ⟨began, before, spaced⟩ := ih.spaced heard last
        have passed := due began before
        refine ⟨time, rfl, ?_⟩
        rw [asked_ping, Nat.succ_mul]
        change heard + (asked past * periodOf past + periodOf past) ≤ time
        omega

/-- **The books of a heartbeat.**  Whatever was done with it, no more than five PINGREQs are
counted as unanswered, and the octet that counts them holds their true number and does not wrap
at the next.  A look holds the session to be dead only when five PINGREQs were asked for
and six periods have passed since the heartbeat was last revived, and changes nothing then.
Within one round of the clock since the last restart, it asks for PINGREQ if and only if the
period has passed and fewer than five were asked for, and holds the session to be dead if and only
if the period has passed and five were. -/
theorem poll_law (h : History past k) :
    k.missed ≤ 5 ∧ k.missed.toNat = asked past ∧
    ∀ time, (∀ d ∈ past, d.time ≤ time) →
      ((k.poll (.ofNat time)).1 = .ping →
        (k.poll (.ofNat time)).2.missed.toNat = k.missed.toNat + 1) ∧
      ((k.poll (.ofNat time)).1 = .dead → (k.poll (.ofNat time)).2 = k ∧
        ∀ heard ∈ revived? past, heard + 6 * periodOf past ≤ time) ∧
      ((∀ began ∈ restarted? past, time < began + 2 ^ 32) →
        ((k.poll (.ofNat time)).1 = .ping ↔ Due past time ∧ asked past < 5) ∧
        ((k.poll (.ofNat time)).1 = .dead ↔ Due past time ∧ asked past = 5)) := by
  have agrees := h.agrees
  have few := agrees.few
  have counted : k.missed ≤ 5 := UInt8.le_iff_toNat_le.2 (agrees.missed ▸ few)
  refine ⟨counted, agrees.missed, fun time onward => ?_⟩
  obtain ⟨expired, came⟩ | ⟨expired, looked⟩ := k.poll_cases (.ofNat time)
  · rw [came]
    refine ⟨nofun, nofun, fun soon => ?_⟩
    have early : ¬ Due past time := fun due => by
      rw [agrees.expired (fun _ => soon) due] at expired
      cases expired
    exact ⟨⟨nofun, fun due => absurd due.1 early⟩, ⟨nofun, fun due => absurd due.1 early⟩⟩
  · have due := agrees.due onward expired
    obtain ⟨full, came⟩ | ⟨room, came⟩ := looked
    · have full : 5 ≤ asked past := agrees.missed ▸ UInt8.le_iff_toNat_le.1 full
      have all : asked past = 5 := Nat.le_antisymm few full
      rw [came]
      refine ⟨nofun, fun _ => ⟨rfl, fun heard last => ?_⟩, fun _ => ⟨⟨nofun, fun less => ?_⟩, ?_⟩⟩
      · obtain ⟨began, before, spaced⟩ := agrees.spaced heard last
        have passed := due began before
        rw [all] at spaced
        omega
      · exact absurd less.2 (Nat.not_lt.2 full)
      · exact ⟨fun _ => ⟨due, all⟩, fun _ => rfl⟩
    · have few : asked past < 5 := agrees.missed ▸ UInt8.lt_iff_toNat_lt.1 room
      rw [came]
      refine ⟨fun _ => toNat_missed_succ room, nofun,
        fun _ => ⟨⟨fun _ => ⟨due, few⟩, fun _ => rfl⟩, ⟨nofun, fun equal => ?_⟩⟩⟩
      exact absurd equal.2 (Nat.ne_of_lt few)

/-- A heartbeat whose clock wraps while five PINGREQs go without an answer. -/
def unanswered : List Deed :=
  [.poll 4294967500 .ping, .poll 4294967400 .ping, .poll 4294967300 .ping, .poll 4294967200 .ping,
    .poll 4294967150 .quiet, .poll 4294967100 .ping, .reset 4294967000 100]

theorem of_unanswered : History unanswered ⟨⟨204, 100⟩, 5⟩ := by
  have began : History [.reset 4294967000 100] (.fresh (.ofNat 4294967000) 100) :=
    .reset _ _ .made (by decide)
  have first := began.poll 4294967100 (by decide) rfl
  have second := (first.poll 4294967150 (by decide) rfl).poll 4294967200 (by decide) rfl
  have third := second.poll 4294967300 (by decide) rfl
  exact (third.poll 4294967400 (by decide) rfl).poll 4294967500 (by decide) rfl

/-- The look after the fifth PINGREQ holds the session to be dead once the period has passed, six
periods after the session began, and not a millisecond earlier. -/
theorem poll_law_unanswered :
    let k : KeepAlive := ⟨⟨204, 100⟩, 5⟩
    (k.poll (.ofNat 4294967600)).1 = .dead ∧ (k.poll (.ofNat 4294967599)).1 ≠ .dead ∧
      4294967000 + 6 * 100 ≤ 4294967600 := by
  intro k
  obtain ⟨-, -, looked⟩ := of_unanswered.poll_law
  obtain ⟨-, late, due⟩ := looked 4294967600 (by decide)
  have dead := (due (by decide)).2.2 ⟨by unfold Due; decide, by decide⟩
  refine ⟨dead, fun early => ?_, (late dead).2 4294967000 rfl⟩
  have passed := ((looked 4294967599 (by decide)).2.1 early).2 4294967000 rfl
  revert passed
  decide

end History

/-! ## How far apart PINGREQs are -/

/-- When a heartbeat was last looked at, or began. -/
def looked? (past : List Deed) : Option Nat :=
  (past.find? Deed.looks).map Deed.time

/-- Whether since the latest reset each look came no more than `gap` after the one before it, and
none held the session to be dead. -/
def Paced (gap : Nat) : List Deed → Prop
  | [] | .reset .. :: _ => True
  | .pong _ :: past => Paced gap past
  | .poll time beat :: past =>
    (∀ before ∈ looked? past, time ≤ before + gap) ∧ beat ≠ .dead ∧ Paced gap past

namespace History

/-- While a history is paced, a look that asked for nothing came before the period was over. -/
theorem looked_early (h : History past k) (paced : Paced gap past)
    (fits : periodOf past + gap ≤ 2 ^ 32) :
    ∀ began ∈ restarted? past, ∀ before ∈ looked? past,
      before ≤ began ∨ before < began + periodOf past := by
  induction h with
  | made => exact nofun
  | reset time period run onward ih =>
    intro began last before look
    cases last
    cases look
    exact Or.inl (Nat.le_refl _)
  | pong time run onward ih =>
    intro began last before look
    cases last
    exact Or.inl (le_of_find? onward look)
  | @poll past k k' beat time run onward polled ih =>
    obtain ⟨soon, alive, paced⟩ := paced
    intro began last before look
    cases look
    obtain ⟨running, came⟩ | ⟨-, ⟨-, came⟩ | ⟨-, came⟩⟩ := k.poll_cases (.ofNat time)
    · rw [came] at polled
      cases polled
      change began ∈ restarted? past at last
      refine or_iff_not_imp_right.2 fun passed => absurd running ?_
      rw [Bool.not_eq_false]
      refine run.agrees.expired (fun some began' last' => ?_) fun began' last' => ?_
      · obtain ⟨before, look⟩ := exists_of_periodOf Deed.looks (fun _ _ => rfl) some
        have early := ih paced fits began' last' before look
        have close := soon before look
        change periodOf past + gap ≤ 2 ^ 32 at fits
        omega
      · cases last.symm.trans last'
        exact Nat.le_of_not_lt passed
    · rw [came] at polled
      cases polled
      exact absurd rfl alive
    · rw [came] at polled
      cases polled
      cases last
      exact Or.inl (Nat.le_refl _)

/-- **PINGREQs in time.**  In a session in which each look comes no more than `gap` after the one
before it, the first after the beginning, and none has held the session to be dead, the next
PINGREQ after the beginning or after a PINGREQ is no later than the period and `gap`, if no answer
comes in between; an answer puts it off by no more than the time until it came.  The period and
`gap` have to fit in one round of the clock. -/
theorem ping_in_time {between before : List Deed} {mark : Deed} {delay : Nat}
    (h : History (.poll time beat :: (between ++ mark :: before)) k)
    (paced : Paced gap (.poll time beat :: (between ++ mark :: before)))
    (waits : mark.waits = true)
    (delayed : ∀ d ∈ between, d.restarts = true → d.time ≤ mark.time + delay)
    (fits : periodOf (between ++ mark :: before) + gap ≤ 2 ^ 32) :
    time ≤ mark.time + delay + (periodOf (between ++ mark :: before) + gap) := by
  obtain ⟨soon, -, paced⟩ := paced
  have member : mark ∈ between ++ mark :: before := List.mem_append_right _ List.mem_cons_self
  obtain ⟨last, look⟩ := exists_of_mem (p := Deed.looks) member (Deed.looks_of_waits waits)
  obtain ⟨began, restart, inTime⟩ : ∃ began ∈ restarted? (between ++ mark :: before),
      began ≤ mark.time + delay := by
    unfold restarted?
    rw [List.find?_append]
    cases found : between.find? Deed.restarts with
    | some d =>
      exact ⟨d.time, rfl, delayed d (List.mem_of_find?_eq_some found) (List.find?_some found)⟩
    | none =>
      rw [List.find?_cons_of_pos (Deed.restarts_of_waits waits)]
      exact ⟨mark.time, rfl, Nat.le_add_right _ _⟩
  cases h with
  | poll _ run =>
    have early := run.looked_early paced fits began restart last look
    have close := soon last look
    omega

/-- An answer that comes 900 milliseconds after the PINGREQ. -/
def answeredLate : List Deed :=
  [.poll 3800 .ping, .poll 2800 .quiet, .poll 1900 .quiet, .pong 1900, .poll 1000 .ping,
    .reset 0 1000]

theorem of_answeredLate : History answeredLate ⟨⟨3800, 1000⟩, 1⟩ := by
  have began : History [.reset 0 1000] (.fresh (.ofNat 0) 1000) := .reset 0 1000 .made (by decide)
  have answered := (began.poll 1000 (by decide) rfl).pong 1900 (by decide)
  have waited := (answered.poll 1900 (by decide) rfl).poll 2800 (by decide) rfl
  exact waited.poll 3800 (by decide) rfl

theorem ping_in_time_answered :
    History answeredLate ⟨⟨3800, 1000⟩, 1⟩ ∧ Paced 1000 answeredLate ∧
      3800 ≤ 1000 + 900 + (periodOf answeredLate + 1000) := by
  have run : History (.poll 3800 .ping ::
      ([.poll 2800 .quiet, .poll 1900 .quiet, .pong 1900] ++ .poll 1000 .ping :: [.reset 0 1000])) _ :=
    of_answeredLate
  have paced : Paced 1000 answeredLate := by
    simp [answeredLate, Paced, looked?, Deed.looks, Deed.time]
  have delayed : ∀ d ∈ ([.poll 2800 .quiet, .poll 1900 .quiet, .pong 1900] : List Deed),
      d.restarts = true → d.time ≤ (Deed.poll 1000 .ping).time + 900 := by decide
  exact ⟨run, paced, run.ping_in_time paced rfl delayed (by decide)⟩

/-- A clock that has gone once round before the next look. -/
def rounded : List Deed :=
  [.poll 8589934591 .ping, .poll 6442450944 .quiet, .poll 4294967296 .quiet,
    .poll 2147483648 .quiet, .reset 0 4294967295]

theorem of_rounded : History rounded ⟨⟨4294967295, 4294967295⟩, 1⟩ := by
  have began : History [.reset 0 4294967295] (.fresh (.ofNat 0) 4294967295) :=
    .reset 0 _ .made (by decide)
  have waited := (began.poll 2147483648 (by decide) rfl).poll 4294967296 (by decide) rfl
  exact (waited.poll 6442450944 (by decide) rfl).poll 8589934591 (by decide) rfl

/-- The period and `gap` alone do not bound the time to the next PINGREQ: not if an answer comes in
between, and not if they do not fit in one round of the clock. -/
theorem pings_put_off :
    (¬ ∀ (gap time : Nat) (between before : List Deed) (mark : Deed) (k : KeepAlive),
      History (.poll time .ping :: (between ++ mark :: before)) k →
      Paced gap (.poll time .ping :: (between ++ mark :: before)) →
      mark.waits = true → (∀ d ∈ between, d.waits = false) →
      periodOf (between ++ mark :: before) + gap ≤ 2 ^ 32 →
      time ≤ mark.time + (periodOf (between ++ mark :: before) + gap)) ∧
    ¬ ∀ (gap time : Nat) (between before : List Deed) (mark : Deed) (k : KeepAlive),
      History (.poll time .ping :: (between ++ mark :: before)) k →
      Paced gap (.poll time .ping :: (between ++ mark :: before)) →
      mark.waits = true → (∀ d ∈ between, d.waits = false ∧ d.restarts = false) →
      time ≤ mark.time + (periodOf (between ++ mark :: before) + gap) := by
  constructor
  · intro claimed
    have inTime := claimed 1000 3800 [.poll 2800 .quiet, .poll 1900 .quiet, .pong 1900]
      [.reset 0 1000] (.poll 1000 .ping) _ of_answeredLate
      (by simp [Paced, looked?, Deed.looks, Deed.time]) rfl (by decide) (by decide)
    revert inTime
    decide
  · intro claimed
    have inTime := claimed 2147483648 8589934591
      [.poll 6442450944 .quiet, .poll 4294967296 .quiet, .poll 2147483648 .quiet] []
      (.reset 0 4294967295) _ of_rounded
      (by simp [Paced, looked?, Deed.looks, Deed.time]) rfl (by decide)
    revert inTime
    decide

end History

end Mqtt.KeepAlive
