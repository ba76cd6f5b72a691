import Mathlib.Algebra.Group.Nat.Defs
import Mqtt.Timer

/-!
# Timers and time

A clock shows a time by its low 32 bits.  What a timer measures is the time since it began, less
what the clock lost by its wraps, so it shows too little at most, and within 2 ^ 32 milliseconds
of its beginning it shows the time as it is, wherever the clock wraps meanwhile (`Timer.Tells`).
-/

namespace Mqtt.Timer

variable {t : Timer} {began time : Nat}

theorem toNat_elapsed (start : t.start = .ofNat began) (later : began ≤ time) :
    (t.elapsed (.ofNat time)).toNat = (time - began) % 2 ^ 32 := by
  rw [elapsed, start, UInt32.toNat_sub, UInt32.toNat_ofNat', UInt32.toNat_ofNat']
  omega

theorem expired_iff_toNat {now : UInt32} :
    t.expired now = true ↔ t.period.toNat ≤ (t.elapsed now).toNat := by
  rw [expired, decide_eq_true_iff, UInt32.le_iff_toNat_le]

/-- A countdown is over only when its period has passed since it began. -/
theorem period_le_of_expired (start : t.start = .ofNat began) (later : began ≤ time)
    (expired : t.expired (.ofNat time) = true) : began + t.period.toNat ≤ time := by
  have shown := expired_iff_toNat.1 expired
  rw [toNat_elapsed start later] at shown
  omega

/-- Within one round of the clock, a countdown is over when its period has passed. -/
theorem expired_of_period_le (start : t.start = .ofNat began) (soon : time < began + 2 ^ 32)
    (passed : began + t.period.toNat ≤ time) : t.expired (.ofNat time) = true := by
  rw [expired_iff_toNat, toNat_elapsed start (by omega)]
  omega

/-- The time left is the period less the time that a timer measured, or nothing. -/
theorem toNat_remaining (t : Timer) (now : UInt32) :
    (t.remaining now).toNat = t.period.toNat - (t.elapsed now).toNat := by
  unfold remaining
  split
  next ended =>
    have passed := expired_iff_toNat.1 ended
    change 0 = _
    omega
  next running =>
    rw [expired_iff_toNat] at running
    apply UInt32.toNat_sub_of_le
    rw [UInt32.le_iff_toNat_le]
    omega

/-! ## Across the wrap -/

/-- What the clock shows `passed` milliseconds after it showed `start`. -/
def readingAfter (start : UInt32) (passed : Nat) : UInt32 :=
  .ofNat (start.toNat + passed)

/-- Whether a timer tells the truth about a period that began when the clock showed `start`,
`passed` milliseconds later. -/
structure Tells (t : Timer) (start period : UInt32) (passed : Nat) : Prop where
  elapsed : (t.elapsed (readingAfter start passed)).toNat = passed
  expired : t.expired (readingAfter start passed) = true ↔ period.toNat ≤ passed
  remaining : (t.remaining (readingAfter start passed)).toNat = period.toNat - passed
  ended : t.expired (readingAfter start passed) = true ↔
    t.remaining (readingAfter start passed) = 0

theorem tells (t : Timer) {passed : Nat} (round : passed < 2 ^ 32) :
    t.Tells t.start t.period passed := by
  have start : t.start = .ofNat t.start.toNat := UInt32.ofNat_toNat.symm
  have elapsed : (t.elapsed (readingAfter t.start passed)).toNat = passed := by
    rw [readingAfter, toNat_elapsed start (Nat.le_add_right _ _)]
    omega
  have expired : t.expired (readingAfter t.start passed) = true ↔ t.period.toNat ≤ passed := by
    rw [expired_iff_toNat, elapsed]
  have remaining : (t.remaining (readingAfter t.start passed)).toNat =
      t.period.toNat - passed := by
    rw [toNat_remaining, elapsed]
  refine ⟨elapsed, expired, remaining, ?_⟩
  rw [expired, ← UInt32.toNat_inj, remaining]
  change _ ↔ _ = 0
  omega

/-- **Timers across the wrap.**  Within one round of the clock since it began, a timer shows the
time that passed, is over exactly when its period has passed, and has the rest of its period left,
which is nothing exactly when it is over; so once over it stays over.  Begun anew at any reading,
with the same period or another, it tells the same of its new beginning. -/
theorem exact_across_wrap (t : Timer) {passed : Nat} (round : passed < 2 ^ 32) :
    t.Tells t.start t.period passed ∧
      (∀ earlier ≤ passed, t.expired (readingAfter t.start earlier) = true →
        t.expired (readingAfter t.start passed) = true) ∧
      (∀ now, (t.restart now).Tells now t.period passed) ∧
      ∀ now period, (t.countdown now period).Tells now period passed := by
  refine ⟨t.tells round, ?_, fun now => (t.restart now).tells round,
    fun now period => (t.countdown now period).tells round⟩
  intro earlier order ended
  have due := (t.tells (Nat.lt_of_le_of_lt order round)).expired.1 ended
  rw [(t.tells round).expired]
  omega

/-- A countdown of 300 milliseconds that begins 101 before the wrap has 149 left when the clock
shows 50.  One of 2 ^ 32 - 1 milliseconds that begins then is over when the clock shows 49 again,
and not one millisecond earlier. -/
theorem exact_across_wrap_wrapped :
    ((⟨4294967195, 300⟩ : Timer).elapsed 50).toNat = 151 ∧
      ((⟨4294967195, 300⟩ : Timer).remaining 50).toNat = 149 ∧
      ((⟨4294967195, 300⟩ : Timer).countdown 50 4294967295).expired 49 = true ∧
      ¬ ((⟨4294967195, 300⟩ : Timer).countdown 50 4294967295).expired 48 = true := by
  obtain ⟨first, -⟩ := exact_across_wrap ⟨4294967195, 300⟩ (by decide : 151 < 2 ^ 32)
  obtain ⟨-, -, -, last⟩ := exact_across_wrap ⟨4294967195, 300⟩ (by decide : 4294967295 < 2 ^ 32)
  obtain ⟨-, -, -, short⟩ := exact_across_wrap ⟨4294967195, 300⟩ (by decide : 4294967294 < 2 ^ 32)
  have early : ¬ 4294967295 ≤ 4294967294 := by decide
  exact ⟨first.elapsed, first.remaining, (last 50 4294967295).expired.2 (Nat.le_refl _),
    fun ended => early ((short 50 4294967295).expired.1 ended)⟩

end Mqtt.Timer
