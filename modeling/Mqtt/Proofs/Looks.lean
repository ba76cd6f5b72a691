import Mqtt.Proofs.Lineup
import Mqtt.Proofs.Staging
import Mqtt.Proofs.Timers

/-!
# Looking after transactions

A look gives up the requests that are overdue and asks for something to be done about all that
is due.  What it comes to is said at a stroke (`Pending.scan_eq`), and it is what a walk through
the list comes to that takes out and changes transactions as it goes (`Pending.walk`).

Looks that follow one another come to a course of its own for each transaction
(`Transaction.Course`): it is sent again so often and no more, and never before its time unless
by force.  Clocks wrap, so the times of the looks are given by a count that does not.
-/

namespace Mqtt

/-! ## One look -/

theorem AckKind.isPublish_iff (kind : AckKind) :
    kind.isPublish = true ↔ kind = .pubAck ∨ kind = .pubRec := by
  cases kind <;> decide

namespace Transaction

/-- Whether a look at `now` gives a transaction up. -/
def lapses (now : UInt32) (t : Transaction) : Bool :=
  t.awaits.isRequest && t.timer.expired now

/-- A transaction as it goes on once something was done about it at `now`. -/
def tended (now limit : UInt32) (t : Transaction) : Transaction :=
  { t with
    retries := if t.retries < limit then t.retries + 1 else t.retries
    timer := { t.timer with start := now }
    packet := if t.awaits = .pubAck ∨ t.awaits = .pubRec then t.packet.markDup else t.packet }

/-- What is to be done about a transaction that is due at `now`. -/
def remedy (now limit : UInt32) (t : Transaction) : Action :=
  if t.awaits.isRequest then .expire t
  else if t.retries < limit then
    .resend t.awaits t.packetId (t.retries + 1) (t.tended now limit).packet.bytes
  else .warn t.awaits t.packetId t.retries

variable {now limit : UInt32} {force : Bool} {t u : Transaction}

theorem tended_eq (now limit : UInt32) (t : Transaction) :
    t.tended now limit =
      { t.again now with retries := if t.retries < limit then t.retries + 1 else t.retries } := by
  unfold tended again Timer.restart
  simp only [AckKind.isPublish_iff]

theorem lapses_eq (now : UInt32) (force : Bool) (t : Transaction) :
    t.lapses now = (t.isDue now force && t.awaits.isRequest) := by
  unfold lapses isDue
  cases t.awaits.isRequest <;> cases t.timer.expired now <;> cases force <;> rfl

theorem lapses_of_not_due (idle : t.isDue now force = false) : t.lapses now = false := by
  rw [lapses_eq now force, idle, Bool.false_and]

theorem lapses_of_lasting (lasting : t.awaits.isRequest = false) : t.lapses now = false := by
  unfold lapses
  rw [lasting, Bool.false_and]

theorem lapses_of_request (request : t.awaits.isRequest = true) (due : t.isDue now force = true) :
    t.lapses now = true := by
  rw [lapses_eq now force, due, request, Bool.and_self]

/-- A look at a transaction that is not due does nothing, and any other does what is to be
done. -/
theorem look_eq (now limit : UInt32) (force : Bool) (t : Transaction) :
    t.look now limit force =
      (if t.lapses now then none else some (if t.isDue now force then t.tended now limit else t),
        if t.isDue now force then some (t.remedy now limit) else none) := by
  cases due : t.isDue now force with
  | false =>
    rw [look_of_not_due due, lapses_of_not_due due]
    rfl
  | true =>
    unfold look remedy
    rw [due]
    cases request : t.awaits.isRequest with
    | true =>
      rw [lapses_of_request request due]
      rfl
    | false =>
      rw [lapses_of_lasting request, tended_eq]
      by_cases fresh : t.retries < limit
      · have few : ¬ limit ≤ (t.again now).retries := UInt32.not_le.2 fresh
        simp only [if_neg few, if_pos fresh]
        rfl
      · have tired : limit ≤ (t.again now).retries := UInt32.not_lt.1 fresh
        simp only [if_pos tired, if_neg fresh]
        rfl

end Transaction

/-! ## All looks at once and one by one -/

namespace Pending

open Transaction

variable {now limit : UInt32} {force : Bool}

theorem looks_eq (now limit : UInt32) (force : Bool) (ts : List Transaction) :
    ts.filterMap (fun t => (t.look now limit force).2) =
        (ts.filter (isDue now force)).map (remedy now limit) ∧
      ts.filterMap (fun t => (t.look now limit force).1) =
        (ts.filter fun t => !t.lapses now).map fun t =>
          if t.isDue now force then t.tended now limit else t := by
  induction ts with
  | nil => exact ⟨rfl, rfl⟩
  | cons t ts ih =>
    obtain ⟨asked, kept⟩ := ih
    rw [List.filterMap_cons, List.filterMap_cons, look_eq, asked, kept]
    constructor
    · cases due : t.isDue now force <;> simp [due]
    · cases lapses : t.lapses now <;> simp [lapses]

/-- A scan takes out the requests that are overdue, keeps all others where they are, and asks in
their order for what is to be done about each that is due. -/
theorem scan_eq (p : Pending) (now limit : UInt32) (force : Bool) :
    p.scan now limit force =
      ((p.active.filter (isDue now force)).map (remedy now limit),
        { p with
          active := (p.active.filter fun t => !t.lapses now).map fun t =>
            if t.isDue now force then t.tended now limit else t }) := by
  obtain ⟨asked, kept⟩ := looks_eq now limit force p.active
  rw [scan_eq_looks, asked, kept]

/-- Goes through a list by index.  What is overdue is taken out there and then, so that the index
stays and the next one moves up; what is due is changed in its place. -/
def walk (now limit : UInt32) (force : Bool) (ts : List Transaction) (index : Nat) :
    List Action × List Transaction :=
  if inside : index < ts.length then
    let t := ts[index]
    if t.awaits.isRequest then
      if t.timer.expired now then
        let (actions, ts) := walk now limit force (ts.eraseIdx index) index
        (.expire t :: actions, ts)
      else walk now limit force ts (index + 1)
    else if force || t.timer.expired now then
      let t := t.again now
      if limit ≤ t.retries then
        let (actions, ts) := walk now limit force (ts.set index t) (index + 1)
        (.warn t.awaits t.packetId t.retries :: actions, ts)
      else
        let t := { t with retries := t.retries + 1 }
        let (actions, ts) := walk now limit force (ts.set index t) (index + 1)
        (.resend t.awaits t.packetId t.retries t.packet.bytes :: actions, ts)
    else walk now limit force ts (index + 1)
  else ([], ts)
termination_by ts.length - index
decreasing_by
  all_goals
    try rw [List.length_eraseIdx_of_lt inside]
    try rw [List.length_set]
    omega

/-- Whatever it left behind, a walk comes to looks at what is before it. -/
theorem walk_append (now limit : UInt32) (force : Bool) (passed ts : List Transaction) :
    walk now limit force (passed ++ ts) passed.length =
      (ts.filterMap fun t => (t.look now limit force).2,
        passed ++ ts.filterMap fun t => (t.look now limit force).1) := by
  induction ts generalizing passed with
  | nil =>
    rw [walk, dif_neg (by simp)]
    rfl
  | cons t ts ih =>
    have inside : passed.length < (passed ++ t :: ts).length := by simp
    have here : (passed ++ t :: ts)[passed.length] = t := by simp
    have out : (passed ++ t :: ts).eraseIdx passed.length = passed ++ ts := by
      simp [List.eraseIdx_append_of_length_le]
    have put : ∀ u, (passed ++ t :: ts).set passed.length u = passed ++ [u] ++ ts := by simp
    have next : ∀ u, walk now limit force (passed ++ [u] ++ ts) (passed.length + 1) =
        (ts.filterMap fun t => (t.look now limit force).2,
          passed ++ u :: ts.filterMap fun t => (t.look now limit force).1) := by
      intro u
      have later := ih (passed ++ [u])
      rw [List.length_append, List.append_assoc _ [u] (ts.filterMap _)] at later
      exact later
    rw [walk, dif_pos inside, List.filterMap_cons, List.filterMap_cons]
    dsimp only
    rw [here, out, put, put, ih, next, next]
    have still := next t
    rw [List.append_assoc, List.singleton_append] at still
    cases request : t.awaits.isRequest with
    | true =>
      cases expired : t.timer.expired now with
      | true =>
        have looked : t.look now limit force = (none, some (.expire t)) := by
          simp [look, isDue, request, expired]
        rw [looked]
        rfl
      | false =>
        rw [look_of_not_due (by simp [isDue, request, expired])]
        exact still
    | false =>
      cases due : force || t.timer.expired now with
      | false =>
        rw [look_of_not_due (by simpa [isDue, request, Bool.or_comm] using due)]
        exact still
      | true =>
        have asked : t.isDue now force = true := by simpa [isDue, request, Bool.or_comm] using due
        by_cases tired : limit ≤ (t.again now).retries
        · have looked : t.look now limit force =
              (some (t.again now), some (.warn (t.again now).awaits (t.again now).packetId
                (t.again now).retries)) := by
            simp [look, asked, request, tired]
          rw [looked]
          exact if_pos tired
        · have looked : t.look now limit force =
              (some { t.again now with retries := (t.again now).retries + 1 },
                some (.resend (t.again now).awaits (t.again now).packetId
                  ((t.again now).retries + 1) (t.again now).packet.bytes)) := by
            simp [look, asked, request, tired]
          rw [looked]
          exact if_neg tired

/-- A walk through all transactions comes to a scan. -/
theorem walk_eq_scan (p : Pending) (now limit : UInt32) (force : Bool) :
    walk now limit force p.active 0 =
      ((p.scan now limit force).1, (p.scan now limit force).2.active) := by
  rw [scan_eq_looks]
  exact walk_append now limit force [] p.active

end Pending

/-! ## Looks that follow one another -/

/-- When a look is taken, by a count of milliseconds that does not wrap, and whether by force. -/
structure Glance where
  time : Nat
  force : Bool
  deriving DecidableEq

/-- What the clock reads at a look. -/
def Glance.reading (g : Glance) : UInt32 :=
  UInt32.ofNat g.time

/-- Whether something is sent again. -/
def Action.isResend : Action → Bool
  | .resend .. => true
  | _ => false

/-- How often something is sent again. -/
def resends (asked : List (Glance × Action)) : Nat :=
  asked.countP (·.2.isResend)

/-- Some scans one after the other: what each look asks for, and what is left in the end. -/
def Pending.scans (limit : UInt32) : List Glance → Pending → List (Glance × Action) × Pending
  | [], p => ([], p)
  | g :: later, p =>
    let (actions, p) := p.scan g.reading limit g.force
    let (asked, p) := scans limit later p
    (actions.map (g, ·) ++ asked, p)

namespace Transaction

variable {limit : UInt32} {t u : Transaction}

/-- What looks that follow one another come to for one transaction: nothing at first, the end of a
request, or one more try or a warning, from which it goes on with its countdown begun anew. -/
inductive Course (limit : UInt32) :
    List Glance → Transaction → List (Glance × Action) → Option Transaction → Prop
  | done {t : Transaction} : Course limit [] t [] (some t)
  | idle {g : Glance} {later : List Glance} {t : Transaction} {asked : List (Glance × Action)}
      {last : Option Transaction} : Course limit later t asked last →
    Course limit (g :: later) t asked last
  | expired {g : Glance} {later : List Glance} {t : Transaction} :
    t.timer.expired g.reading = true → Course limit (g :: later) t [(g, .expire t)] none
  | again {g : Glance} {later : List Glance} {t : Transaction} {action : Action}
      {asked : List (Glance × Action)} {last : Option Transaction} :
    (g.force = true ∨ t.timer.expired g.reading = true) →
    action.isResend = decide (t.retries < limit) →
    Course limit later (t.tended g.reading limit) asked last →
    Course limit (g :: later) t ((g, action) :: asked) last

/-- A transaction goes on in a course as a look at it says. -/
theorem course_of_look {g : Glance} {later : List Glance} {asked : List (Glance × Action)}
    {last : Option Transaction}
    (gone : (t.look g.reading limit g.force).1 = none → asked = [] ∧ last = none)
    (left : ∀ u, (t.look g.reading limit g.force).1 = some u → Course limit later u asked last) :
    Course limit (g :: later) t
      (((t.look g.reading limit g.force).2.map (g, ·)).toList ++ asked) last := by
  rw [look_eq] at gone left ⊢
  cases due : t.isDue g.reading g.force with
  | false =>
    exact .idle (left t (by simp [due, lapses_of_not_due due]))
  | true =>
    cases request : t.awaits.isRequest with
    | true =>
      have lapses := lapses_of_request request due
      obtain ⟨rfl, rfl⟩ := gone (if_pos lapses)
      have asked : t.remedy g.reading limit = .expire t := if_pos request
      rw [if_pos rfl, asked]
      exact .expired ((Bool.and_eq_true _ _).mp lapses).2
    | false =>
      refine .again ?_ ?_ (left _ (by simp [due, lapses_of_lasting request]))
      · simpa [isDue, request, or_comm] using due
      · unfold remedy
        rw [request, if_neg Bool.false_ne_true]
        split <;> simp [Action.isResend, *]

/-- The count goes up without a wrap. -/
theorem retries_tended (now limit : UInt32) (t : Transaction) :
    (t.tended now limit).retries.toNat =
      t.retries.toNat + if t.retries < limit then 1 else 0 := by
  by_cases fresh : t.retries < limit
  · have few : t.retries.toNat < limit.toNat := UInt32.lt_iff_toNat_lt.1 fresh
    have room : limit.toNat < 2 ^ 32 := limit.toNat_lt
    rw [show (t.tended now limit).retries = t.retries + 1 from if_pos fresh, if_pos fresh,
      UInt32.toNat_add]
    exact Nat.mod_eq_of_lt (show t.retries.toNat + 1 < 2 ^ 32 by omega)
  · rw [show (t.tended now limit).retries = t.retries from if_neg fresh, if_neg fresh]
    rfl

/-- The count of resends tells how often a transaction was sent again, and it never passes the
limit nor, if it stood higher, where it stood. -/
theorem Course.retries {gs : List Glance} {asked : List (Glance × Action)}
    {last : Option Transaction} (h : Course limit gs t asked last) :
    t.retries.toNat + resends asked ≤ max t.retries.toNat limit.toNat ∧
      ∀ u, last = some u → u.retries.toNat = t.retries.toNat + resends asked := by
  induction h with
  | done =>
    refine ⟨Nat.le_max_left _ _, fun u same => ?_⟩
    cases same
    rfl
  | idle _ ih => exact ih
  | expired => exact ⟨Nat.le_max_left _ _, nofun⟩
  | @again g _ t action asked _ _ tells _ ih =>
    obtain ⟨bound, told⟩ := ih
    have tried := t.retries_tended g.reading limit
    have counted : resends ((g, action) :: asked) =
        resends asked + if t.retries < limit then 1 else 0 := by
      unfold resends
      rw [List.countP_cons, tells]
      simp
    rw [counted]
    constructor
    · by_cases fresh : t.retries < limit
      · have few : t.retries.toNat < limit.toNat := UInt32.lt_iff_toNat_lt.1 fresh
        rw [if_pos fresh] at tried ⊢
        omega
      · rw [if_neg fresh] at tried ⊢
        omega
    · intro u same
      rw [told u same, tried]
      omega

/-- Once a countdown began, no unforced look does anything until its period has passed. -/
theorem Course.after {gs : List Glance} {asked : List (Glance × Action)}
    {last : Option Transaction} (h : Course limit gs t asked last) {began : Nat}
    (start : t.timer.start = UInt32.ofNat began) (ordered : gs.Pairwise (·.time ≤ ·.time))
    (since : ∀ g ∈ gs, began ≤ g.time) :
    ∀ a ∈ asked, a.1.force = false → began + t.timer.period.toNat ≤ a.1.time := by
  induction h generalizing began with
  | done => exact nofun
  | idle _ ih =>
    exact ih start (List.pairwise_cons.1 ordered).2 fun g member =>
      since g (List.mem_cons_of_mem _ member)
  | @expired g _ t expired =>
    intro a member unforced
    cases List.mem_singleton.1 member
    exact Timer.period_le_of_expired start (since g List.mem_cons_self) expired
  | @again g later t action asked last due tells _ ih =>
    obtain ⟨onward, ordered⟩ := List.pairwise_cons.1 ordered
    intro a member unforced
    rcases List.mem_cons.1 member with rfl | later
    · have expired := due.resolve_left (Bool.eq_false_iff.1 unforced)
      exact Timer.period_le_of_expired start (since g List.mem_cons_self) expired
    · have fromHere := ih rfl ordered onward a later unforced
      exact Nat.le_trans (Nat.add_le_add_right (since g List.mem_cons_self) _) fromHere

/-- What is done about a transaction without force comes at least its period after anything done
about it before. -/
theorem Course.spaced {gs : List Glance} {asked : List (Glance × Action)}
    {last : Option Transaction} (h : Course limit gs t asked last)
    (ordered : gs.Pairwise (·.time ≤ ·.time)) :
    asked.Pairwise fun earlier later =>
      later.1.force = false → earlier.1.time + t.timer.period.toNat ≤ later.1.time := by
  induction h with
  | done => exact .nil
  | idle _ ih => exact ih (List.pairwise_cons.1 ordered).2
  | expired => exact List.pairwise_singleton _ _
  | again due tells rest ih =>
    obtain ⟨onward, ordered⟩ := List.pairwise_cons.1 ordered
    exact List.pairwise_cons.2 ⟨rest.after rfl ordered onward, ih ordered⟩

end Transaction

namespace Pending

open Transaction

variable {now limit : UInt32} {force : Bool}

theorem key_of_look {t u : Transaction} (looked : (t.look now limit force).1 = some u) :
    u.key = t.key := by
  obtain ⟨kind, own, -⟩ := of_look_eq_some looked
  unfold key
  rw [kind, own]

/-- What is asked for about one transaction. -/
def askedAbout (k : AckKind × UInt16) (asked : List (Glance × Action)) : List (Glance × Action) :=
  asked.filter (·.2.about = k)

theorem askedAbout_scans (limit : UInt32) (g : Glance) (later : List Glance) (p : Pending)
    (k : AckKind × UInt16) :
    askedAbout k (p.scans limit (g :: later)).1 =
      ((p.scan g.reading limit g.force).1.filter (·.about = k)).map (g, ·) ++
        askedAbout k ((p.scan g.reading limit g.force).2.scans limit later).1 := by
  unfold askedAbout
  rw [scans, List.filter_append, List.filter_map]
  rfl

/-- Looks ask for nothing about a transaction that is not there. -/
theorem looks_absent (now limit : UInt32) (force : Bool) {ts : List Transaction}
    {k : AckKind × UInt16} (absent : k ∉ ts.map Transaction.key) :
    (ts.filterMap fun t => (t.look now limit force).2).filter (·.about = k) = [] := by
  rw [List.filter_eq_nil_iff]
  intro action asked
  obtain ⟨t, member, looked⟩ := List.mem_filterMap.1 asked
  rw [decide_eq_true_iff, about_of_look looked]
  exact fun same => absent (same ▸ List.mem_map_of_mem member)

/-- Of one transaction looks ask for what the look at it asks for. -/
theorem looks_about (now limit : UInt32) (force : Bool) {ts : List Transaction} {t : Transaction}
    (distinct : (ts.map Transaction.key).Nodup) (member : t ∈ ts) :
    (ts.filterMap fun t => (t.look now limit force).2).filter (·.about = t.key) =
      (t.look now limit force).2.toList := by
  obtain ⟨before, after, rfl⟩ := List.append_of_mem member
  rw [List.map_append, List.map_cons, List.nodup_append] at distinct
  obtain ⟨-, apart, disjoint⟩ := distinct
  have others : t.key ∉ before.map Transaction.key := fun own =>
    disjoint _ own _ List.mem_cons_self rfl
  have rest := looks_absent now limit force (List.nodup_cons.1 apart).1
  rw [List.filterMap_append, List.filter_append, looks_absent now limit force others,
    List.nil_append, List.filterMap_cons]
  cases looked : (t.look now limit force).2 with
  | none => exact rest
  | some action =>
    have own : action.about = t.key := about_of_look looked
    change (action :: _).filter _ = [action]
    rw [List.filter_cons_of_pos (by simpa using own), rest]

/-- Scans ask for nothing about a transaction that is not there, and make none. -/
theorem scans_absent (limit : UInt32) (gs : List Glance) {p : Pending} {k : AckKind × UInt16}
    (absent : k ∉ p.active.map Transaction.key) :
    askedAbout k (p.scans limit gs).1 = [] ∧
      ∀ u ∈ (p.scans limit gs).2.active, u.key ≠ k := by
  induction gs generalizing p with
  | nil => exact ⟨rfl, fun u member same => absent (same ▸ List.mem_map_of_mem member)⟩
  | cons g later ih =>
    obtain ⟨silent, unmade⟩ := @ih (p.scan g.reading limit g.force).2 fun own =>
      absent ((p.keys_scan _ _ _).subset own)
    refine ⟨?_, unmade⟩
    rw [askedAbout_scans, silent, scan_eq_looks, looks_absent _ _ _ absent]
    rfl

/-- Scans come to a course for each transaction, with all that they ask for about it, and leave
what it has become if they leave it. -/
theorem scans_course (limit : UInt32) (gs : List Glance) {p : Pending} {t : Transaction}
    (distinct : (p.active.map Transaction.key).Nodup) (active : t ∈ p.active) :
    ∃ last, Transaction.Course limit gs t (askedAbout t.key (p.scans limit gs).1) last ∧
      ∀ u ∈ (p.scans limit gs).2.active, u.key = t.key → last = some u := by
  induction gs generalizing p t with
  | nil =>
    refine ⟨some t, .done, fun u member same => ?_⟩
    rw [List.inj_on_of_nodup_map distinct active member same.symm]
  | cons g later ih =>
    have asked : (p.scan g.reading limit g.force).1.filter (·.about = t.key) =
        (t.look g.reading limit g.force).2.toList := by
      rw [scan_eq_looks]
      exact looks_about _ _ _ distinct active
    rw [askedAbout_scans, asked, ← Option.toList_map]
    cases looked : (t.look g.reading limit g.force).1 with
    | none =>
      have gone : t.key ∉ (p.scan g.reading limit g.force).2.active.map Transaction.key := by
        intro own
        obtain ⟨u, left, same⟩ := List.mem_map.1 own
        obtain ⟨v, before, looked'⟩ := mem_scan_active.1 left
        have alike := (key_of_look looked').symm.trans same
        cases List.inj_on_of_nodup_map distinct before active alike
        rw [looked] at looked'
        cases looked'
      obtain ⟨silent, unmade⟩ := scans_absent limit later gone
      refine ⟨none, course_of_look (fun _ => ⟨silent, rfl⟩) fun u left => ?_,
        fun u left same => absurd same (unmade u left)⟩
      rw [looked] at left
      cases left
    | some u =>
      have kept := mem_scan_active.2 ⟨t, active, looked⟩
      obtain ⟨last, course, final⟩ :=
        ih ((p.keys_scan g.reading limit g.force).nodup distinct) kept
      rw [key_of_look looked] at course final
      refine ⟨last, course_of_look (fun gone => ?_) fun v left => ?_, final⟩
      · rw [looked] at gone
        cases gone
      · rw [looked] at left
        cases left
        exact course

/-- **Looks.**  A walk through the list that changes it as it goes comes to a scan.  A scan takes
out the requests about filters whose time is over and leaves all others in their order; of those
that are due the countdown begins anew, the count goes up if it stands below the limit, and a
PUBLISH is marked.  It asks for one thing about each transaction that is due, in the same order.

If no two transactions wait for the same, then however scans follow one another with one limit, a
transaction is sent again no more than its count had room for, and its count tells how often.
And whatever is done about it without force comes at least its period after all that was done
about it before. -/
theorem scan_pointwise (p : Pending) :
    (∀ now limit force,
      walk now limit force p.active 0 =
          ((p.scan now limit force).1, (p.scan now limit force).2.active) ∧
        p.scan now limit force =
          ((p.active.filter (isDue now force)).map (remedy now limit),
            { p with
              active := (p.active.filter fun t => !t.lapses now).map fun t =>
                if t.isDue now force then t.tended now limit else t })) ∧
    ((p.active.map Transaction.key).Nodup → ∀ limit gs, ∀ t ∈ p.active,
      resends (askedAbout t.key (p.scans limit gs).1) ≤ limit.toNat - t.retries.toNat ∧
      (∀ u ∈ (p.scans limit gs).2.active, u.key = t.key →
        u.retries.toNat = t.retries.toNat + resends (askedAbout t.key (p.scans limit gs).1)) ∧
      (gs.Pairwise (·.time ≤ ·.time) →
        (askedAbout t.key (p.scans limit gs).1).Pairwise fun earlier later =>
          later.1.force = false → earlier.1.time + t.timer.period.toNat ≤ later.1.time)) := by
  refine ⟨fun now limit force => ⟨p.walk_eq_scan now limit force, p.scan_eq now limit force⟩, ?_⟩
  intro distinct limit gs t active
  obtain ⟨last, course, final⟩ := scans_course limit gs distinct active
  obtain ⟨bound, told⟩ := course.retries
  exact ⟨by omega, fun u left same => told u (final u left same), course.spaced⟩

/-- A message and two requests, made just before the clock wraps, and the end of a handshake. -/
def crowded : Pending where
  active :=
    [⟨.pubRec, 1, 0, ⟨4294966000, 3000⟩, .request [0x34], .asked "a" .exactlyOnce 1⟩,
      ⟨.subAck, 2, 0, ⟨4294966000, 3000⟩, .request [0x82], .asked "b" .atMostOnce 2⟩,
      ⟨.unsubAck, 3, 0, ⟨4294966000, 3000⟩, .request [0xA2], .asked "c" .atMostOnce 3⟩,
      ⟨.pubRel, 1, 1, ⟨4294966000, 9000⟩, .acknowledgement [0x50], .asked "d" .exactlyOnce 1⟩]
  threshold := 0

/-- A look by force before the wrap, and three by the clock behind it. -/
def glances : List Glance :=
  [⟨4294967000, true⟩, ⟨4294969000, false⟩, ⟨4294970000, false⟩, ⟨4294973000, false⟩]

theorem scan_pointwise_crowded :
    (walk 1704 2 false crowded.active 0).1.map Action.about =
        [(.pubRec, 1), (.subAck, 2), (.unsubAck, 3)] ∧
      (walk 1704 2 false crowded.active 0).2.map Transaction.key = [(.pubRec, 1), (.pubRel, 1)] ∧
      ((askedAbout (.pubRec, 1) (crowded.scans 2 glances).1).map fun a => (a.1.time, a.2)) =
        [(4294967000, .resend .pubRec 1 1 [0x3C]), (4294970000, .resend .pubRec 1 2 [0x3C]),
          (4294973000, .warn .pubRec 1 2)] ∧
      resends (askedAbout (.pubRec, 1) (crowded.scans 2 glances).1) ≤ 2 ∧
      (∀ u ∈ (crowded.scans 2 glances).2.active, u.key = (.pubRec, 1) →
        u.retries.toNat = 0 + resends (askedAbout (.pubRec, 1) (crowded.scans 2 glances).1)) ∧
      (askedAbout (.pubRec, 1) (crowded.scans 2 glances).1).Pairwise fun earlier later =>
        later.1.force = false → earlier.1.time + 3000 ≤ later.1.time := by
  obtain ⟨once, courses⟩ := scan_pointwise crowded
  obtain ⟨few, told, spaced⟩ := courses (by decide) 2 glances _ List.mem_cons_self
  rw [(once 1704 2 false).1]
  exact ⟨by decide, by decide, by decide +kernel, few, told, spaced (by decide)⟩

end Pending

end Mqtt
