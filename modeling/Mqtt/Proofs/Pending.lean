import Mqtt.Pending
import Mqtt.Proofs.Shelf

/-!
# The transactions of a client, seen as one list

`Pending.all` is the active transactions and, behind them, the staged ones in the
order of their making.  Taking and removing leave a sublist of it, staging adds at
its end.  While no two transactions of one side share an identifier
(`Pending.Distinct`), making the staged ones active leaves it as it is.
-/

namespace Mqtt

namespace Transaction

theorem isFor_iff {t : Transaction} {kind : AckKind} {id : UInt16} :
    t.isFor kind id = true ↔ t.packetId = id ∧ t.awaits = kind := by
  simp [isFor]

theorem holds_iff {t : Transaction} {id : UInt16} :
    t.holds id = true ↔ t.packetId = id ∧ t.awaits.isLocal = true := by
  simp [holds]

/-- Whether two transactions cannot be taken for each other: the identifiers of both
come from the same side only if they differ. -/
def Apart (t u : Transaction) : Prop :=
  t.awaits.isLocal = u.awaits.isLocal → t.packetId ≠ u.packetId

theorem Apart.symm {t u : Transaction} (h : t.Apart u) : u.Apart t :=
  fun side same => h side.symm same.symm

theorem Apart.not_isFor {t u : Transaction} (h : t.Apart u) :
    t.isFor u.awaits u.packetId = false := by
  rw [← Bool.not_eq_true, isFor_iff]
  intro given
  rcases given with ⟨id, kind⟩
  exact h (by rw [kind]) id

/-- A look leaves of a transaction what it waits for, and its packet but for the mark of
being sent again. -/
theorem of_look_eq_some {now limit : UInt32} {force : Bool} {t u : Transaction}
    (h : (t.look now limit force).1 = some u) :
    u.awaits = t.awaits ∧ u.packetId = t.packetId ∧ u.subject = t.subject ∧
      (u.packet = t.packet ∨ t.awaits.isPublish = true ∧ u.packet = t.packet.markDup) := by
  unfold look again at h
  split at h
  · cases h
    exact ⟨rfl, rfl, rfl, Or.inl rfl⟩
  · split at h
    · cases h
    · by_cases publish : t.awaits.isPublish = true
      · simp only [publish, if_true] at h
        split at h <;> · cases h; exact ⟨rfl, rfl, rfl, Or.inr ⟨publish, rfl⟩⟩
      · simp only [publish] at h
        split at h <;> · cases h; exact ⟨rfl, rfl, rfl, Or.inl rfl⟩

/-- A look keeps all but the requests about filters. -/
theorem look_isSome {now limit : UInt32} {force : Bool} {t : Transaction}
    (lasting : t.awaits.isRequest = false) : ∃ u, (t.look now limit force).1 = some u := by
  unfold look
  split
  · exact ⟨t, rfl⟩
  · rw [lasting]
    dsimp only
    rw [if_neg Bool.false_ne_true]
    split <;> exact ⟨_, rfl⟩

/-- What a look asks to send again is the packet of what it keeps, a PUBLISH with its mark. -/
theorem of_look_resend {now limit : UInt32} {force : Bool} {t : Transaction} {kind : AckKind}
    {id : UInt16} {retries : UInt32} {packet : Bytes}
    (h : (t.look now limit force).2 = some (.resend kind id retries packet)) :
    ∃ u, (t.look now limit force).1 = some u ∧ u.isFor kind id = true ∧ u.packet.bytes = packet ∧
      kind.isRequest = false ∧ (kind.isPublish = true → u.packet = t.packet.markDup) := by
  unfold look at h ⊢
  split at h
  · cases h
  · split at h
    · cases h
    next notDue lasting =>
      dsimp only at h
      split at h
      · cases h
      next more =>
        rw [if_neg notDue, if_neg lasting]
        dsimp only
        rw [if_neg more]
        cases h
        refine ⟨_, rfl, isFor_iff.2 ⟨rfl, rfl⟩, rfl, Bool.eq_false_iff.2 lasting,
          fun publish => ?_⟩
        change t.awaits.isPublish = true at publish
        change (if t.awaits.isPublish then t.packet.markDup else t.packet) = _
        rw [if_pos publish]

end Transaction

namespace Pending

open Transaction

/-- All transactions: the active ones, then the staged ones in the order of their
making. -/
def all (p : Pending) : List Transaction :=
  p.active ++ p.staged.reverse

/-- No two transactions of one side share an identifier, and all staged ones are the
client's own. -/
structure Distinct (p : Pending) : Prop where
  apart : p.all.Pairwise Apart
  staged : ∀ t ∈ p.staged, t.awaits.isLocal = true

theorem mem_all {p : Pending} {t : Transaction} : t ∈ p.all ↔ t ∈ p.active ∨ t ∈ p.staged := by
  simp [all]

theorem contains_iff {p : Pending} {kind : AckKind} {id : UInt16} :
    p.contains kind id = true ↔ ∃ t ∈ p.active, t.packetId = id ∧ t.awaits = kind := by
  simp [contains, isFor_iff]

theorem contains_eq_false_iff {p : Pending} {kind : AckKind} {id : UInt16} :
    p.contains kind id = false ↔ ∀ t ∈ p.active, t.isFor kind id = false := by
  simp [contains]

theorem idInUse_eq_false_iff {p : Pending} {id : UInt16} :
    p.idInUse id = false ↔ ∀ t ∈ p.all, t.holds id = false := by
  simp only [idInUse, Bool.or_eq_false_iff, List.any_eq_false, mem_all, Bool.not_eq_true]
  exact ⟨fun ⟨staged, active⟩ t member => member.elim (active t) (staged t),
    fun h => ⟨fun t member => h t (Or.inr member), fun t member => h t (Or.inl member)⟩⟩

/-- Under a free identifier only acknowledgements of the other side are waited for. -/
theorem not_isLocal_of_free {p : Pending} {t : Transaction} {id : UInt16}
    (free : p.idInUse id = false) (member : t ∈ p.all) (own : t.packetId = id) :
    ¬ t.awaits.isLocal = true := by
  have unheld := idInUse_eq_false_iff.1 free t member
  rw [← Bool.not_eq_true, Transaction.holds_iff] at unheld
  exact fun side => unheld ⟨own, side⟩

/-- One transaction more is one more of those that have what it has. -/
theorem filter_all_cons {p q : Pending} {t : Transaction} {f : Transaction → Bool}
    (more : p.all.Perm (t :: q.all)) (has : f t = true) :
    (p.all.filter f).Perm (t :: q.all.filter f) := by
  have filtered := more.filter f
  rwa [List.filter_cons, if_pos has] at filtered

theorem filter_all_cons_other {p q : Pending} {t : Transaction} {f : Transaction → Bool}
    (more : p.all.Perm (t :: q.all)) (lacks : ¬ f t = true) :
    (p.all.filter f).Perm (q.all.filter f) := by
  have filtered := more.filter f
  rwa [List.filter_cons, if_neg lacks] at filtered

/-- Fewer transactions are distinct if more are. -/
theorem Distinct.of_sublist {p q : Pending} (h : p.Distinct) (all : q.all.Sublist p.all)
    (staged : q.staged ⊆ p.staged) : q.Distinct :=
  ⟨h.apart.sublist all, fun t member => h.staged t (staged member)⟩

/-! ## Taking out -/

theorem take_all_sublist (p : Pending) (kind : AckKind) (id : UInt16) :
    (p.take kind id).2.all.Sublist p.all :=
  List.eraseP_sublist.append (List.Sublist.refl _)

theorem Distinct.take {p : Pending} (h : p.Distinct) (kind : AckKind) (id : UInt16) :
    (p.take kind id).2.Distinct :=
  h.of_sublist (p.take_all_sublist kind id) (List.Subset.refl _)

theorem take_of_none {p : Pending} {kind : AckKind} {id : UInt16}
    (missing : (p.take kind id).1 = none) : (p.take kind id).2 = p := by
  have absent := List.find?_eq_none.1 missing
  unfold take
  rw [List.eraseP_of_forall_not absent]

theorem of_take_eq_some {p : Pending} {kind : AckKind} {id : UInt16} {t : Transaction}
    (taken : (p.take kind id).1 = some t) :
    t ∈ p.active ∧ t.packetId = id ∧ t.awaits = kind := by
  unfold take at taken
  have fits := List.find?_some taken
  exact ⟨List.mem_of_find?_eq_some taken, isFor_iff.1 fits⟩

/-- Only transactions for the acknowledgement may be missing afterwards. -/
theorem mem_take_active {p : Pending} {kind : AckKind} {id : UInt16} {t : Transaction}
    (other : t.isFor kind id = false) : t ∈ (p.take kind id).2.active ↔ t ∈ p.active :=
  List.mem_eraseP_of_neg (by simp [other])

theorem take_eq_none_iff {p : Pending} {kind : AckKind} {id : UInt16} :
    (p.take kind id).1 = none ↔ p.contains kind id = false := by
  rw [contains_eq_false_iff]
  unfold take
  rw [List.find?_eq_none]
  exact forall₂_congr fun t _ => by rw [Bool.not_eq_true]

/-- A transaction is taken from between the others, the first that is waited for so. -/
theorem take_between {p : Pending} {kind : AckKind} {id : UInt16} {t : Transaction}
    (taken : (p.take kind id).1 = some t) :
    ∃ before after, p.active = before ++ t :: after ∧
      (∀ u ∈ before, u.isFor kind id = false) ∧
      (p.take kind id).2 = { p with active := before ++ after } := by
  unfold take at taken ⊢
  obtain ⟨fits, before, after, split, others⟩ := List.find?_eq_some_iff_append.1 taken
  refine ⟨before, after, split, fun u member => by simpa using others u member, ?_⟩
  rw [split, List.eraseP_append_right _ (by simpa using others), List.eraseP_cons, fits]
  rfl

theorem take_split {p : Pending} {kind : AckKind} {id : UInt16} {t : Transaction}
    (taken : (p.take kind id).1 = some t) :
    ∃ before after, p.active = before ++ t :: after ∧
      (p.take kind id).2.active = before ++ after := by
  obtain ⟨before, after, split, -, left⟩ := take_between taken
  exact ⟨before, after, split, congrArg Pending.active left⟩

/-- What is taken out and what is left are all that there was. -/
theorem take_perm {p : Pending} {kind : AckKind} {id : UInt16} {t : Transaction}
    (taken : (p.take kind id).1 = some t) : p.all.Perm (t :: (p.take kind id).2.all) := by
  obtain ⟨before, after, split, rest⟩ := take_split taken
  unfold all
  rw [split, rest, List.append_assoc, List.append_assoc]
  exact List.perm_middle

/-- What is left once a transaction is taken is apart from it. -/
theorem Distinct.apart_of_take {p : Pending} (h : p.Distinct) {kind : AckKind} {id : UInt16}
    {t u : Transaction} (taken : (p.take kind id).1 = some t)
    (left : u ∈ (p.take kind id).2.all) : u.Apart t := by
  obtain ⟨before, after, split, rest⟩ := take_split taken
  have apart := h.apart
  unfold all at apart left
  rw [split, List.append_assoc, List.cons_append, List.pairwise_append, List.pairwise_cons] at apart
  rcases apart with ⟨-, ⟨behind, -⟩, ahead⟩
  rw [rest, List.append_assoc] at left
  rcases List.mem_append.1 left with first | last
  · exact ahead u first t List.mem_cons_self
  · exact (behind u last).symm

/-- Of distinct transactions none of the same side is left under an identifier once one is
taken. -/
theorem Distinct.absent_of_take {p : Pending} (h : p.Distinct) {kind other : AckKind}
    {id : UInt16} {t : Transaction} (taken : (p.take kind id).1 = some t)
    (side : other.isLocal = kind.isLocal) : (p.take kind id).2.contains other id = false := by
  rw [contains_eq_false_iff]
  intro u left
  rw [← Bool.not_eq_true, isFor_iff]
  rintro ⟨own, rfl⟩
  obtain ⟨-, rfl, rfl⟩ := of_take_eq_some taken
  exact h.apart_of_take taken (mem_all.2 (Or.inl left)) side own

/-- Of distinct transactions none is left for an acknowledgement once it is taken. -/
theorem contains_take_self {p : Pending} (h : p.Distinct) (kind : AckKind) (id : UInt16) :
    (p.take kind id).2.contains kind id = false := by
  cases taken : (p.take kind id).1 with
  | none =>
    rw [take_of_none taken, contains_eq_false_iff]
    simpa using List.find?_eq_none.1 taken
  | some t =>
    obtain ⟨-, rfl, rfl⟩ := of_take_eq_some taken
    rw [contains_eq_false_iff]
    exact fun u left => (h.apart_of_take taken (mem_all.2 (Or.inl left))).not_isFor

theorem oldest?_eq_find? (q : Transaction → Bool) (ts : List Transaction) :
    oldest? q ts = ts.reverse.find? q := by
  have general : ∀ found : Option Transaction,
      ts.foldl (fun found t => if q t then some t else found) found =
        (ts.reverse.find? q).or found := by
    induction ts with
    | nil => intro found; simp
    | cons t ts ih =>
      intro found
      rw [List.foldl_cons, ih, List.reverse_cons, List.find?_append, Option.or_assoc]
      cases h : q t <;> simp [h]
  rw [oldest?, general, Option.or_none]

/-- Among some transactions in their order, the first with a property is dropped. -/
theorem reverse_dropOldest (q : Transaction → Bool) (ts : List Transaction) :
    (dropOldest q ts).reverse = ts.reverse.eraseP q := by
  induction ts with
  | nil => rfl
  | cons t ts ih =>
    rw [dropOldest, List.reverse_cons, List.eraseP_append, List.any_reverse]
    cases older : ts.any q with
    | true => simp [ih]
    | false =>
      have absent : ts.reverse.eraseP q = ts.reverse :=
        List.eraseP_of_forall_not (by simpa using older)
      cases fits : q t <;> simp [fits, ih, absent]

theorem dropOldest_sublist (q : Transaction → Bool) (ts : List Transaction) :
    (dropOldest q ts).Sublist ts := by
  rw [← List.reverse_sublist, reverse_dropOldest]
  exact List.eraseP_sublist

/-- Dropping takes what comes first when none of the others has the property. -/
theorem dropOldest_cons {q : Transaction → Bool} {t : Transaction} {ts : List Transaction}
    (fits : q t = true) (others : ∀ u ∈ ts, q u = false) : dropOldest q (t :: ts) = ts := by
  have unfit : ts.any q = false := by simpa using others
  rw [dropOldest, fits, unfit]
  rfl

/-- The oldest with a property is what is dropped. -/
theorem dropOldest_perm {q : Transaction → Bool} {ts : List Transaction} {t : Transaction}
    (found : oldest? q ts = some t) : ts.Perm (t :: dropOldest q ts) := by
  rw [oldest?_eq_find?] at found
  have parted := perm_find?_eraseP q ts.reverse
  rw [found, ← reverse_dropOldest] at parted
  calc ts.Perm ts.reverse := (List.reverse_perm ts).symm
    List.Perm _ (t :: (dropOldest q ts).reverse) := parted
    List.Perm _ (t :: dropOldest q ts) := (List.reverse_perm _).cons t

theorem remove_all_sublist (p : Pending) (kind : AckKind) (id : UInt16) :
    (p.remove kind id).2.all.Sublist p.all := by
  unfold remove
  split
  · exact (List.Sublist.refl _).append (dropOldest_sublist _ _).reverse
  · exact p.take_all_sublist kind id

theorem Distinct.remove {p : Pending} (h : p.Distinct) (kind : AckKind) (id : UInt16) :
    (p.remove kind id).2.Distinct := by
  apply h.of_sublist (p.remove_all_sublist kind id)
  unfold Pending.remove
  split
  · exact (dropOldest_sublist _ _).subset
  · exact List.Subset.refl _

theorem remove_of_none {p : Pending} {kind : AckKind} {id : UInt16}
    (missing : (p.remove kind id).1 = none) : (p.remove kind id).2 = p := by
  unfold remove at missing ⊢
  split at missing
  · cases missing
  · exact take_of_none missing

theorem of_remove_eq_some {p : Pending} {kind : AckKind} {id : UInt16} {t : Transaction}
    (removed : (p.remove kind id).1 = some t) : t ∈ p.all ∧ t.packetId = id ∧ t.awaits = kind := by
  unfold remove at removed
  split at removed
  next u found =>
    cases removed
    rw [oldest?_eq_find?] at found
    have fits := List.find?_some found
    exact ⟨mem_all.2 (Or.inr (List.mem_reverse.1 (List.mem_of_find?_eq_some found))),
      isFor_iff.1 fits⟩
  · obtain ⟨member, fits⟩ := of_take_eq_some removed
    exact ⟨mem_all.2 (Or.inl member), fits⟩

/-- What is removed and what is left are all that there was. -/
theorem remove_perm {p : Pending} {kind : AckKind} {id : UInt16} {t : Transaction}
    (removed : (p.remove kind id).1 = some t) : p.all.Perm (t :: (p.remove kind id).2.all) := by
  unfold remove at removed ⊢
  split
  next u found =>
    rw [found] at removed
    cases removed
    have dropped := (dropOldest_perm found).trans ((List.reverse_perm _).symm.cons t)
    exact (((List.reverse_perm _).trans dropped).append_left p.active).trans List.perm_middle
  next none =>
    rw [none] at removed
    exact take_perm removed

theorem mem_remove_active {p : Pending} {kind : AckKind} {id : UInt16} {t : Transaction}
    (other : t.isFor kind id = false) : t ∈ (p.remove kind id).2.active ↔ t ∈ p.active := by
  unfold remove
  split
  · rfl
  · exact mem_take_active other

theorem remove_active_subset (p : Pending) (kind : AckKind) (id : UInt16) :
    (p.remove kind id).2.active ⊆ p.active := by
  unfold remove
  split
  · exact List.Subset.refl _
  · exact List.eraseP_subset

/-- What was staged last is removed first when nothing else waits for the same. -/
theorem remove_stage {p : Pending} {t : Transaction}
    (others : ∀ u ∈ p.all, u.isFor t.awaits t.packetId = false) :
    (p.stage t).remove t.awaits t.packetId = (some t, p) := by
  have fits : t.isFor t.awaits t.packetId = true := isFor_iff.2 ⟨rfl, rfl⟩
  have older : ∀ u ∈ p.staged, u.isFor t.awaits t.packetId = false :=
    fun u member => others u (mem_all.2 (Or.inr member))
  have found : oldest? (fun u => u.isFor t.awaits t.packetId) (t :: p.staged) = some t := by
    rw [oldest?_eq_find?, List.reverse_cons, List.find?_append,
      List.find?_eq_none.2 (by simpa using older)]
    simp [fits]
  unfold remove stage
  dsimp only
  rw [found]
  dsimp only
  rw [dropOldest_cons fits older]

/-! ## Adding -/

theorem stage_all (p : Pending) (t : Transaction) : (p.stage t).all = p.all ++ [t] := by
  simp [all, stage]

theorem stage_perm (p : Pending) (t : Transaction) : (p.stage t).all.Perm (t :: p.all) := by
  rw [stage_all]
  exact List.perm_append_singleton t p.all

theorem Distinct.stage {p : Pending} (h : p.Distinct) {t : Transaction}
    (own : t.awaits.isLocal = true) (free : p.idInUse t.packetId = false) :
    (p.stage t).Distinct := by
  constructor
  · rw [stage_all, List.pairwise_append]
    refine ⟨h.apart, List.pairwise_singleton _ _, ?_⟩
    intro u member v last side same
    cases List.mem_singleton.1 last
    exact not_isLocal_of_free free member same (side.trans own)
  · intro u member
    rcases List.mem_cons.1 member with rfl | member
    · exact own
    · exact h.staged u member

/-- A transaction that nothing active can be taken for goes behind all active ones. -/
theorem insert_of_absent {p : Pending} {t : Transaction}
    (absent : p.contains t.awaits t.packetId = false) :
    (p.insert t).2 = { p with active := p.active ++ [t] } := by
  have unfit : (Queue.toList ⟨p.active, []⟩).any (·.isFor t.awaits t.packetId) = false := by
    simpa [Queue.toList] using contains_eq_false_iff.1 absent
  unfold insert activate
  rw [List.foldl_cons, List.foldl_nil, toList_join, unfit]
  simp [Queue.toList]

/-- What was put in is there. -/
theorem mem_insert_of_absent {p : Pending} {t : Transaction}
    (absent : p.contains t.awaits t.packetId = false) {u : Transaction} :
    u ∈ (p.insert t).2.all ↔ u ∈ p.all ∨ u = t := by
  rw [insert_of_absent absent, mem_all, mem_all]
  simp only [List.mem_append, List.mem_singleton]
  exact or_right_comm

theorem insert_perm {p : Pending} {t : Transaction}
    (absent : p.contains t.awaits t.packetId = false) :
    (p.insert t).2.all.Perm (t :: p.all) := by
  rw [insert_of_absent absent]
  unfold all
  rw [List.append_assoc]
  exact List.perm_middle

theorem contains_insert_self (p : Pending) (t : Transaction) :
    (p.insert t).2.contains t.awaits t.packetId = true := by
  have fits : t.isFor t.awaits t.packetId = true := isFor_iff.2 ⟨rfl, rfl⟩
  have there : t ∈ (join ⟨p.active, []⟩ t).toList := by
    rw [toList_join]
    split
    next found =>
      obtain ⟨u, member, waits⟩ := List.any_eq_true.1 found
      exact List.mem_map.2 ⟨u, member, if_pos waits⟩
    · exact List.mem_append_right _ List.mem_cons_self
  exact contains_iff.2 ⟨t, there, isFor_iff.1 fits⟩

theorem mem_of_mem_foldl_join {q : Queue Transaction} {ts : List Transaction} {t : Transaction}
    (member : t ∈ (ts.foldl join q).toList) : t ∈ q.toList ∨ t ∈ ts := by
  induction ts generalizing q with
  | nil => exact Or.inl member
  | cons u ts ih =>
    rcases ih member with joined | later
    · rw [toList_join] at joined
      split at joined
      · obtain ⟨v, old, rfl⟩ := List.mem_map.1 joined
        split
        · exact Or.inr List.mem_cons_self
        · exact Or.inl old
      · rcases List.mem_append.1 joined with old | last
        · exact Or.inl old
        · exact Or.inr (List.mem_singleton.1 last ▸ List.mem_cons_self)
    · exact Or.inr (List.mem_cons_of_mem u later)

theorem mem_of_mem_insert {p : Pending} {t u : Transaction} (member : u ∈ (p.insert t).2.all) :
    u ∈ p.all ∨ u = t := by
  rcases mem_all.1 member with active | staged
  · rcases mem_of_mem_foldl_join active with old | new
    · exact Or.inl (mem_all.2 (Or.inl (by simpa [Queue.toList] using old)))
    · exact Or.inr (List.mem_singleton.1 new)
  · exact Or.inl (mem_all.2 (Or.inr staged))

theorem mem_of_mem_migrate {p : Pending} {t : Transaction} (member : t ∈ p.migrate.2.all) :
    t ∈ p.all := by
  unfold migrate at member
  split at member
  · exact member
  · rcases mem_all.1 member with active | staged
    · rcases mem_of_mem_foldl_join active with old | new
      · exact mem_all.2 (Or.inl (by simpa [Queue.toList] using old))
      · exact mem_all.2 (Or.inr (List.mem_reverse.1 new))
    · cases staged

/-- Transactions apart from each other are joined one behind the other. -/
theorem toList_foldl_join {q : Queue Transaction} {ts : List Transaction}
    (apart : (q.toList ++ ts).Pairwise Apart) :
    (ts.foldl join q).toList = q.toList ++ ts := by
  induction ts generalizing q with
  | nil => simp
  | cons t ts ih =>
    have unfit : q.toList.any (·.isFor t.awaits t.packetId) = false := by
      rw [List.any_eq_false]
      intro u member
      rw [Bool.not_eq_true]
      exact ((List.pairwise_append.1 apart).2.2 u member t List.mem_cons_self).not_isFor
    have joined : (join q t).toList = q.toList ++ [t] := by
      rw [toList_join, unfit]
      rfl
    rw [List.foldl_cons, ih (by rw [joined]; simpa using apart), joined]
    simp

/-- Distinct transactions all become active, in their order. -/
theorem migrate_of_distinct {p : Pending} (h : p.Distinct) :
    p.migrate.2 = { p with active := p.all, staged := [] } := by
  rcases p with ⟨active, staged, threshold⟩
  unfold migrate
  split
  next none =>
    cases List.isEmpty_iff.1 none
    simp [all]
  · unfold activate all
    dsimp only
    rw [toList_foldl_join (by simpa [Queue.toList, all] using h.apart)]
    simp [Queue.toList]

theorem migrate_all {p : Pending} (h : p.Distinct) : p.migrate.2.all = p.all := by
  rw [migrate_of_distinct h]
  simp [all]

theorem Distinct.migrate {p : Pending} (h : p.Distinct) : p.migrate.2.Distinct := by
  constructor
  · rw [migrate_all h]
    exact h.apart
  · rw [migrate_of_distinct h]
    intro t member
    cases member

/-! ## Looking after -/

theorem mem_scan_active {p : Pending} {now limit : UInt32} {force : Bool} {u : Transaction} :
    u ∈ (p.scan now limit force).2.active ↔
      ∃ t ∈ p.active, (t.look now limit force).1 = some u := by
  rw [scan_eq_looks]
  exact List.mem_filterMap

theorem mem_scan_actions {p : Pending} {now limit : UInt32} {force : Bool} {a : Action} :
    a ∈ (p.scan now limit force).1 ↔ ∃ t ∈ p.active, (t.look now limit force).2 = some a := by
  rw [scan_eq_looks]
  exact List.mem_filterMap

theorem scan_staged (p : Pending) (now limit : UInt32) (force : Bool) :
    (p.scan now limit force).2.staged = p.staged := by
  rw [scan_eq_looks]

/-- A scan keeps what waits for anything but the answer to a request about filters. -/
theorem contains_scan {p : Pending} {now limit : UInt32} {force : Bool} {kind : AckKind}
    (lasting : kind.isRequest = false) (id : UInt16) :
    (p.scan now limit force).2.contains kind id = p.contains kind id := by
  rw [Bool.eq_iff_iff, contains_iff, contains_iff]
  constructor
  · intro given
    rcases given with ⟨u, member, sameId, sameKind⟩
    obtain ⟨t, member, looked⟩ := mem_scan_active.1 member
    obtain ⟨keptKind, keptId, -⟩ := of_look_eq_some looked
    exact ⟨t, member, keptId ▸ sameId, keptKind ▸ sameKind⟩
  · intro given
    rcases given with ⟨t, member, sameId, sameKind⟩
    obtain ⟨u, looked⟩ := @look_isSome now limit force t (sameKind ▸ lasting)
    obtain ⟨keptKind, keptId, -⟩ := of_look_eq_some looked
    exact ⟨u, mem_scan_active.2 ⟨t, member, looked⟩, keptId.trans sameId, keptKind.trans sameKind⟩

theorem Distinct.scan {p : Pending} (h : p.Distinct) (now limit : UInt32) (force : Bool) :
    (p.scan now limit force).2.Distinct := by
  constructor
  · have apart := List.pairwise_append.1 h.apart
    unfold all
    rw [scan_staged, List.pairwise_append]
    refine ⟨?_, apart.2.1, ?_⟩
    · rw [scan_eq_looks, List.pairwise_filterMap]
      refine apart.1.imp fun {t u} differ t' looked u' looked' => ?_
      obtain ⟨kind, id, -⟩ := of_look_eq_some looked
      obtain ⟨kind', id', -⟩ := of_look_eq_some looked'
      unfold Apart
      rw [kind, kind', id, id']
      exact differ
    · intro u member v staged
      obtain ⟨t, member, looked⟩ := mem_scan_active.1 member
      obtain ⟨kind, id, -⟩ := of_look_eq_some looked
      unfold Apart
      rw [kind, id]
      exact apart.2.2 t member v staged
  · rw [scan_staged]
    exact h.staged

/-! ## What waits for one acknowledgement -/

section

variable {p : Pending} {kind other : AckKind} {id id' : UInt16}

theorem contains_congr {q : Pending}
    (same : ∀ t : Transaction, t.isFor kind id = true → (t ∈ q.active ↔ t ∈ p.active)) :
    q.contains kind id = p.contains kind id := by
  unfold contains
  rw [Bool.eq_iff_iff, List.any_eq_true, List.any_eq_true]
  constructor
  · intro given
    rcases given with ⟨t, member, fits⟩
    exact ⟨t, (same t fits).1 member, fits⟩
  · intro given
    rcases given with ⟨t, member, fits⟩
    exact ⟨t, (same t fits).2 member, fits⟩

theorem contains_of_subset {q : Pending} (fewer : q.active ⊆ p.active)
    (present : q.contains kind id = true) : p.contains kind id = true := by
  obtain ⟨t, member, fits⟩ := contains_iff.1 present
  exact contains_iff.2 ⟨t, fewer member, fits⟩

theorem isFor_other {t : Transaction} (apart : ¬ (other = kind ∧ id' = id))
    (fits : t.isFor kind id = true) : t.isFor other id' = false := by
  obtain ⟨rfl, rfl⟩ := Transaction.isFor_iff.1 fits
  rw [← Bool.not_eq_true, Transaction.isFor_iff]
  intro given
  rcases given with ⟨rfl, rfl⟩
  exact apart ⟨rfl, rfl⟩

theorem contains_take_other (apart : ¬ (other = kind ∧ id' = id)) :
    (p.take other id').2.contains kind id = p.contains kind id :=
  contains_congr fun _ fits => mem_take_active (isFor_other apart fits)

theorem contains_remove_other (apart : ¬ (other = kind ∧ id' = id)) :
    (p.remove other id').2.contains kind id = p.contains kind id :=
  contains_congr fun _ fits => mem_remove_active (isFor_other apart fits)

theorem contains_remove_self (h : p.Distinct) (kind : AckKind) (id : UInt16) :
    (p.remove kind id).2.contains kind id = false := by
  unfold remove
  split
  next t found =>
    rw [oldest?_eq_find?] at found
    have fits : t.isFor kind id = true :=
      List.find?_some (p := fun u : Transaction => u.isFor kind id) found
    obtain ⟨rfl, rfl⟩ := Transaction.isFor_iff.1 fits
    rw [contains_eq_false_iff]
    intro u active
    have staged := List.mem_of_find?_eq_some found
    exact ((List.pairwise_append.1 h.apart).2.2 u active t staged).not_isFor
  · exact contains_take_self h kind id

theorem contains_insert_other {t : Transaction} (apart : ¬ (t.awaits = kind ∧ t.packetId = id)) :
    (p.insert t).2.contains kind id = p.contains kind id := by
  apply contains_congr
  intro u fits
  have unfit : u.isFor t.awaits t.packetId = false := isFor_other apart fits
  change u ∈ (join ⟨p.active, []⟩ t).toList ↔ u ∈ p.active
  have start : (Queue.toList ⟨p.active, []⟩) = p.active := by simp [Queue.toList]
  rw [toList_join, start]
  split
  · constructor
    · intro member
      obtain ⟨v, old, same⟩ := List.mem_map.1 member
      split at same
      · subst same
        rw [Transaction.isFor_iff.2 ⟨rfl, rfl⟩] at unfit
        cases unfit
      · exact same ▸ old
    · intro member
      exact List.mem_map.2 ⟨u, member, by rw [unfit]; rfl⟩
  · constructor
    · intro member
      rcases List.mem_append.1 member with old | new
      · exact old
      · cases List.mem_singleton.1 new
        rw [Transaction.isFor_iff.2 ⟨rfl, rfl⟩] at unfit
        cases unfit
    · exact List.mem_append_left _

/-- Nothing staged waits for an acknowledgement of the broker's side. -/
theorem contains_migrate (h : p.Distinct) (remote : kind.isLocal = false) (id : UInt16) :
    p.migrate.2.contains kind id = p.contains kind id := by
  apply contains_congr
  intro t fits
  rw [migrate_of_distinct h]
  refine mem_all.trans ⟨fun member => member.resolve_right fun staged => ?_, Or.inl⟩
  have own := h.staged t staged
  rw [(Transaction.isFor_iff.1 fits).2, remote] at own
  cases own

end

end Pending

end Mqtt
