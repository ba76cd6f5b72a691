import Mathlib.Data.List.Infix
import Mqtt.Proofs.Looks
import Mqtt.Proofs.Shelf

/-!
# What becomes of transactions

The transactions of a client are a map in the order of coming, of those that are active, and a
queue, of those that are staged.  `Register` is this map and this queue, and it keeps account:
each transaction that is added gets a number, and what is done to the register tells which of
them part from it and why.  Numbers are the account's own; the client knows none, and two
transactions that look the same have two.

Whatever is done to the transactions of a client, in any order, comes to what it does to the
register (`Pending.registered`).  Three things are told of each operation and then of any number of
them: what the register shows (`Mirrors`), what it holds and lets go (`Register.Settles`), and why
it lets it go (`Record.Lawful`).
-/

namespace Mqtt

/-! ## What is done to transactions -/

/-- The transaction that is given up. -/
def Action.expired? : Action → Option Transaction
  | expire t => some t
  | _ => none

theorem Transaction.expired?_remedy (now limit : UInt32) (t : Transaction) :
    (t.remedy now limit).expired? = if t.awaits.isRequest then some t else none := by
  unfold remedy
  split
  · rfl
  · split <;> rfl

namespace Pending

/-- What is done to the transactions of a client. -/
inductive Op where
  | insert (t : Transaction)
  | stage (t : Transaction)
  | migrate
  | take (kind : AckKind) (id : UInt16)
  | remove (kind : AckKind) (id : UInt16)
  | scan (now limit : UInt32) (force : Bool)
  | warnFrom (threshold : Nat)
  | purge
  deriving DecidableEq

/-- What is handed back. -/
inductive Answer where
  | done
  | warned (count : Option Nat)
  | found (t : Option Transaction)
  | asked (actions : List Action)
  deriving DecidableEq

/-- The transaction that is added. -/
def Op.adds? : Op → Option Transaction
  | insert t | stage t => some t
  | _ => none

/-- The transactions that the caller gets. -/
def Answer.handed : Answer → List Transaction
  | done | warned _ => []
  | found t => t.toList
  | asked actions => actions.filterMap Action.expired?

/-- Does one thing to the transactions. -/
def perform (p : Pending) : Op → Answer × Pending
  | .insert t => let (count, p) := p.insert t; (.warned count, p)
  | .stage t => (.done, p.stage t)
  | .migrate => let (count, p) := p.migrate; (.warned count, p)
  | .take kind id => let (t, p) := p.take kind id; (.found t, p)
  | .remove kind id => let (t, p) := p.remove kind id; (.found t, p)
  | .scan now limit force => let (actions, p) := p.scan now limit force; (.asked actions, p)
  | .warnFrom threshold => (.done, { p with threshold })
  | .purge => (.done, p.purge)

/-- Does one thing after the other. -/
def performs (p : Pending) : List Op → List Answer × Pending
  | [] => ([], p)
  | op :: ops =>
    let (answer, p) := p.perform op
    let (answers, p) := p.performs ops
    (answer :: answers, p)

/-! ## The register -/

/-- A transaction that is accounted for. -/
structure Item where
  /-- How many were added before it. -/
  serial : Nat
  transaction : Transaction
  deriving DecidableEq

namespace Item

/-- What the transaction waits for, and under which identifier. -/
def key (i : Item) : AckKind × UInt16 :=
  i.transaction.key

/-- What never changes about an item. -/
def mark (i : Item) : Nat × (AckKind × UInt16) × Subject :=
  (i.serial, i.key, i.transaction.subject)

/-- What is left of an item when it is looked at. -/
def look (now limit : UInt32) (force : Bool) (i : Item) : Option Item :=
  if i.transaction.lapses now then none
  else some { i with
    transaction :=
      if i.transaction.isDue now force then i.transaction.tended now limit else i.transaction }

theorem mark_of_look {now limit : UInt32} {force : Bool} {i j : Item}
    (looked : i.look now limit force = some j) : j.mark = i.mark := by
  unfold look at looked
  split at looked
  · cases looked
  · cases looked
    unfold mark key
    dsimp only
    split <;> rfl

theorem key_of_look {now limit : UInt32} {force : Bool} {i j : Item}
    (looked : i.look now limit force = some j) : j.key = i.key :=
  congrArg (·.2.1) (mark_of_look looked)

/-- Transactions that are added one after the other, when so many were added before. -/
def number (count : Nat) (ts : List Transaction) : List Item :=
  (ts.zipIdx count).map fun (t, serial) => { serial, transaction := t }

end Item

/-- Why an item parts from the register. -/
inductive Fate where
  /-- Another has come in its place. -/
  | replaced (successor : Item)
  /-- The caller got it. -/
  | returned
  /-- Everything was dropped. -/
  | purged
  deriving DecidableEq

/-- What comes of one thing that is done to the register. -/
structure Record where
  answer : Answer
  parted : List (Item × Fate) := []

theorem map_fst_parted (items : List Item) (fate : Fate) :
    (items.map (·, fate)).map (·.1) = items := by
  rw [List.map_map]
  exact List.map_id _

namespace Record

/-- The items that parted. -/
def gone (record : Record) : List Item :=
  record.parted.map (·.1)

/-- The transactions of those items that the caller got. -/
def returned (record : Record) : List Transaction :=
  record.parted.filterMap fun (i, fate) => if fate = .returned then some i.transaction else none

theorem gone_map (answer : Answer) (items : List Item) (fate : Fate) :
    gone ⟨answer, items.map (·, fate)⟩ = items :=
  map_fst_parted items fate

/-- Whether items parted as they may when something is done: one is replaced only by one with its
key that becomes active, the caller got those that are handed back, and all else stays unless
everything is dropped. -/
structure Lawful (op : Op) (record : Record) : Prop where
  replaced : ∀ {i j}, (i, .replaced j) ∈ record.parted →
    j.key = i.key ∧ (op = .migrate ∨ ∃ t, op = .insert t)
  returned : record.returned = record.answer.handed
  purged : ∀ {i}, (i, .purged) ∈ record.parted → op = .purge

end Record

/-- The transactions of a client, accounted for. -/
structure Register where
  active : Shelf Item.key := .empty
  /-- The staged ones, the oldest first. -/
  queue : List Item := []
  threshold : Nat
  /-- How many were added so far. -/
  count : Nat := 0

/-- What is said of a number that went through some values: the threshold, if the number rose to
it from the one before. -/
def report (threshold : Nat) (sizes : List Nat) : Option Nat :=
  if 0 < threshold ∧ [threshold - 1, threshold] <:+: sizes then some threshold else none

/-- The items in whose places others come, one after the other. -/
def displaced (s : Shelf Item.key) : List Item → List (Item × Fate)
  | [] => []
  | i :: later => (s.get i.key).toList.map (·, .replaced i) ++ displaced (s.put i) later

namespace Register

/-- All items, the active ones first. -/
def holding (r : Register) : List Item :=
  r.active.entries ++ r.queue

/-- Makes items active, one after the other. -/
def put (r : Register) (items : List Item) : Record × Register :=
  ({ answer := .warned (report r.threshold ((items.scanl Shelf.put r.active).map Shelf.size))
     parted := displaced r.active items },
    { r with active := items.foldl Shelf.put r.active })

/-- Takes out the active item with a key. -/
def take (r : Register) (k : AckKind × UInt16) : Record × Register :=
  ({ answer := .found ((r.active.get k).map Item.transaction)
     parted := (r.active.get k).toList.map (·, .returned) },
    { r with active := r.active.erase k })

/-- Takes out an item with a key, the first of the queue if there is one. -/
def remove (r : Register) (k : AckKind × UInt16) : Record × Register :=
  match r.queue.find? (·.key = k) with
  | some i =>
    ({ answer := .found (some i.transaction), parted := [(i, .returned)] },
      { r with queue := r.queue.eraseP (·.key = k) })
  | none => r.take k

/-- Looks at every active item. -/
def scan (r : Register) (now limit : UInt32) (force : Bool) : Record × Register :=
  ({ answer := .asked (((r.active.entries.map Item.transaction).filter
        (Transaction.isDue now force)).map (Transaction.remedy now limit))
     parted := (r.active.entries.filter (·.transaction.lapses now)).map (·, .returned) },
    { r with active := r.active.adjust (Item.look now limit force) Item.key_of_look })

/-- Does one thing to the register. -/
def perform (r : Register) : Op → Record × Register
  | .insert t => { r with count := r.count + 1 }.put [⟨r.count, t⟩]
  | .stage t =>
    ({ answer := .done }, { r with queue := r.queue ++ [⟨r.count, t⟩], count := r.count + 1 })
  | .migrate => { r with queue := [] }.put r.queue
  | .take kind id => r.take (kind, id)
  | .remove kind id => r.remove (kind, id)
  | .scan now limit force => r.scan now limit force
  | .warnFrom threshold => ({ answer := .done }, { r with threshold })
  | .purge =>
    ({ answer := .done, parted := r.holding.map (·, .purged) },
      { r with active := .empty, queue := [] })

/-- Does one thing after the other. -/
def performs (r : Register) : List Op → List Record × Register
  | [] => ([], r)
  | op :: ops =>
    let (record, r) := r.perform op
    let (records, r) := r.performs ops
    (record :: records, r)

end Register

/-! ## Counts -/

theorem size_le_foldl_put (s : Shelf Item.key) (items : List Item) :
    s.size ≤ (items.foldl Shelf.put s).size := by
  induction items generalizing s with
  | nil => exact Nat.le_refl _
  | cons i items ih =>
    have grown := ih (s.put i)
    have put := s.size_put i
    rw [List.foldl_cons]
    split at put <;> omega

/-- While items are put on a shelf one after the other, what there is rises from one number to the
next if it was no more than the one before and is no less than the other after. -/
theorem rises_iff (n : Nat) (s : Shelf Item.key) (items : List Item) :
    [n, n + 1] <:+: (items.scanl Shelf.put s).map Shelf.size ↔
      s.size ≤ n ∧ n + 1 ≤ (items.foldl Shelf.put s).size := by
  induction items generalizing s with
  | nil =>
    constructor
    · intro rises
      have long := rises.length_le
      simp at long
    · rintro ⟨before, after⟩
      exact absurd (Nat.le_trans after before) (Nat.not_succ_le_self n)
  | cons i items ih =>
    obtain ⟨sizes, next⟩ : ∃ sizes, (items.scanl Shelf.put (s.put i)).map Shelf.size =
        (s.put i).size :: sizes := by
      cases items with
      | nil => exact ⟨[], by rw [List.scanl_nil, List.map_singleton]⟩
      | cons j items => exact ⟨_, by rw [List.scanl_cons, List.map_cons]⟩
    -- the first rise is told from the shelf and the next, all later ones by induction
    have first : [n, n + 1] <+: s.size :: (s.put i).size :: sizes ↔
        n = s.size ∧ n + 1 = (s.put i).size := by
      simp [List.cons_prefix_cons]
    have later := ih (s.put i)
    rw [next] at later
    rw [List.scanl_cons, List.map_cons, next, List.infix_cons_iff, first, later, List.foldl_cons]
    have put := s.size_put i
    have grown := size_le_foldl_put (s.put i) items
    split at put <;> omega

/-- The number of active items is reported by what it was before and what it is after. -/
theorem report_sizes (threshold : Nat) (s : Shelf Item.key) (items : List Item) :
    report threshold ((items.scanl Shelf.put s).map Shelf.size) =
      if s.size < threshold ∧ threshold ≤ (items.foldl Shelf.put s).size then some threshold
      else none := by
  unfold report
  refine if_congr ?_ rfl rfl
  cases threshold with
  | zero => simp
  | succ n =>
    rw [Nat.add_sub_cancel, rises_iff]
    omega

/-! ## What the register shows -/

theorem isFor_eq (t : Transaction) (kind : AckKind) (id : UInt16) :
    t.isFor kind id = decide (t.key = (kind, id)) := by
  rw [Bool.eq_iff_iff, Transaction.isFor_iff, decide_eq_true_iff, Transaction.key, Prod.mk.injEq]
  exact and_comm

theorem isFor_comp (kind : AckKind) (id : UInt16) :
    (fun t : Transaction => t.isFor kind id) ∘ Item.transaction =
      fun i => decide (i.key = (kind, id)) :=
  funext fun _ => isFor_eq _ _ _

/-- Making the staged transactions active takes no other way when there are none. -/
theorem migrate_eq_activate (p : Pending) :
    p.migrate = { p with staged := [] }.activate p.staged.reverse := by
  obtain ⟨active, staged, threshold⟩ := p
  cases staged with
  | cons t older => rfl
  | nil =>
    have unchanged : (Queue.toList ⟨active, []⟩ : List Transaction) = active := by
      simp [Queue.toList]
    unfold migrate activate warning
    dsimp only [List.reverse_nil, List.foldl_nil]
    rw [unchanged, if_pos List.isEmpty_nil, if_neg (by omega)]

/-- Whether a register shows what a client has: the same transactions in the same order. -/
structure Mirrors (r : Register) (p : Pending) : Prop where
  active : p.active = r.active.entries.map Item.transaction
  staged : p.staged.reverse = r.queue.map Item.transaction
  threshold : p.threshold = r.threshold

theorem toList_join_entries {q : Queue Transaction} {s : Shelf Item.key}
    (same : q.toList = s.entries.map Item.transaction) (i : Item) :
    (join q i.transaction).toList = (s.put i).entries.map Item.transaction := by
  have fits : ∀ j : Item, j.transaction.isFor i.transaction.awaits i.transaction.packetId =
      decide (j.key = i.key) := fun j => isFor_eq _ _ _
  have present : q.toList.any (·.isFor i.transaction.awaits i.transaction.packetId) = true ↔
      i.key ∈ s.keys := by
    rw [same, s.mem_keys_iff_any, List.any_map]
    simp only [Function.comp_def, fits]
  rw [toList_join, s.entries_put, same]
  rw [same] at present
  by_cases there : i.key ∈ s.keys
  · rw [if_pos (present.2 there), if_pos there, List.map_map, List.map_map]
    refine List.map_congr_left fun j _ => ?_
    simp only [Function.comp_apply, fits, decide_eq_true_eq]
    split <;> rfl
  · rw [if_neg (mt present.1 there), if_neg there, List.map_append, List.map_singleton]

theorem toList_foldl_join_entries {q : Queue Transaction} {s : Shelf Item.key}
    (same : q.toList = s.entries.map Item.transaction) (items : List Item) :
    ((items.map Item.transaction).foldl join q).toList =
      (items.foldl Shelf.put s).entries.map Item.transaction := by
  induction items generalizing q s with
  | nil => exact same
  | cons i items ih => exact ih (toList_join_entries same i)

namespace Mirrors

variable {r : Register} {p : Pending}

theorem put (h : Mirrors r p) (items : List Item) :
    (r.put items).1.answer = .warned (p.activate (items.map Item.transaction)).1 ∧
      Mirrors (r.put items).2 (p.activate (items.map Item.transaction)).2 := by
  have start : (Queue.toList ⟨p.active, []⟩) = r.active.entries.map Item.transaction := by
    rw [← h.active]
    simp [Queue.toList]
  have after := toList_foldl_join_entries start items
  refine ⟨?_, after, h.staged, h.threshold⟩
  unfold Register.put activate warning
  dsimp only
  rw [report_sizes, after, h.active, h.threshold, List.length_map, List.length_map,
    Shelf.length_entries, Shelf.length_entries]

theorem take (h : Mirrors r p) (kind : AckKind) (id : UInt16) :
    (r.take (kind, id)).1.answer = .found (p.take kind id).1 ∧
      Mirrors (r.take (kind, id)).2 (p.take kind id).2 := by
  unfold Register.take Pending.take
  refine ⟨?_, ?_, h.staged, h.threshold⟩
  · rw [h.active, List.find?_map, isFor_comp, Shelf.get_eq_find?]
  · dsimp only
    rw [h.active, List.eraseP_map, isFor_comp, Shelf.entries_erase]

theorem remove (h : Mirrors r p) (kind : AckKind) (id : UInt16) :
    (r.remove (kind, id)).1.answer = .found (p.remove kind id).1 ∧
      Mirrors (r.remove (kind, id)).2 (p.remove kind id).2 := by
  unfold Register.remove Pending.remove
  rw [oldest?_eq_find?, h.staged, List.find?_map, isFor_comp]
  cases r.queue.find? fun i => decide (i.key = (kind, id)) with
  | none => exact h.take kind id
  | some i =>
    refine ⟨rfl, h.active, ?_, h.threshold⟩
    dsimp only [Option.map_some]
    rw [reverse_dropOldest, h.staged, List.eraseP_map, isFor_comp]

theorem scan (h : Mirrors r p) (now limit : UInt32) (force : Bool) :
    (r.scan now limit force).1.answer = .asked (p.scan now limit force).1 ∧
      Mirrors (r.scan now limit force).2 (p.scan now limit force).2 := by
  rw [p.scan_eq]
  unfold Register.scan
  refine ⟨by rw [h.active], ?_, h.staged, h.threshold⟩
  dsimp only
  rw [h.active, Shelf.entries_adjust]
  induction r.active.entries with
  | nil => rfl
  | cons i items ih =>
    rw [List.map_cons, List.filterMap_cons, Item.look]
    cases lapses : i.transaction.lapses now with
    | true => simpa [lapses] using ih
    | false => simpa [lapses] using ih

/-- Whatever is done, a register shows what the client does. -/
theorem perform (h : Mirrors r p) (op : Op) :
    (p.perform op).1 = (r.perform op).1.answer ∧ Mirrors (r.perform op).2 (p.perform op).2 := by
  cases op with
  | insert t =>
    have counted : Mirrors { r with count := r.count + 1 } p := ⟨h.active, h.staged, h.threshold⟩
    exact (counted.put [⟨r.count, t⟩]).imp_left Eq.symm
  | stage t =>
    refine ⟨rfl, h.active, ?_, h.threshold⟩
    dsimp only [Register.perform, Pending.perform, Pending.stage]
    rw [List.reverse_cons, h.staged, List.map_append, List.map_singleton]
  | migrate =>
    have emptied : Mirrors { r with queue := [] } { p with staged := [] } :=
      ⟨h.active, rfl, h.threshold⟩
    have moved := emptied.put r.queue
    rw [← h.staged, ← p.migrate_eq_activate] at moved
    exact moved.imp_left Eq.symm
  | take kind id => exact (h.take kind id).imp_left Eq.symm
  | remove kind id => exact (h.remove kind id).imp_left Eq.symm
  | scan now limit force => exact (h.scan now limit force).imp_left Eq.symm
  | warnFrom threshold => exact ⟨rfl, h.active, h.staged, rfl⟩
  | purge => exact ⟨rfl, rfl, rfl, h.threshold⟩

theorem performs (h : Mirrors r p) (ops : List Op) :
    (p.performs ops).1 = (r.performs ops).1.map Record.answer ∧
      Mirrors (r.performs ops).2 (p.performs ops).2 := by
  induction ops generalizing r p with
  | nil => exact ⟨rfl, h⟩
  | cons op ops ih =>
    obtain ⟨answered, mirrored⟩ := h.perform op
    obtain ⟨later, last⟩ := ih mirrored
    exact ⟨congrArg₂ List.cons answered later, last⟩

end Mirrors

/-! ## What the register holds and lets go -/

theorem displaced_perm (s : Shelf Item.key) (items : List Item) :
    ((items.foldl Shelf.put s).entries ++ (displaced s items).map (·.1)).Perm
      (s.entries ++ items) := by
  induction items generalizing s with
  | nil => simp [displaced]
  | cons i items ih =>
    have first := s.entries_put_perm i
    have later := ih (s.put i)
    rw [displaced, List.map_append, map_fst_parted, List.foldl_cons, ← List.append_assoc]
    calc List.Perm _ ((items.foldl Shelf.put (s.put i)).entries ++
            (displaced (s.put i) items).map (·.1) ++ (s.get i.key).toList) :=
          perm_append_right_comm _ _ _
      List.Perm _ ((s.put i).entries ++ items ++ (s.get i.key).toList) := later.append_right _
      List.Perm _ ((s.put i).entries ++ (s.get i.key).toList ++ items) :=
          perm_append_right_comm _ _ _
      List.Perm _ (s.entries ++ [i] ++ items) := first.append_right _
      _ = s.entries ++ i :: items := by rw [List.append_assoc, List.singleton_append]

theorem key_of_displaced {s : Shelf Item.key} {items : List Item} {i : Item} {fate : Fate}
    (parted : (i, fate) ∈ displaced s items) : ∃ j, fate = .replaced j ∧ j.key = i.key := by
  induction items generalizing s with
  | nil => cases parted
  | cons j items ih =>
    rcases List.mem_append.1 parted with first | later
    · obtain ⟨k, stood, same⟩ := List.mem_map.1 first
      cases same
      exact ⟨j, rfl, (s.keyed (Option.mem_toList.1 stood)).symm⟩
    · exact ih later

namespace Register

variable {r : Register}

/-- Whether all that a register held and all that was added is still held or is gone, each once,
and the numbers went on. -/
structure Settles (r : Register) (added : List Transaction) (gone : List Item) (r' : Register) :
    Prop where
  count : r'.count = r.count + added.length
  kept : ((r'.holding ++ gone).map Item.mark).Perm
    ((r.holding ++ Item.number r.count added).map Item.mark)

/-- Nothing is added. -/
theorem Settles.of_perm {r' : Register} {gone : List Item} (count : r'.count = r.count)
    (kept : (r'.holding ++ gone).Perm r.holding) : Settles r [] gone r' := by
  refine ⟨count, ?_⟩
  rw [Item.number, List.zipIdx_nil, List.map_nil, List.append_nil]
  exact kept.map _

theorem put_perm (r : Register) (items : List Item) :
    ((r.put items).2.holding ++ (r.put items).1.gone).Perm
      (r.active.entries ++ items ++ r.queue) := by
  have put := displaced_perm r.active items
  exact (perm_append_right_comm _ _ _).trans (put.append_right _)

theorem take_settles (r : Register) (k : AckKind × UInt16) :
    Settles r [] (r.take k).1.gone (r.take k).2 := by
  have taken := r.active.entries_perm k
  refine .of_perm rfl ?_
  rw [take, Record.gone_map]
  refine List.perm_append_comm.trans ?_
  unfold holding
  rw [← List.append_assoc]
  exact taken.symm.append_right _

theorem remove_settles (r : Register) (k : AckKind × UInt16) :
    Settles r [] (r.remove k).1.gone (r.remove k).2 := by
  unfold remove
  split
  next i found =>
    have removed := perm_find?_eraseP (·.key = k) r.queue
    rw [found] at removed
    refine .of_perm rfl ?_
    unfold holding
    rw [List.append_assoc]
    exact (List.perm_append_comm.trans removed.symm).append_left _
  · exact r.take_settles k

/-- Looks keep all items but those that they give up. -/
theorem look_perm (now limit : UInt32) (force : Bool) (items : List Item) :
    ((items.filterMap (Item.look now limit force) ++
        items.filter (·.transaction.lapses now)).map Item.mark).Perm (items.map Item.mark) := by
  induction items with
  | nil => exact .refl _
  | cons i items ih =>
    rw [List.map_append] at ih ⊢
    cases looked : i.look now limit force with
    | some j =>
      have stays : ¬ i.transaction.lapses now = true := by
        intro lapses
        rw [Item.look, if_pos lapses] at looked
        cases looked
      rw [List.filterMap_cons_some looked, List.filter_cons, if_neg stays, List.map_cons,
        List.map_cons, Item.mark_of_look looked]
      exact ih.cons _
    | none =>
      have lapses : i.transaction.lapses now = true := by
        by_contra stays
        rw [Item.look, if_neg stays] at looked
        cases looked
      rw [List.filterMap_cons_none looked, List.filter_cons, if_pos lapses, List.map_cons,
        List.map_cons]
      exact List.perm_middle.trans (ih.cons _)

theorem scan_settles (r : Register) (now limit : UInt32) (force : Bool) :
    Settles r [] (r.scan now limit force).1.gone (r.scan now limit force).2 := by
  have looked := look_perm now limit force r.active.entries
  refine ⟨rfl, ?_⟩
  rw [scan, Record.gone_map, Item.number, List.zipIdx_nil, List.map_nil, List.append_nil]
  unfold holding
  dsimp only
  rw [Shelf.entries_adjust]
  refine ((perm_append_right_comm _ _ _).map _).trans ?_
  have all := looked.append_right (r.queue.map Item.mark)
  rwa [← List.map_append, ← List.map_append] at all

/-- Whatever is done, what the register held and what is added is held or gone. -/
theorem settles (r : Register) (op : Op) :
    Settles r op.adds?.toList (r.perform op).1.gone (r.perform op).2 := by
  cases op with
  | insert t =>
    refine ⟨rfl, ?_⟩
    have put := put_perm { r with count := r.count + 1 } [⟨r.count, t⟩]
    exact (put.trans (perm_append_right_comm _ _ _)).map _
  | stage t =>
    refine ⟨rfl, .of_eq ?_⟩
    change List.map _ (_ ++ (r.queue ++ [_]) ++ []) = _
    rw [List.append_nil, ← List.append_assoc]
    rfl
  | migrate =>
    have put := put_perm { r with queue := [] } r.queue
    rw [List.append_nil] at put
    exact .of_perm rfl put
  | take kind id => exact r.take_settles (kind, id)
  | remove kind id => exact r.remove_settles (kind, id)
  | scan now limit force => exact r.scan_settles now limit force
  | warnFrom threshold => exact .of_perm rfl (.of_eq (List.append_nil _))
  | purge =>
    refine .of_perm rfl (.of_eq ?_)
    rw [perform, Record.gone_map]
    rfl

theorem number_append (count : Nat) (ts us : List Transaction) :
    Item.number count (ts ++ us) =
      Item.number count ts ++ Item.number (count + ts.length) us := by
  unfold Item.number
  rw [List.zipIdx_append, List.map_append]

theorem Settles.trans {r' r'' : Register} {added later : List Transaction} {gone left : List Item}
    (h : Settles r added gone r') (h' : Settles r' later left r'') :
    Settles r (added ++ later) (gone ++ left) r'' := by
  refine ⟨by rw [h'.count, h.count, List.length_append, Nat.add_assoc], ?_⟩
  have before := h.kept
  have after := h'.kept
  rw [h.count] at after
  rw [number_append, ← List.append_assoc, ← List.append_assoc]
  simp only [List.map_append] at before after ⊢
  calc List.Perm _ (r''.holding.map Item.mark ++ left.map Item.mark ++ gone.map Item.mark) :=
        perm_append_right_comm _ _ _
    List.Perm _ (r'.holding.map Item.mark ++
        (Item.number (r.count + added.length) later).map Item.mark ++ gone.map Item.mark) :=
      after.append_right _
    List.Perm _ (r'.holding.map Item.mark ++ gone.map Item.mark ++
        (Item.number (r.count + added.length) later).map Item.mark) :=
      perm_append_right_comm _ _ _
    List.Perm _ _ := before.append_right _

/-- Whatever is done, and however much, what the register held and what is added is held or
gone. -/
theorem performs_settles (r : Register) (ops : List Op) :
    Settles r (ops.filterMap Op.adds?) ((r.performs ops).1.flatMap Record.gone)
      (r.performs ops).2 := by
  induction ops generalizing r with
  | nil => exact .of_perm rfl (.of_eq (List.append_nil _))
  | cons op ops ih =>
    have first := (r.settles op).trans (ih (r.perform op).2)
    have added : (op :: ops).filterMap Op.adds? = op.adds?.toList ++ ops.filterMap Op.adds? := by
      cases adds : op.adds? <;> simp [adds]
    rw [added]
    exact first

/-- What becomes active replaces at most what has its key. -/
theorem put_lawful (r : Register) (items : List Item) {op : Op}
    (makes : op = .migrate ∨ ∃ t, op = .insert t) : (r.put items).1.Lawful op := by
  refine ⟨fun parted => ?_, List.filterMap_eq_nil_iff.2 ?_, fun parted => ?_⟩
  · obtain ⟨j, same, own⟩ := key_of_displaced parted
    cases same
    exact ⟨own, makes⟩
  · rintro ⟨i, fate⟩ parted
    obtain ⟨j, rfl, -⟩ := key_of_displaced parted
    rfl
  · obtain ⟨j, same, -⟩ := key_of_displaced parted
    cases same

/-- Items that part because the caller got them part as they may, whatever is done. -/
theorem lawful_of_returned {op : Op} {answer : Answer} (items : List Item)
    (handed : items.map Item.transaction = answer.handed) :
    Record.Lawful op ⟨answer, items.map (·, .returned)⟩ := by
  refine ⟨fun parted => ?_, ?_, fun parted => ?_⟩
  · obtain ⟨i, -, same⟩ := List.mem_map.1 parted
    cases same
  · rw [← handed, Record.returned, List.filterMap_map, ← List.filterMap_eq_map]
    rfl
  · obtain ⟨i, -, same⟩ := List.mem_map.1 parted
    cases same

theorem take_lawful (r : Register) (k : AckKind × UInt16) (op : Op) :
    (r.take k).1.Lawful op :=
  lawful_of_returned _ Option.toList_map.symm

theorem remove_lawful (r : Register) (k : AckKind × UInt16) (op : Op) :
    (r.remove k).1.Lawful op := by
  unfold remove
  split
  next i _ => exact lawful_of_returned [i] rfl
  · exact r.take_lawful k op

/-- The caller gets what a scan gives up. -/
theorem scan_lawful (r : Register) (now limit : UInt32) (force : Bool) (op : Op) :
    (r.scan now limit force).1.Lawful op := by
  apply lawful_of_returned
  rw [Answer.handed, List.filterMap_map, List.filterMap_filter, List.filterMap_map,
    ← List.filterMap_eq_map, List.filterMap_filter]
  refine List.filterMap_congr fun i _ => ?_
  rw [Transaction.lapses_eq now force]
  dsimp only [Function.comp_apply]
  rw [Transaction.expired?_remedy]
  cases i.transaction.isDue now force <;> cases i.transaction.awaits.isRequest <;> rfl

/-- Whatever is done, items part as they may. -/
theorem perform_lawful (r : Register) (op : Op) : (r.perform op).1.Lawful op := by
  cases op with
  | insert t => exact put_lawful _ _ (.inr ⟨t, rfl⟩)
  | stage t => exact ⟨nofun, rfl, nofun⟩
  | migrate => exact put_lawful _ _ (.inl rfl)
  | take kind id => exact r.take_lawful _ _
  | remove kind id => exact r.remove_lawful _ _
  | scan now limit force => exact r.scan_lawful _ _ _ _
  | warnFrom threshold => exact ⟨nofun, rfl, nofun⟩
  | purge =>
    refine ⟨fun parted => ?_, ?_, fun _ => rfl⟩
    · obtain ⟨i, -, same⟩ := List.mem_map.1 parted
      cases same
    · refine List.filterMap_eq_nil_iff.2 fun x parted => ?_
      obtain ⟨i, -, rfl⟩ := List.mem_map.1 parted
      rfl

theorem performs_lawful (r : Register) (ops : List Op) :
    List.Forall₂ Record.Lawful ops (r.performs ops).1 := by
  induction ops generalizing r with
  | nil => exact .nil
  | cons op ops ih => exact .cons (r.perform_lawful op) (ih _)

end Register

/-- Numbers are given once. -/
theorem map_serial_number (count : Nat) (ts : List Transaction) :
    (Item.number count ts).map Item.serial = List.range' count ts.length := by
  rw [Item.number, List.map_map, ← List.zipIdx_map_snd]
  rfl

theorem Mirrors.nodup {r : Register} {p : Pending} (h : Mirrors r p) :
    (p.active.map Transaction.key).Nodup := by
  have keys := r.active.map_key_entries
  rw [h.active, List.map_map]
  change (r.active.entries.map Item.key).Nodup
  rw [keys]
  exact r.active.nodup

/-- **The register.**  Whatever is done to the transactions of a new client, in any order: what it
hands back is what the register does, its active transactions are those of a map in the order of
coming and its staged ones those of a queue, and no two active ones have one key.

Of all that are ever added each is accounted for once, by its number, its key and its subject: it
is active, it is staged, or it parted.  None parts unless another with its key becomes active, or
the caller gets it, or everything is dropped; and the caller gets nothing but what parts. -/
theorem registered (threshold : Nat) (ops : List Op) :
    let client := ({ threshold } : Pending).performs ops
    let account := ({ threshold } : Register).performs ops
    let gone := account.1.flatMap Record.gone
    client.1 = account.1.map Record.answer ∧
      client.2.active = account.2.active.entries.map Item.transaction ∧
      client.2.staged.reverse = account.2.queue.map Item.transaction ∧
      client.2.threshold = account.2.threshold ∧
      (client.2.active.map Transaction.key).Nodup ∧
      ((account.2.holding ++ gone).map Item.serial).Nodup ∧
      ((account.2.holding ++ gone).map Item.mark).Perm
        ((Item.number 0 (ops.filterMap Op.adds?)).map Item.mark) ∧
      List.Forall₂ Record.Lawful ops account.1 := by
  intro client account gone
  have new : Mirrors ({ threshold } : Register) { threshold } := ⟨rfl, rfl, rfl⟩
  obtain ⟨answered, mirrored⟩ := new.performs ops
  have settled := (({ threshold } : Register).performs_settles ops).kept
  have serials := settled.map (·.1)
  rw [List.map_map, List.map_map] at serials
  refine ⟨answered, mirrored.active, mirrored.staged, mirrored.threshold, mirrored.nodup,
    serials.nodup_iff.2 ?_, settled, Register.performs_lawful _ ops⟩
  change ((Item.number 0 (ops.filterMap Op.adds?)).map Item.serial).Nodup
  rw [map_serial_number]
  exact List.nodup_range'

/-- Staged transactions become active in their order.  The first takes the place of a younger one
with its key, and the number of active ones is two on the way. -/
example :
    let message (id : UInt16) (since : UInt32) : Transaction :=
      { awaits := .pubAck, packetId := id, timer := ⟨since, 1000⟩, packet := .request [0x32],
        subject := .asked "t" .atLeastOnce id }
    let client := ({ threshold := 2 } : Pending).performs
      [.stage (message 1 0), .stage (message 2 5), .stage (message 3 7), .insert (message 1 9),
        .migrate]
    client.1 = [.done, .done, .done, .warned none, .warned (some 2)] ∧
      client.2.active = [message 1 0, message 2 5, message 3 7] := by
  decide

end Pending

end Mqtt
