import Mathlib.Data.List.Nodup

/-!
# Maps in the order of coming

A shelf is a map that also tells in which order its keys came.  To put something under a key that
is there changes what stands there and not where it stands; what is put under another key comes
last (`Shelf.put`).  To take something out leaves the order of all others (`Shelf.erase`), and so
it is when everything is looked at and changed or dropped (`Shelf.adjust`).

What stands on a shelf, in its order, is a list (`Shelf.entries`), and each thing that is done to
the shelf is told here as a thing done to that list.
-/

namespace Mqtt

/-! ## Parts of a list -/

section

variable {α κ : Type} {key : α → κ}

/-- The first that has a property and the rest are all that there are. -/
theorem perm_find?_eraseP (q : α → Bool) (as : List α) :
    as.Perm ((as.find? q).toList ++ as.eraseP q) := by
  induction as with
  | nil => exact .refl _
  | cons a as ih =>
    cases fits : q a with
    | true => simp [fits]
    | false =>
      rw [List.find?_cons, List.eraseP_cons, fits]
      exact (ih.cons a).trans List.perm_middle.symm

theorem perm_append_right_comm (as bs cs : List α) :
    (as ++ bs ++ cs).Perm (as ++ cs ++ bs) := by
  rw [List.append_assoc, List.append_assoc]
  exact List.perm_append_comm.append_left as

/-- If no two have the same key, only one is dropped with it. -/
theorem eraseP_eq_filter [BEq κ] [LawfulBEq κ] {as : List α} (distinct : (as.map key).Nodup)
    (k : κ) : as.eraseP (key · == k) = as.filter (key · != k) := by
  induction as with
  | nil => rfl
  | cons a as ih =>
    obtain ⟨apart, distinct⟩ := List.nodup_cons.1 distinct
    by_cases same : key a = k
    · subst same
      have others : ∀ b ∈ as, key b ≠ key a := fun b member same =>
        apart (same ▸ List.mem_map_of_mem member)
      rw [List.eraseP_cons_of_pos (by simp), List.filter_cons_of_neg (by simp),
        List.filter_eq_self.2 (by simpa using others)]
    · rw [List.eraseP_cons_of_neg (by simpa using same),
        List.filter_cons_of_pos (by simpa using same), ih distinct]

end

/-! ## Shelves -/

/-- A map whose keys stand in the order in which they came.  What stands under a key has it. -/
@[ext]
structure Shelf {α κ : Type} (key : α → κ) where
  /-- The keys, the first that came first. -/
  keys : List κ
  /-- What stands under a key. -/
  get : κ → Option α
  nodup : keys.Nodup
  mem_keys : ∀ {k}, k ∈ keys ↔ (get k).isSome = true
  keyed : ∀ {k a}, get k = some a → key a = k

namespace Shelf

variable {α κ : Type} {key : α → κ}

/-- A shelf with nothing on it. -/
def empty : Shelf key where
  keys := []
  get _ := none
  nodup := .nil
  mem_keys := by simp
  keyed := nofun

/-- How much stands on a shelf. -/
def size (s : Shelf key) : Nat :=
  s.keys.length

/-- What stands on a shelf, in order. -/
def entries (s : Shelf key) : List α :=
  s.keys.filterMap s.get

section

variable [DecidableEq κ]

/-- Puts something under its key: in the place of what stood there, or last. -/
def put (s : Shelf key) (a : α) : Shelf key where
  keys := if key a ∈ s.keys then s.keys else s.keys ++ [key a]
  get := Function.update s.get (key a) (some a)
  nodup := by
    split
    · exact s.nodup
    next absent => exact List.nodup_append.2 ⟨s.nodup, List.nodup_singleton _, by
        rintro k member l last rfl
        exact absent (List.mem_singleton.1 last ▸ member)⟩
  mem_keys := by
    intro k
    by_cases same : k = key a
    · subst same
      rw [Function.update_self]
      split <;> simp [*]
    · rw [Function.update_of_ne same, ← s.mem_keys]
      split <;> simp [same]
  keyed := by
    intro k b there
    by_cases same : k = key a
    · subst same
      rw [Function.update_self] at there
      cases there
      rfl
    · rw [Function.update_of_ne same] at there
      exact s.keyed there

/-- Takes out what stands under a key. -/
def erase (s : Shelf key) (k : κ) : Shelf key where
  keys := s.keys.filter (· != k)
  get := Function.update s.get k none
  nodup := s.nodup.filter _
  mem_keys := by
    intro l
    by_cases same : l = k
    · subst same
      simp
    · rw [Function.update_of_ne same, ← s.mem_keys]
      simp [same]
  keyed := by
    intro l a there
    by_cases same : l = k
    · subst same
      rw [Function.update_self] at there
      cases there
    · rw [Function.update_of_ne same] at there
      exact s.keyed there

end

/-- Looks at all that stands on a shelf, and changes or drops it. -/
def adjust (s : Shelf key) (f : α → Option α) (keeps : ∀ {a b}, f a = some b → key b = key a) :
    Shelf key where
  keys := s.keys.filter fun k => ((s.get k).bind f).isSome
  get k := (s.get k).bind f
  nodup := s.nodup.filter _
  mem_keys := by
    intro k
    rw [List.mem_filter, s.mem_keys, and_iff_right_iff_imp]
    exact Option.isSome_of_isSome_bind
  keyed := by
    intro k b there
    obtain ⟨a, before, left⟩ := Option.bind_eq_some_iff.1 there
    exact (keeps left).trans (s.keyed before)

/-! ## What stands on a shelf -/

theorem map_key_entries (s : Shelf key) : s.entries.map key = s.keys := by
  have told : ∀ k ∈ s.keys, (s.get k).map key = some k := by
    intro k member
    obtain ⟨a, there⟩ := Option.isSome_iff_exists.1 (s.mem_keys.1 member)
    rw [there, Option.map_some, s.keyed there]
  rw [entries, List.map_filterMap, List.filterMap_congr told, List.filterMap_some]

theorem length_entries (s : Shelf key) : s.entries.length = s.size := by
  rw [size, ← s.map_key_entries, List.length_map]

theorem mem_entries {s : Shelf key} {a : α} : a ∈ s.entries ↔ s.get (key a) = some a := by
  rw [entries, List.mem_filterMap]
  constructor
  · rintro ⟨k, -, there⟩
    rwa [s.keyed there]
  · intro there
    exact ⟨key a, s.mem_keys.2 (by rw [there]; rfl), there⟩

@[simp]
theorem entries_empty : (empty : Shelf key).entries = [] :=
  rfl

theorem entries_adjust (s : Shelf key) {f : α → Option α}
    (keeps : ∀ {a b}, f a = some b → key b = key a) :
    (s.adjust f keeps).entries = s.entries.filterMap f := by
  unfold entries adjust
  rw [List.filterMap_filter, List.filterMap_filterMap]
  refine List.filterMap_congr fun k _ => ?_
  dsimp only
  cases (s.get k).bind f <;> rfl

section

variable [DecidableEq κ]

/-- What stands under a key is the first in order that has it. -/
theorem get_eq_find? (s : Shelf key) (k : κ) : s.get k = s.entries.find? (key · = k) := by
  cases found : s.entries.find? (key · = k) with
  | some a =>
    have member := mem_entries.1 (List.mem_of_find?_eq_some found)
    have same : key a = k := of_decide_eq_true (List.find?_some (p := (key · = k)) found)
    rwa [same] at member
  | none =>
    cases there : s.get k with
    | none => rfl
    | some a =>
      have member := mem_entries.2 (s.keyed there ▸ there)
      exact absurd (s.keyed there) (by simpa using List.find?_eq_none.1 found a member)

theorem mem_keys_iff_any (s : Shelf key) (k : κ) :
    k ∈ s.keys ↔ s.entries.any (key · = k) = true := by
  rw [← s.map_key_entries]
  simp

theorem entries_put (s : Shelf key) (a : α) :
    (s.put a).entries =
      if key a ∈ s.keys then s.entries.map fun b => if key b = key a then a else b
      else s.entries ++ [a] := by
  unfold entries put
  dsimp only
  split
  · rw [List.map_filterMap]
    refine List.filterMap_congr fun k member => ?_
    obtain ⟨b, there⟩ := Option.isSome_iff_exists.1 (s.mem_keys.1 member)
    rw [there, Option.map_some, s.keyed there]
    by_cases same : k = key a
    · rw [same, Function.update_self, if_pos rfl]
    · rw [Function.update_of_ne same, there, if_neg same]
  next absent =>
    rw [List.filterMap_append]
    congr 1
    · refine List.filterMap_congr fun k member => Function.update_of_ne ?_ _ _
      rintro rfl
      exact absent member
    · rw [List.filterMap_cons, Function.update_self]
      rfl

theorem entries_erase (s : Shelf key) (k : κ) :
    (s.erase k).entries = s.entries.eraseP (key · = k) := by
  have distinct : (s.entries.map key).Nodup := by
    rw [s.map_key_entries]
    exact s.nodup
  refine Eq.trans ?_ (eraseP_eq_filter distinct k).symm
  unfold entries erase
  rw [List.filterMap_filter, List.filter_filterMap]
  refine List.filterMap_congr fun l member => ?_
  obtain ⟨a, there⟩ := Option.isSome_iff_exists.1 (s.mem_keys.1 member)
  rw [there, Option.filter_some, s.keyed there]
  dsimp only
  by_cases same : l = k
  · simp [same]
  · rw [Function.update_of_ne same, there]

/-- What stands under a key and the rest are all that there is. -/
theorem entries_perm (s : Shelf key) (k : κ) :
    s.entries.Perm ((s.get k).toList ++ (s.erase k).entries) := by
  rw [s.get_eq_find?, s.entries_erase]
  exact perm_find?_eraseP _ _

theorem erase_put (s : Shelf key) (a : α) : (s.put a).erase (key a) = s.erase (key a) := by
  apply Shelf.ext
  · unfold erase put
    dsimp only
    split <;> simp
  · exact Function.update_idem _ _ _

/-- What is put there and what stood in its place are what stood there and what is put. -/
theorem entries_put_perm (s : Shelf key) (a : α) :
    ((s.put a).entries ++ (s.get (key a)).toList).Perm (s.entries ++ [a]) := by
  have placed : (s.put a).get (key a) = some a := Function.update_self _ _ _
  have after := (s.put a).entries_perm (key a)
  rw [placed, s.erase_put] at after
  have before := s.entries_perm (key a)
  calc ((s.put a).entries ++ (s.get (key a)).toList).Perm
        ([a] ++ (s.erase (key a)).entries ++ (s.get (key a)).toList) := after.append_right _
    List.Perm _ ([a] ++ (s.get (key a)).toList ++ (s.erase (key a)).entries) :=
      perm_append_right_comm _ _ _
    _ = [a] ++ ((s.get (key a)).toList ++ (s.erase (key a)).entries) := List.append_assoc _ _ _
    List.Perm _ ([a] ++ s.entries) := before.symm.append_left _
    List.Perm _ (s.entries ++ [a]) := List.perm_append_comm

/-- To put something there makes one more of what there is, or as many. -/
theorem size_put (s : Shelf key) (a : α) :
    (s.put a).size = if key a ∈ s.keys then s.size else s.size + 1 := by
  unfold size put
  dsimp only
  split
  · rfl
  · exact List.length_append

end

end Shelf

end Mqtt
