import Mqtt.Config.Json

/-!
# Passing over JSON values

What passes over the value of an unknown key passes over every value of the grammar and stops at
the character that ends it, for the value's own length bounds how often a value, an entry or an
element begins in it (`Json.passed_of_formed`).
-/

namespace Mqtt.Config.Json

open Document

variable {c : Char} {cs t key value rest tail ahead : List Char} {first : Bool}

/-! ## Between tokens -/

@[simp]
theorem skipBlanks_gap (gap : Gap) (cs : List Char) : skipBlanks (gap.val ++ cs) = skipBlanks cs :=
  List.dropWhile_append_of_pos gap.property

theorem skipBlanks_cons (ink : isBlank c = false) : skipBlanks (c :: cs) = c :: cs :=
  List.dropWhile_cons_of_neg (by rw [ink]; nofun)

theorem skipBlanks_gap_cons (gap : Gap) (ink : isBlank c = false) (cs : List Char) :
    skipBlanks (gap.val ++ c :: cs) = c :: cs := by
  rw [skipBlanks_gap, skipBlanks_cons ink]

theorem isBlank_of_endsValue (ends : endsValue c = true) : isBlank c = false := by
  simp only [endsValue, Bool.or_eq_true, beq_iff_eq] at ends
  rcases ends with (rfl | rfl) | rfl <;> rfl

/-! ## Between quotes -/

theorem enclosed_of_plain (plain : ∀ c ∈ t, c ≠ '"' ∧ c ≠ '\\') : Enclosed t := by
  induction t with
  | nil => exact .nil
  | cons c t ih =>
    rw [List.forall_mem_cons] at plain
    exact .plain plain.1.1 plain.1.2 (ih plain.2)

theorem quoted_enclosed (enclosed : Enclosed t) (taken rest : List Char) :
    quoted false taken (t ++ '"' :: rest) = some (taken.reverse ++ t, rest) := by
  induction enclosed generalizing taken with
  | nil =>
    rw [List.nil_append, quoted, if_pos ⟨rfl, rfl⟩, List.append_nil]
  | @plain c cs unquoted unescaped _ ih =>
    rw [List.cons_append, quoted, if_neg (fun closes => unquoted closes.1),
      beq_eq_false_iff_ne.2 unescaped, Bool.false_and, ih, List.reverse_cons, List.append_assoc]
    rfl
  | @escaped c cs _ ih =>
    -- The backslash leaves the reader escaped, so whatever follows it is taken.
    rw [List.cons_append, List.cons_append, quoted, if_neg (by simp), quoted, if_neg (by simp)]
    simp [ih]

theorem text_enclosed (enclosed : Enclosed t) (rest : List Char) :
    text ('"' :: (t ++ '"' :: rest)) = some (String.ofList t, rest) := by
  rw [text, quoted_enclosed enclosed]
  rfl

/-! ## Values -/

theorem of_isPlain (plain : isPlain c = true) :
    isBlank c = false ∧ endsValue c = false ∧ c ≠ '"' ∧ c ≠ '{' ∧ c ≠ '[' := by
  refine ⟨?_, ?_, ?_, ?_, ?_⟩
  · refine Bool.eq_false_iff.2 fun blank => ?_
    simp only [isBlank, Bool.or_eq_true, beq_iff_eq] at blank
    rcases blank with ((rfl | rfl) | rfl) | rfl <;> cases plain
  · refine Bool.eq_false_iff.2 fun ends => ?_
    simp only [endsValue, Bool.or_eq_true, beq_iff_eq] at ends
    rcases ends with (rfl | rfl) | rfl <;> cases plain
  all_goals
    rintro rfl
    cases plain

/-- A value begins with a character that neither stands between tokens nor ends a value. -/
theorem starts_of_formed (formed : Formed .value value) :
    ∃ c cs, value = c :: cs ∧ isBlank c = false ∧ endsValue c = false := by
  cases formed with
  | plain some plain =>
    obtain ⟨c, cs, rfl⟩ := List.exists_cons_of_ne_nil some
    obtain ⟨ink, goes, -⟩ := of_isPlain (plain c List.mem_cons_self)
    exact ⟨c, cs, rfl, ink, goes⟩
  | text | emptyObject | object | emptyList | list => exact ⟨_, _, rfl, rfl, rfl⟩

theorem length_pos_of_formed (formed : Formed .value value) : 0 < value.length := by
  obtain ⟨c, cs, rfl, -⟩ := starts_of_formed formed
  exact Nat.succ_pos _

theorem skipBlanks_value (formed : Formed .value value) (rest : List Char) :
    skipBlanks (value ++ rest) = value ++ rest := by
  obtain ⟨c, cs, rfl, ink, -⟩ := starts_of_formed formed
  exact skipBlanks_cons ink

/-! ## Up to a value -/

/-- What stands in front of an entry or an element. -/
def lead (first : Bool) : List Char :=
  if first then [] else [',']

theorem skipBlanks_entry (s : Spacing) (key value tail : List Char) :
    skipBlanks (s.entry key value ++ tail) =
      '"' :: (key ++ '"' :: (s.afterKey.val ++ ':' ::
        (s.beforeValue.val ++ (value ++ (s.after.val ++ tail))))) := by
  rw [Spacing.entry]
  simp only [List.append_assoc, List.cons_append, skipBlanks_gap]
  exact skipBlanks_cons rfl

theorem keyColon_entry (s : Spacing) (enclosed : Enclosed key) (formed : Formed .value value)
    (here : skipBlanks cs = skipBlanks (s.entry key value ++ tail)) :
    keyColon cs = some (String.ofList key, value ++ (s.after.val ++ tail)) := by
  rw [keyColon, here, skipBlanks_entry, text_enclosed enclosed]
  simp only [skipBlanks_gap]
  rw [skipBlanks_cons rfl]
  simp only [skipBlanks_gap, skipBlanks_value formed]

theorem nextKey_entry (s : Spacing) (enclosed : Enclosed key) (formed : Formed .value value)
    (here : skipBlanks ahead = skipBlanks (lead first ++ (s.entry key value ++ tail))) :
    nextKey first ahead = some (some (String.ofList key), value ++ (s.after.val ++ tail)) := by
  unfold nextKey
  cases first with
  | true =>
    have opens : skipBlanks ahead = _ := here.trans (skipBlanks_entry s key value tail)
    have read : keyColon (skipBlanks ahead) =
        some (String.ofList key, value ++ (s.after.val ++ tail)) :=
      keyColon_entry s enclosed formed (by rw [opens, skipBlanks_cons rfl, skipBlanks_entry])
    rw [opens] at read ⊢
    exact congrArg (Option.map _) read
  | false =>
    have opens : skipBlanks ahead = ',' :: (s.entry key value ++ tail) :=
      here.trans (skipBlanks_cons rfl)
    rw [opens]
    exact congrArg (Option.map _) (keyColon_entry s enclosed formed rfl)

theorem nextKey_close (here : skipBlanks ahead = '}' :: tail) :
    nextKey first ahead = some (none, tail) := by
  unfold nextKey
  rw [here]
  cases first <;> rfl

theorem nextElement_element (before : Gap) (formed : Formed .value value)
    (here : skipBlanks ahead = skipBlanks (lead first ++ (before.val ++ (value ++ tail)))) :
    nextElement first ahead = some (some false, value ++ tail) := by
  obtain ⟨c, cs, rfl, ink, goes⟩ := starts_of_formed formed
  have inner : skipBlanks (before.val ++ (c :: cs ++ tail)) = c :: (cs ++ tail) := by
    rw [skipBlanks_gap]
    exact skipBlanks_cons ink
  simp only [endsValue, Bool.or_eq_false_iff, beq_eq_false_iff_ne] at goes
  unfold nextElement
  cases first with
  | true =>
    rw [show skipBlanks ahead = c :: (cs ++ tail) from here.trans inner]
    split
    next closes => exact absurd (List.cons.inj closes).1 goes.2
    next comma => exact absurd (List.cons.inj comma).1 goes.1.1
    next => rfl
    next same _ _ => cases same
  | false =>
    rw [show skipBlanks ahead = ',' :: (before.val ++ (c :: cs ++ tail)) from
      here.trans (skipBlanks_cons rfl)]
    split
    next closes => cases closes
    next comma =>
      cases comma
      rw [inner]
      split
      next closes => exact absurd (List.cons.inj closes).1 goes.2
      next => rfl
    next same _ _ => cases same
    next parted => exact absurd rfl (parted _)

theorem nextElement_close (here : skipBlanks ahead = ']' :: tail) :
    nextElement first ahead = some (none, tail) := by
  unfold nextElement
  rw [here]
  cases first <;> rfl

/-! ## Past a value -/

/-- Where the characters between tokens end at one that ends a value, so does a plain value that
stands in front of them. -/
theorem dropWhile_of_skipBlanks (stops : skipBlanks rest = c :: tail)
    (ends : endsValue c = true) : rest.dropWhile (fun c => !endsValue c) = c :: tail := by
  induction rest with
  | nil => cases stops
  | cons b rest ih =>
    cases blank : isBlank b with
    | true =>
      have goes : endsValue b = false := by
        refine Bool.eq_false_iff.2 fun ends => ?_
        rw [isBlank_of_endsValue ends] at blank
        cases blank
      rw [skipBlanks, List.dropWhile_cons_of_pos blank] at stops
      rw [List.dropWhile_cons_of_pos (by rw [goes]; rfl)]
      exact ih stops
    | false =>
      rw [skipBlanks_cons blank] at stops
      cases stops
      exact List.dropWhile_cons_of_neg (by rw [ends]; nofun)

theorem skipPlain_of_dropWhile {first : Char} (goes : endsValue first = false)
    (past : (first :: cs).dropWhile (fun c => !endsValue c) = c :: tail) :
    skipPlain (first :: cs) = some (c :: tail) := by
  rw [skipPlain, goes, if_neg nofun, past]

theorem skipValue_plain (nonempty : cs ≠ []) (plain : ∀ c ∈ cs, isPlain c = true)
    (stops : skipBlanks rest = c :: tail) (ends : endsValue c = true) (fuel : Nat) :
    skipValue (fuel + 1) (cs ++ rest) = some (c :: tail) := by
  obtain ⟨first, more, rfl⟩ := List.exists_cons_of_ne_nil nonempty
  obtain ⟨ink, goes, noQuote, noBrace, noBracket⟩ := of_isPlain (plain first List.mem_cons_self)
  have past : (first :: more ++ rest).dropWhile (fun c => !endsValue c) = c :: tail := by
    rw [List.dropWhile_append_of_pos, dropWhile_of_skipBlanks stops ends]
    intro b member
    rw [(of_isPlain (plain b member)).2.1]
    rfl
  rw [skipValue, show skipBlanks (first :: more ++ rest) = _ from skipBlanks_cons ink]
  split
  next opens => exact absurd (List.cons.inj opens).1 noQuote
  next opens => exact absurd (List.cons.inj opens).1 noBrace
  next opens => exact absurd (List.cons.inj opens).1 noBracket
  next =>
    exact skipPlain_of_dropWhile goes past

theorem skipValue_text (enclosed : Enclosed t) (fuel : Nat) (rest : List Char) :
    skipValue (fuel + 1) ('"' :: t ++ ['"'] ++ rest) = some rest := by
  rw [skipValue, List.append_assoc, List.cons_append, skipBlanks_cons rfl]
  change (quoted false [] (t ++ '"' :: rest)).map _ = _
  rw [quoted_enclosed enclosed]
  rfl

theorem skipEntries_close (here : skipBlanks ahead = '}' :: tail) (fuel : Nat) :
    skipEntries (fuel + 1) first ahead = some tail := by
  rw [skipEntries, nextKey_close here]

theorem skipEntries_entry {fuel : Nat} {rest : List Char} (s : Spacing) (enclosed : Enclosed key)
    (formed : Formed .value value)
    (here : skipBlanks ahead = skipBlanks (lead first ++ (s.entry key value ++ tail)))
    (past : skipValue fuel (value ++ (s.after.val ++ tail)) = some rest) :
    skipEntries (fuel + 1) first ahead = skipEntries fuel false rest := by
  rw [skipEntries, nextKey_entry s enclosed formed here]
  dsimp only
  rw [past]

theorem skipElements_close (here : skipBlanks ahead = ']' :: tail) (fuel : Nat) :
    skipElements (fuel + 1) first ahead = some tail := by
  rw [skipElements, nextElement_close here]

theorem skipElements_element {fuel : Nat} {rest : List Char} (before : Gap)
    (formed : Formed .value value)
    (here : skipBlanks ahead = skipBlanks (lead first ++ (before.val ++ (value ++ tail))))
    (past : skipValue fuel (value ++ tail) = some rest) :
    skipElements (fuel + 1) first ahead = skipElements fuel false rest := by
  rw [skipElements, nextElement_element before formed here]
  dsimp only
  rw [past]

theorem le_length_entry (s : Spacing) (key value : List Char) :
    value.length + 3 ≤ (s.entry key value).length := by
  simp only [Spacing.entry, List.length_append, List.length_cons]
  omega

/-- Whether what passes over a part of a text passes over this one up to what ends it, given as
much fuel as it has characters. -/
def Passes : Part → List Char → Prop
  | .value, cs => ∀ fuel rest c tail, cs.length ≤ fuel → skipBlanks rest = c :: tail →
    endsValue c = true →
    ∃ rest', skipValue fuel (cs ++ rest) = some rest' ∧ skipBlanks rest' = c :: tail
  | .entries, cs => ∀ fuel first ahead tail, cs.length < fuel →
    skipBlanks ahead = skipBlanks (lead first ++ (cs ++ '}' :: tail)) →
    skipEntries fuel first ahead = some tail
  | .elements, cs => ∀ fuel first ahead tail, cs.length < fuel →
    skipBlanks ahead = skipBlanks (lead first ++ (cs ++ ']' :: tail)) →
    skipElements fuel first ahead = some tail

/-- Every part of the grammar is passed over.  An entry or an element is longer than its value, so
one beginning spent on it leaves enough for the value and for what comes after. -/
theorem passed_of_formed {part : Part} (formed : Formed part cs) : Passes part cs := by
  induction formed with
  | plain nonempty plain =>
    intro fuel rest c tail long stops ends
    obtain ⟨fuel, rfl⟩ := Nat.exists_eq_add_of_le'
      (Nat.le_trans (List.length_pos_iff.2 nonempty) long)
    rw [skipValue_plain nonempty plain stops ends]
    exact ⟨_, rfl, skipBlanks_cons (isBlank_of_endsValue ends)⟩
  | text enclosed =>
    intro fuel rest c tail long stops ends
    obtain ⟨fuel, rfl⟩ := Nat.exists_eq_add_of_le' (Nat.le_trans (Nat.le_add_left 1 _) long)
    exact ⟨rest, skipValue_text enclosed fuel rest, stops⟩
  | emptyObject gap =>
    intro fuel rest c tail long stops ends
    rw [List.length_append, List.length_cons, List.length_singleton] at long
    obtain ⟨fuel, rfl⟩ := Nat.exists_eq_add_of_le' (show 2 ≤ fuel by omega)
    refine ⟨rest, ?_, stops⟩
    change skipEntries (fuel + 1) true (gap.val ++ ['}'] ++ rest) = some rest
    rw [List.append_assoc]
    exact skipEntries_close (skipBlanks_gap_cons gap rfl rest) fuel
  | @object es _ ih =>
    intro fuel rest c tail long stops ends
    rw [List.length_append, List.length_cons, List.length_singleton] at long
    obtain ⟨fuel, rfl⟩ := Nat.exists_eq_add_of_le' (show 1 ≤ fuel by omega)
    refine ⟨rest, ?_, stops⟩
    change skipEntries fuel true (es ++ ['}'] ++ rest) = some rest
    rw [List.append_assoc]
    exact ih fuel true _ rest (by omega) rfl
  | emptyList gap =>
    intro fuel rest c tail long stops ends
    rw [List.length_append, List.length_cons, List.length_singleton] at long
    obtain ⟨fuel, rfl⟩ := Nat.exists_eq_add_of_le' (show 2 ≤ fuel by omega)
    refine ⟨rest, ?_, stops⟩
    change skipElements (fuel + 1) true (gap.val ++ [']'] ++ rest) = some rest
    rw [List.append_assoc]
    exact skipElements_close (skipBlanks_gap_cons gap rfl rest) fuel
  | @list es _ ih =>
    intro fuel rest c tail long stops ends
    rw [List.length_append, List.length_cons, List.length_singleton] at long
    obtain ⟨fuel, rfl⟩ := Nat.exists_eq_add_of_le' (show 1 ≤ fuel by omega)
    refine ⟨rest, ?_, stops⟩
    change skipElements fuel true (es ++ [']'] ++ rest) = some rest
    rw [List.append_assoc]
    exact ih fuel true _ rest (by omega) rfl
  | @entry s key v enclosed formed ih =>
    intro fuel first ahead tail long here
    have room := le_length_entry s key v
    obtain ⟨fuel, rfl⟩ := Nat.exists_eq_add_of_le' (show 2 ≤ fuel by omega)
    obtain ⟨rest, past, stops⟩ := ih (fuel + 1) (s.after.val ++ '}' :: tail) '}' tail (by omega)
      (skipBlanks_gap_cons s.after rfl tail) rfl
    rw [skipEntries_entry s enclosed formed here past]
    exact skipEntries_close stops fuel
  | @entries s key v es enclosed formed _ ih later =>
    intro fuel first ahead tail long here
    have room := le_length_entry s key v
    rw [List.length_append, List.length_cons] at long
    obtain ⟨fuel, rfl⟩ := Nat.exists_eq_add_of_le' (show 1 ≤ fuel by omega)
    rw [List.append_assoc, List.cons_append] at here
    obtain ⟨rest, past, stops⟩ := ih fuel _ ',' (es ++ '}' :: tail) (by omega)
      (skipBlanks_gap_cons s.after rfl _) rfl
    rw [skipEntries_entry s enclosed formed here past]
    exact later fuel false rest tail (by omega) (stops.trans (skipBlanks_cons rfl).symm)
  | @element before after v formed ih =>
    intro fuel first ahead tail long here
    rw [List.length_append, List.length_append] at long
    have some := length_pos_of_formed formed
    obtain ⟨fuel, rfl⟩ := Nat.exists_eq_add_of_le' (show 2 ≤ fuel by omega)
    rw [List.append_assoc, List.append_assoc] at here
    obtain ⟨rest, past, stops⟩ := ih (fuel + 1) (after.val ++ ']' :: tail) ']' tail (by omega)
      (skipBlanks_gap_cons after rfl tail) rfl
    rw [skipElements_element before formed here past]
    exact skipElements_close stops fuel
  | @elements before after v es formed _ ih later =>
    intro fuel first ahead tail long here
    simp only [List.length_append, List.length_cons] at long
    obtain ⟨fuel, rfl⟩ := Nat.exists_eq_add_of_le' (show 1 ≤ fuel by omega)
    simp only [List.append_assoc, List.cons_append] at here
    obtain ⟨rest, past, stops⟩ := ih fuel _ ',' (es ++ ']' :: tail) (by omega)
      (skipBlanks_gap_cons after rfl _) rfl
    rw [skipElements_element before formed here past]
    exact later fuel false rest tail (by omega) (stops.trans (skipBlanks_cons rfl).symm)

end Mqtt.Config.Json
