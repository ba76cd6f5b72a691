import Mqtt.Proofs.Grammar

/-!
# A lawful reader of settings

The reader of `Config.Json` reads each setting as it is written and the entries of a document one
after the other, wherever it stands between the tokens in front of them (`Json.entries_parted`).
So what it gives is what the entries set, which does not depend on the layout, and it obeys the
laws of readers (`Json.given?_lawful`).
-/

namespace Mqtt.Config

open Json Document

variable {c : Config} {f : Field} {s : Setting} {rest tail : List Char} {n max : Nat}

@[simp]
theorem field_get (c : Config) (f : Field) : (c.get f).field = f := by
  cases f <;> rfl

/-! ## Reading numbers -/

theorem le_ofDigitChars (ds : List Char) (n : Nat) : n ≤ Nat.ofDigitChars 10 ds n := by
  induction ds generalizing n with
  | nil => exact Nat.le_refl n
  | cons d ds ih =>
    have more := ih (10 * n + (d.toNat - '0'.toNat))
    rw [Nat.ofDigitChars_cons]
    omega

theorem digits_append {ds : List Char} (numerals : ∀ d ∈ ds, d.isDigit = true)
    (fits : Nat.ofDigitChars 10 ds n ≤ max) (rest : List Char) :
    digits max n (ds ++ rest) = digits max (Nat.ofDigitChars 10 ds n) rest := by
  induction ds generalizing n with
  | nil => rfl
  | cons d ds ih =>
    rw [List.forall_mem_cons] at numerals
    rw [Nat.ofDigitChars_cons] at fits ⊢
    have small := Nat.le_trans (le_ofDigitChars ds _) fits
    rw [List.cons_append, digits, if_pos numerals.1, ← ih numerals.2 fits]
    exact if_neg (Nat.not_lt.2 small)

/-- Only zero is written with a leading zero. -/
theorem eq_zero_of_toDigits {ds : List Char} (leading : Nat.toDigits 10 n = '0' :: ds) :
    n = 0 := by
  induction n using Nat.strongRecOn generalizing ds with
  | ind n ih =>
    rcases Nat.lt_or_ge n 10 with small | large
    · rw [Nat.toDigits_of_lt_base small] at leading
      have digit : ∀ k < 10, Nat.digitChar k = '0' → k = 0 := by decide
      exact digit n small (List.cons.inj leading).1
    · rw [Nat.toDigits_of_base_le (by decide) large] at leading
      rcases List.append_eq_cons_iff.1 leading with ⟨none, -⟩ | ⟨front, first, -⟩
      · exact absurd none Nat.toDigits_ne_nil
      · have zero := ih (n / 10) (by omega) first
        omega

theorem digits_stop (stops : ∀ d ∈ rest.head?, d.isDigit = false) :
    digits max n rest = some (n, rest) := by
  cases rest with
  | nil => rfl
  | cons d rest =>
    rw [digits, stops d rfl]
    rfl

theorem number_toDigits (fits : n ≤ max) (stops : ∀ d ∈ rest.head?, d.isDigit = false) :
    number max (Nat.toDigits 10 n ++ rest) = some (n, rest) := by
  have numerals : ∀ d ∈ Nat.toDigits 10 n, d.isDigit = true := fun d member =>
    Nat.isDigit_of_mem_toDigits (by decide) (by decide) member
  have whole : Nat.ofDigitChars 10 (Nat.toDigits 10 n) 0 = n := Nat.ofDigitChars_ten_toDigits
  have read : digits max 0 (Nat.toDigits 10 n ++ rest) = some (n, rest) := by
    rw [digits_append numerals (by rw [whole]; exact fits), whole, digits_stop stops]
  rcases Nat.eq_zero_or_pos n with rfl | positive
  · rfl
  · obtain ⟨d, ds, same⟩ := List.exists_cons_of_ne_nil (Nat.toDigits_ne_nil (n := n) (b := 10))
    have notZero : d ≠ '0' := by
      rintro rfl
      exact Nat.ne_of_gt positive (eq_zero_of_toDigits same)
    rw [same] at numerals read ⊢
    unfold number
    split
    next none => cases none
    next leading => exact absurd (List.cons.inj leading).1 notZero
    next first _ _ same =>
      rw [← (List.cons.inj same).1, if_pos (numerals d List.mem_cons_self)]
      exact read

/-! ## Settings as they are written -/

theorem Unescaped.enclosed {s : String} (unescaped : Unescaped s) : Enclosed s.toList :=
  enclosed_of_plain unescaped

theorem value_text (toSetting : String → Setting) {written : String}
    (unescaped : Unescaped written) (rest : List Char) :
    value text toSetting (quote written ++ rest) = some (some (toSetting written), rest) := by
  have read := text_enclosed unescaped.enclosed rest
  rw [String.ofList_toList] at read
  rw [quote, List.append_assoc]
  exact congrArg (Option.map _) read

theorem value_number (toSetting : Nat → Setting) (fits : n ≤ max)
    (stops : ∀ d ∈ rest.head?, d.isDigit = false) :
    value (number max) toSetting (Nat.toDigits 10 n ++ rest) =
      some (some (toSetting n), rest) := by
  unfold value
  split
  next other =>
    rcases List.append_eq_cons_iff.1 other with ⟨none, -⟩ | ⟨ds, first, -⟩
    · exact absurd none Nat.toDigits_ne_nil
    · have member : 'n' ∈ Nat.toDigits 10 n := first ▸ List.mem_cons_self
      cases Nat.isDigit_of_mem_toDigits (by decide) (by decide) member
  next =>
    rw [number_toDigits fits stops]
    rfl

theorem value_flag (toSetting : Bool → Setting) (b : Bool) (rest : List Char) :
    value flag toSetting ((toString b).toList ++ rest) = some (some (toSetting b), rest) := by
  cases b <;> rfl

theorem setting_null (f : Field) (rest : List Char) :
    setting f ("null".toList ++ rest) = some (none, rest) := by
  cases f <;> rfl

theorem setting_spell (legible : s.Legible) (stops : ∀ d ∈ rest.head?, d.isDigit = false) :
    setting s.field (s.spell ++ rest) = some (s.given?, rest) := by
  cases s with
  | host value | clientId value => exact value_text _ legible rest
  | username value | password value =>
    cases value with
    | none => rfl
    | some value =>
      rw [Setting.field, Setting.spell, Option.elim_some, setting, value_text _ (legible value rfl)]
      rfl
  | cleanSession value | autoReconnect value => exact value_flag _ value rest
  | pendingWarning value | maxPacketSize value =>
    exact value_number _ (Nat.le_pred_of_lt legible) stops
  | tcpPort value | keepAlive value | commandTimeout value | readTimeout value
  | connectTimeout value | reconnectInterval value | ackTimeout value | retryWarning value =>
    rw [Setting.field, Setting.spell, setting, value_number _ ?_ stops]
    · simp [Setting.given?]
    · exact Nat.le_pred_of_lt value.toNat_lt

theorem isPlain_of_isDigit {ch : Char} (digit : ch.isDigit = true) : isPlain ch = true := by
  simp [isPlain, Char.isAlphanum, digit]

theorem formed_quote {written : String} (unescaped : Unescaped written) :
    Formed .value (quote written) :=
  .text unescaped.enclosed

theorem formed_toDigits (n : Nat) : Formed .value (Nat.toDigits 10 n) :=
  .plain Nat.toDigits_ne_nil fun _ member =>
    isPlain_of_isDigit (Nat.isDigit_of_mem_toDigits (by decide) (by decide) member)

theorem formed_null : Formed .value "null".toList :=
  .plain (by decide) (List.all_eq_true.1 rfl)

/-- What is written for a setting is a value. -/
theorem Setting.Legible.formed (legible : s.Legible) : Formed .value s.spell := by
  cases s with
  | host value | clientId value => exact formed_quote legible
  | username value | password value =>
    cases value with
    | none => exact formed_null
    | some value => exact formed_quote (legible value rfl)
  | cleanSession value | autoReconnect value =>
    cases value <;> exact .plain (by decide) (List.all_eq_true.1 rfl)
  | pendingWarning value | maxPacketSize value => exact formed_toDigits value
  | tcpPort value | keepAlive value | commandTimeout value | readTimeout value
  | connectTimeout value | reconnectInterval value | ackTimeout value | retryWarning value =>
    exact formed_toDigits value.toNat

/-! ## Entries -/

theorem ofKey?_key (f : Field) : Field.ofKey? f.key = some f := by
  cases f <;> rfl

theorem unescaped_key (f : Field) : Unescaped f.key := by
  cases f <;> decide

namespace Document.Content

variable {content : Content}

theorem enclosed (content : Content) : Enclosed content.key := by
  cases content with
  | given f | null f => exact (unescaped_key f).enclosed
  | extra _ _ enclosed => exact enclosed

theorem formed (legible : c.Legible) (content : Content) : Formed .value (content.value c) := by
  cases content with
  | given f => exact (legible f).formed
  | null f => exact formed_null
  | extra _ _ _ _ formed => exact formed

/-- An entry that names a setting is read as what it sets. -/
theorem read (legible : c.Legible) (named : content.field? = some f)
    (stops : ∀ d ∈ rest.head?, d.isDigit = false) :
    Field.ofKey? (String.ofList content.key) = some f ∧
      setting f (content.value c ++ rest) = some (content.set? c, rest) := by
  cases content with
  | given f' =>
    cases named
    have read := setting_spell (legible f) stops
    rw [field_get] at read
    exact ⟨by rw [key, String.ofList_toList, ofKey?_key], read⟩
  | null f' =>
    cases named
    exact ⟨by rw [key, String.ofList_toList, ofKey?_key], setting_null f rest⟩
  | extra => cases named

/-- An entry that names no setting sets nothing. -/
theorem unread (c : Config) (named : content.field? = none) :
    Field.ofKey? (String.ofList content.key) = none ∧ content.set? c = none := by
  cases content with
  | given | null => cases named
  | extra _ _ _ unknown => exact ⟨unknown, rfl⟩

end Document.Content

/-- Entries one after the other, with a comma before each but the first of the object. -/
def parted : (first : Bool) → List (List Char) → List Char
  | _, [] => []
  | first, e :: es => lead first ++ (e ++ parted false es)

theorem intercalate_eq_parted (es : List (List Char)) :
    [','].intercalate es = parted true es := by
  induction es with
  | nil => rfl
  | cons e es ih =>
    cases es with
    | nil => simp [parted, lead]
    | cons e' es =>
      rw [List.intercalate_cons_cons, ih, List.append_assoc]
      rfl

/-- After an entry comes a comma or the end of the object. -/
theorem exists_of_parted (es : List (List Char)) (gap : Gap) (tail : List Char) :
    ∃ ch after, endsValue ch = true ∧
      skipBlanks (parted false es ++ (gap.val ++ '}' :: tail)) = ch :: after := by
  cases es with
  | nil => exact ⟨'}', tail, rfl, skipBlanks_gap_cons gap rfl tail⟩
  | cons e es => exact ⟨',', _, rfl, skipBlanks_cons rfl⟩

/-- No digit stands in front of what ends a value. -/
theorem noDigit_of_skipBlanks {ch : Char} (stops : skipBlanks rest = ch :: tail)
    (ends : endsValue ch = true) : ∀ d ∈ rest.head?, d.isDigit = false := by
  intro d front
  refine Bool.eq_false_iff.2 fun digit => ?_
  obtain ⟨ink, goes, -⟩ := of_isPlain (isPlain_of_isDigit digit)
  obtain ⟨rest, rfl⟩ := List.head?_eq_some_iff.1 front
  rw [skipBlanks_cons ink] at stops
  rw [(List.cons.inj stops).1, ends] at goes
  cases goes

theorem entries_known {fuel : Nat} {first : Bool} {seen : List Field} {key : String}
    {ahead rest' : List Char} {set? : Option Setting}
    (opened : nextKey first ahead = some (some key, rest)) (known : Field.ofKey? key = some f)
    (unseen : f ∉ seen) (read : setting f rest = some (set?, rest')) :
    entries (fuel + 1) first seen ahead =
      (entries fuel false (f :: seen) rest').map fun (settings, rest) =>
        (set?.toList ++ settings, rest) := by
  rw [entries, opened]
  dsimp only
  rw [known]
  dsimp only
  rw [if_neg unseen, read]

theorem entries_unknown {fuel : Nat} {first : Bool} {seen : List Field} {key : String}
    {ahead rest' : List Char} (opened : nextKey first ahead = some (some key, rest))
    (unknown : Field.ofKey? key = none) (past : skipValue fuel rest = some rest') :
    entries (fuel + 1) first seen ahead = entries fuel false seen rest' := by
  rw [entries, opened]
  dsimp only
  rw [unknown]
  dsimp only
  rw [past]

/-- The entries of a document are read as what they set, in their order.  The reader may
stand anywhere between the tokens in front of them (`here`), for with a plain value of an unknown
key it passes over what follows the value too, and with any other it does not. -/
theorem entries_parted (legible : c.Legible) {items : List Item} {fuel : Nat} {first : Bool}
    {seen : List Field} {ahead : List Char} {gap : Gap}
    (once : Once (items.map Item.content))
    (fresh : ∀ f ∈ (items.map Item.content).filterMap Content.field?, f ∉ seen)
    (long : (parted first (items.map (Item.spell c))).length < fuel)
    (here : skipBlanks ahead =
      skipBlanks (parted first (items.map (Item.spell c)) ++ (gap.val ++ '}' :: tail))) :
    entries fuel first seen ahead =
      some ((items.map Item.content).filterMap (Content.set? c), tail) := by
  induction items generalizing fuel first seen ahead with
  | nil =>
    obtain ⟨fuel, rfl⟩ := Nat.exists_eq_add_of_le' (show 1 ≤ fuel by omega)
    rw [entries, nextKey_close (here.trans (skipBlanks_gap_cons gap rfl tail))]
    rfl
  | cons i items ih =>
    rw [List.map_cons, parted, List.length_append, List.length_append] at long
    rw [List.map_cons, parted, List.append_assoc, List.append_assoc] at here
    rw [List.map_cons] at fresh ⊢
    unfold Once at once ih
    rw [List.map_cons] at once
    have room := le_length_entry i.spacing i.content.key (i.content.value c)
    change _ ≤ (i.spell c).length at room
    obtain ⟨fuel, rfl⟩ := Nat.exists_eq_add_of_le' (show 1 ≤ fuel by omega)
    obtain ⟨ch, after, ends, stops⟩ := exists_of_parted (items.map (Item.spell c)) gap tail
    have formed := i.content.formed legible
    have opened := nextKey_entry i.spacing i.content.enclosed formed here
    rw [← skipBlanks_gap i.spacing.after] at stops
    cases named : i.content.field? with
    | some f =>
      rw [List.filterMap_cons_some named, List.nodup_cons] at once
      rw [List.filterMap_cons_some named, List.forall_mem_cons] at fresh
      obtain ⟨known, read⟩ := Content.read legible named (noDigit_of_skipBlanks stops ends)
      have unsaid : ∀ g ∈ (items.map Item.content).filterMap Content.field?, g ∉ f :: seen := by
        intro g member
        rw [List.mem_cons, not_or]
        exact ⟨fun same => once.1 (same ▸ member), fresh.2 g member⟩
      rw [entries_known opened known fresh.1 read,
        ih once.2 unsaid (by omega) (skipBlanks_gap _ _), List.filterMap_cons]
      cases i.content.set? c <;> rfl
    | none =>
      rw [List.filterMap_cons_none named] at once fresh
      obtain ⟨unknown, nothing⟩ := Content.unread c named
      obtain ⟨rest, past, goesOn⟩ := passed_of_formed formed fuel _ ch after (by omega) stops ends
      rw [entries_unknown opened unknown past, ih once fresh (by omega) ?_,
        List.filterMap_cons_none nothing]
      rw [goesOn, ← stops, skipBlanks_gap]

/-- What the document of legible settings sets. -/
theorem settings?_spell (legible : c.Legible) {l : Layout} (once : Once l.contents) :
    settings? (l.spell c) = some (l.contents.filterMap (Content.set? c)) := by
  have document : (l.spell c).toList = l.before.val ++ '{' ::
      (parted true (l.items.map (Item.spell c)) ++ (l.inside.val ++ '}' :: l.after.val)) := by
    rw [Layout.spell, String.toList_ofList, intercalate_eq_parted]
    simp only [List.append_assoc, List.cons_append]
  have long : (parted true (l.items.map (Item.spell c))).length < 2 * (l.spell c).toList.length := by
    rw [document]
    simp only [List.length_append, List.length_cons]
    omega
  have rest : skipBlanks l.after.val = [] := by
    have none := skipBlanks_gap l.after []
    rwa [List.append_nil] at none
  have opening : skipBlanks (l.spell c).toList = '{' ::
      (parted true (l.items.map (Item.spell c)) ++ (l.inside.val ++ '}' :: l.after.val)) := by
    rw [document, skipBlanks_gap_cons l.before rfl]
  unfold settings?
  split
  next rest' opened =>
    rw [opening] at opened
    cases opened
    rw [entries_parted legible once (fun _ _ => List.not_mem_nil) long rfl]
    dsimp only
    rw [rest]
    rfl
  next none => exact absurd opening (none _)

/-! ## The laws -/

theorem given?_spell (legible : c.Legible) {l : Layout} (once : Once l.contents) :
    given? (l.spell c) =
      some ((l.contents.filterMap (Content.set? c)).foldr (fun s g => g.set s) {}) := by
  rw [given?, settings?_spell legible once]
  rfl

theorem contents_bare (contents : List Content) : (Layout.bare contents).contents = contents := by
  rw [Layout.bare, Layout.contents, List.map_map]
  exact List.map_id _

theorem given?_bare (legible : c.Legible) {contents : List Content} (once : Once contents) :
    given? ((Layout.bare contents).spell c) =
      some ((contents.filterMap (Content.set? c)).foldr (fun s g => g.set s) {}) := by
  have read := given?_spell legible (l := Layout.bare contents) (by rwa [contents_bare])
  rwa [contents_bare] at read

theorem once_of_cons {content : Content} {contents : List Content}
    (once : Once (content :: contents)) : Once contents :=
  List.Nodup.sublist ((List.sublist_cons_self content contents).filterMap _) once

/-- The reader obeys the laws. -/
theorem given?_lawful : Lawful given? where
  spaced legible once same := by
    rw [given?_spell legible once, given?_spell legible (same ▸ once), same]
  empty := by decide
  extra enclosed unknown formed legible once := by
    rw [given?_bare legible once, given?_bare legible (show Once (.extra _ _ _ _ _ :: _) from once)]
    rfl
  null legible once := by
    rw [given?_bare legible once, given?_bare legible (once_of_cons once)]
    rfl
  given legible once sets := by
    rw [given?_bare legible once, given?_bare legible (once_of_cons once),
      List.filterMap_cons_some (show Content.set? _ (.given _) = some _ from sets)]
    rfl

end Mqtt.Config
