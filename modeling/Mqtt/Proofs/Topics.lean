import Mathlib.Data.List.Forall2
import Mqtt.Topic
import Mqtt.Proofs.Wholeness

/-!
# Topics and filters

A path is parted at its slashes, and a filter is held against a name level by level.  Of a
filter that may be sent a `#` is the last level, so the walk along both is the relation of the
standard (`Covers`): as many levels as the name has, each `+` or the level of the name, or some
levels of that kind before a `#` that stands for the rest of the name.

The demands on a filter are a grammar of its levels (`IsFilter`).  They are what the writers and
the matching take for granted: the texts fit their lengths, and a filter without wildcards is
the name that it matches.
-/

namespace Mqtt

namespace Topic

/-! ## Levels -/

theorem levelsOf_eq_splitOn (path : List Char) : levelsOf path = path.splitOn '/' := by
  induction path with
  | nil => rfl
  | cons c path ih =>
    have parted : levelsOf path ≠ [] := ih ▸ List.splitOn_ne_nil '/' path
    obtain ⟨level, levels, split⟩ := List.exists_cons_of_ne_nil parted
    rw [List.splitOn_cons_eq_if_modifyHead, ← ih, levelsOf, List.foldr_cons, ← levelsOf, split]
    by_cases slash : c = '/'
    · rw [if_pos slash, if_pos (beq_iff_eq.2 slash)]
    · rw [if_neg slash, if_neg (mt beq_iff_eq.1 slash)]
      rfl

/-- A character other than a slash belongs to the first level. -/
theorem levelsOf_cons {c : Char} (other : c ≠ '/') (path : List Char) :
    ∃ level levels, levelsOf path = level :: levels ∧
      levelsOf (c :: path) = (c :: level) :: levels := by
  have parted : levelsOf path ≠ [] := levelsOf_eq_splitOn path ▸ List.splitOn_ne_nil '/' path
  obtain ⟨level, levels, split⟩ := List.exists_cons_of_ne_nil parted
  refine ⟨level, levels, split, ?_⟩
  rw [levelsOf, List.foldr_cons, ← levelsOf, split, if_neg other]

theorem levelsOf_slash (path : List Char) : levelsOf ('/' :: path) = [] :: levelsOf path :=
  rfl

/-- The characters of a path are those of its levels, and the slashes between them. -/
theorem mem_levelsOf {path : List Char} {c : Char} (other : c ≠ '/') :
    c ∈ path ↔ ∃ level ∈ levelsOf path, c ∈ level := by
  induction path with
  | nil => simp [levelsOf]
  | cons first path ih =>
    rw [List.mem_cons, ih]
    by_cases slash : first = '/'
    · rw [slash, levelsOf_slash]
      simp [other]
    · obtain ⟨level, levels, split, same⟩ := levelsOf_cons slash path
      rw [same, split]
      simp [or_assoc]

/-- A path opens with the first character of its first level, unless it opens with a slash. -/
theorem opening_levelsOf {path : List Char} {c : Char} (other : c ≠ '/') :
    opening (levelsOf path) = some c ↔ path.head? = some c := by
  cases path with
  | nil => simp [levelsOf, opening]
  | cons first path =>
    by_cases slash : first = '/'
    · rw [slash, levelsOf_slash]
      simp [opening, other.symm]
    · obtain ⟨level, levels, -, same⟩ := levelsOf_cons slash path
      rw [same]
      simp [opening]

/-! ## Matching -/

/-- Whether a level of a filter stands for a level of a name. -/
def StandsFor (filter name : List Char) : Prop :=
  filter = ['+'] ∨ filter = name

/-- Whether the levels of a filter cover those of a name: all of them one by one, or the first
of them one by one and the others by a `#`. -/
def Covers (filters names : List (List Char)) : Prop :=
  (['#'] ∉ filters ∧ List.Forall₂ StandsFor filters names) ∨
    ∃ front, filters = front ++ [['#']] ∧ front.length ≤ names.length ∧
      List.Forall₂ StandsFor front (names.take front.length)

theorem covers_nil_left {names : List (List Char)} : Covers [] names ↔ names = [] := by
  constructor
  · rintro (⟨-, each⟩ | ⟨front, same, -⟩)
    · exact List.forall₂_nil_left_iff.1 each
    · cases front <;> cases same
  · rintro rfl
    exact Or.inl ⟨List.not_mem_nil, .nil⟩

theorem covers_hash (names : List (List Char)) : Covers [['#']] names :=
  Or.inr ⟨[], rfl, Nat.zero_le _, List.Forall₂.nil⟩

theorem not_covers_nil_right {filter : List Char} {filters : List (List Char)}
    (level : filter ≠ ['#']) : ¬ Covers (filter :: filters) [] := by
  rintro (⟨-, each⟩ | ⟨front, same, short, -⟩)
  · cases each
  · cases List.length_eq_zero_iff.1 (Nat.le_zero.1 short)
    cases same
    exact level rfl

theorem covers_cons {filter name : List Char} {filters names : List (List Char)}
    (level : filter ≠ ['#']) :
    Covers (filter :: filters) (name :: names) ↔ StandsFor filter name ∧ Covers filters names := by
  constructor
  · rintro (⟨without, each⟩ | ⟨front, same, short, each⟩)
    · obtain ⟨first, others⟩ := List.forall₂_cons.1 each
      exact ⟨first, Or.inl ⟨fun member => without (List.mem_cons_of_mem _ member), others⟩⟩
    · cases front with
      | nil =>
        cases same
        exact absurd rfl level
      | cons first front =>
        cases same
        obtain ⟨first, others⟩ := List.forall₂_cons.1 each
        exact ⟨first, Or.inr ⟨front, rfl, Nat.le_of_succ_le_succ short, others⟩⟩
  · rintro ⟨first, ⟨without, each⟩ | ⟨front, rfl, short, each⟩⟩
    · refine Or.inl ⟨fun member => ?_, .cons first each⟩
      rcases List.mem_cons.1 member with hash | member
      · exact level hash.symm
      · exact without member
    · exact Or.inr ⟨filter :: front, rfl, Nat.succ_le_succ short, .cons first each⟩

/-- Whether a level may stand at its place in a filter: before the levels `rest`. -/
def MayStand (level : List Char) (rest : List (List Char)) : Prop :=
  ('+' ∉ level ∧ '#' ∉ level) ∨ level = ['+'] ∨ (level = ['#'] ∧ rest = [])

theorem any_isWildcard_eq_false {level : List Char} :
    level.any isWildcard = false ↔ '+' ∉ level ∧ '#' ∉ level := by
  rw [List.any_eq_false]
  constructor
  · intro plain
    exact ⟨fun plus => plain _ plus rfl, fun hash => plain _ hash rfl⟩
  · rintro ⟨noPlus, noHash⟩ c member wildcard
    rcases Bool.or_eq_true_iff.1 wildcard with plus | hash
    · exact noPlus (beq_iff_eq.1 plus ▸ member)
    · exact noHash (beq_iff_eq.1 hash ▸ member)

/-- What is demanded of the first level of a filter, and of the others. -/
theorem checkLevels_cons {level : List Char} {rest : List (List Char)} :
    checkLevels (level :: rest) = .ok () ↔
      MayStand level rest ∧ checkLevels rest = .ok () := by
  unfold MayStand
  by_cases hash : level = ['#']
  · subst hash
    change (if rest.isEmpty then Except.ok () else Except.error Fault.hashNotLast) = _ ↔ _
    cases rest <;> simp [checkLevels]
  by_cases plus : level = ['+']
  · subst plus
    change checkLevels rest = .ok () ↔ _
    simp
  have plain : checkLevels (level :: rest) =
      if level.any isWildcard then .error .wildcardInLevel else checkLevels rest := by
    rw [checkLevels]
    · exact plus
    · exact hash
  rw [plain, ← any_isWildcard_eq_false]
  cases level.any isWildcard <;> simp [hash, plus]

/-- The walk along the levels of a name and of a filter that may be sent decides whether the
filter covers the name. -/
theorem matchLevels_iff {filters : List (List Char)} (accepted : checkLevels filters = .ok ())
    (names : List (List Char)) : matchLevels names filters = true ↔ Covers filters names := by
  induction filters generalizing names with
  | nil =>
    rw [covers_nil_left]
    cases names <;> simp [matchLevels]
  | cons filter filters ih =>
    obtain ⟨place, others⟩ := checkLevels_cons.1 accepted
    by_cases hash : filter = ['#']
    · subst hash
      rcases place with ⟨-, noHash⟩ | plus | ⟨-, rfl⟩
      · exact absurd (List.mem_singleton_self '#') noHash
      · cases plus
      · simp [matchLevels, covers_hash]
    cases names with
    | nil =>
      have stuck : matchLevels [] (filter :: filters) = false := by
        unfold matchLevels
        split <;> simp_all
      simp [stuck, not_covers_nil_right hash]
    | cons name names =>
      rw [covers_cons hash, ← ih others]
      by_cases plus : filter = ['+']
      · subst plus
        simp [matchLevels, StandsFor]
      · have compared : matchLevels (name :: names) (filter :: filters) =
            (filter == name && matchLevels names filters) := by
          rw [matchLevels]
          · exact hash
          · exact plus
        simp [compared, StandsFor, plus]

theorem any_isWildcard_iff {first : Option Char} :
    first.any isWildcard = true ↔ first = some '+' ∨ first = some '#' := by
  cases first <;> simp [isWildcard]

theorem checkFilter_eq_ok {filter : String} :
    checkFilter filter = .ok () ↔
      checkText filter = .ok () ∧ checkLevels (levels filter) = .ok () := by
  unfold checkFilter
  cases checkText filter <;> simp [bind, Except.bind]

/-- **Matching.**  A filter that may be sent matches exactly the names that it covers, level by
level; but one that opens with a wildcard matches no name that opens with `$`. -/
theorem isMatch_iff {filter : String} (accepted : checkFilter filter = .ok ()) (name : String) :
    isMatch name filter = true ↔
      ¬ (name.toList.head? = some '$' ∧
          (filter.toList.head? = some '+' ∨ filter.toList.head? = some '#')) ∧
        Covers (filter.toList.splitOn '/') (name.toList.splitOn '/') := by
  obtain ⟨-, walked⟩ := checkFilter_eq_ok.1 accepted
  have hidden : (opening (levels name) == some '$' && (opening (levels filter)).any isWildcard) =
      true ↔ name.toList.head? = some '$' ∧
        (filter.toList.head? = some '+' ∨ filter.toList.head? = some '#') := by
    rw [Bool.and_eq_true, beq_iff_eq, any_isWildcard_iff, levels, levels,
      opening_levelsOf (by decide), opening_levelsOf (by decide), opening_levelsOf (by decide)]
  rw [isMatch, reaches, Bool.and_eq_true, Bool.not_eq_true', ← Bool.not_eq_true, hidden,
    matchLevels_iff walked, levels, levels, levelsOf_eq_splitOn, levelsOf_eq_splitOn]

theorem isMatch_iff_parent :
    checkFilter "a/#" = .ok () ∧ isMatch "a" "a/#" = true := by
  have accepted : checkFilter "a/#" = .ok () := by decide
  refine ⟨accepted, (isMatch_iff accepted "a").2 ⟨by decide, Or.inr ⟨[['a']], by decide, ?_⟩⟩⟩
  exact ⟨by decide, .cons (Or.inr rfl) .nil⟩

/-! ## The grammar -/

/-- Whether a text is a filter that may be sent: not empty, short enough for its length, without
NUL, and with every wildcard on a level of its own, a `#` on the last. -/
structure IsFilter (s : String) : Prop where
  nonempty : s ≠ ""
  short : s.utf8ByteSize ≤ 65535
  nulFree : '\x00' ∉ s.toList
  levels : ∀ front level rest, s.toList.splitOn '/' = front ++ level :: rest →
    MayStand level rest

theorem checkText_iff {s : String} :
    checkText s = .ok () ↔ s ≠ "" ∧ s.utf8ByteSize ≤ 65535 ∧ '\x00' ∉ s.toList := by
  unfold checkText
  by_cases empty : s = ""
  · simp [empty]
  by_cases long : 65535 < s.utf8ByteSize
  · simp [empty, long, Nat.not_le.2 long]
  · by_cases nul : '\x00' ∈ s.toList <;> simp [empty, long, nul, Nat.not_lt.1 long]

theorem checkLevels_iff {levels : List (List Char)} :
    checkLevels levels = .ok () ↔
      ∀ front level rest, levels = front ++ level :: rest → MayStand level rest := by
  induction levels with
  | nil => simp [checkLevels]
  | cons first levels ih =>
    rw [checkLevels_cons, ih]
    constructor
    · rintro ⟨place, others⟩ front level rest same
      cases front with
      | nil =>
        cases same
        exact place
      | cons _ front =>
        cases same
        exact others front level rest rfl
    · intro each
      exact ⟨each [] first levels rfl, fun front level rest same =>
        each (first :: front) level rest (congrArg _ same)⟩

theorem checkFilter_iff {s : String} : checkFilter s = .ok () ↔ IsFilter s := by
  rw [checkFilter_eq_ok, checkText_iff, checkLevels_iff, levels, levelsOf_eq_splitOn]
  constructor
  · rintro ⟨⟨nonempty, short, nulFree⟩, levels⟩
    exact ⟨nonempty, short, nulFree, levels⟩
  · intro h
    exact ⟨⟨h.nonempty, h.short, h.nulFree⟩, h.levels⟩

/-- A filter without wildcards has none in its levels. -/
theorem not_mem_of_mem_levels {s : String} {level : List Char} {c : Char} (other : c ≠ '/')
    (without : c ∉ s.toList) (member : level ∈ levels s) : c ∉ level :=
  fun inside => without ((mem_levelsOf other).2 ⟨level, member, inside⟩)

theorem checkLevels_of_plain {s : String} (noPlus : '+' ∉ s.toList) (noHash : '#' ∉ s.toList) :
    checkLevels (levels s) = .ok () := by
  refine checkLevels_iff.2 fun front level rest same => Or.inl ?_
  have member : level ∈ levels s := same ▸ List.mem_append_right _ List.mem_cons_self
  exact ⟨not_mem_of_mem_levels (by decide) noPlus member,
    not_mem_of_mem_levels (by decide) noHash member⟩

theorem checkName_iff {s : String} :
    checkName s = .ok () ↔ checkFilter s = .ok () ∧ '+' ∉ s.toList ∧ '#' ∉ s.toList := by
  have split : checkName s = .ok () ↔
      checkText s = .ok () ∧ s.toList.any isWildcard = false := by
    unfold checkName
    cases checkText s with
    | error e => simp [bind, Except.bind]
    | ok u =>
      cases s.toList.any isWildcard <;>
        simp [bind, Except.bind, pure, Except.pure, throw, throwThe, MonadExceptOf.throw]
  rw [split, any_isWildcard_eq_false, checkFilter_eq_ok]
  constructor
  · rintro ⟨text, noPlus, noHash⟩
    exact ⟨⟨text, checkLevels_of_plain noPlus noHash⟩, noPlus, noHash⟩
  · rintro ⟨⟨text, -⟩, plain⟩
    exact ⟨text, plain⟩

theorem forall₂_standsFor_iff {filters names : List (List Char)} (plain : ['+'] ∉ filters) :
    List.Forall₂ StandsFor filters names ↔ filters = names := by
  induction filters generalizing names with
  | nil => simp [List.forall₂_nil_left_iff, eq_comm]
  | cons filter filters ih =>
    obtain ⟨first, others⟩ := not_or.1 (mt List.mem_cons.2 plain)
    cases names with
    | nil => simp
    | cons name names => simp [ih others, StandsFor, Ne.symm first]

/-- A filter without wildcards covers its own levels and no others. -/
theorem covers_iff_of_plain {s : String} (noPlus : '+' ∉ s.toList) (noHash : '#' ∉ s.toList)
    (names : List (List Char)) : Covers (levels s) names ↔ levels s = names := by
  have hash : ['#'] ∉ levels s := fun member =>
    not_mem_of_mem_levels (by decide) noHash member (List.mem_singleton_self '#')
  have plus : ['+'] ∉ levels s := fun member =>
    not_mem_of_mem_levels (by decide) noPlus member (List.mem_singleton_self '+')
  rw [← forall₂_standsFor_iff plus]
  constructor
  · rintro (⟨-, each⟩ | ⟨front, same, -⟩)
    · exact each
    · exact absurd (same ▸ List.mem_append_right _ (List.mem_singleton_self _)) hash
  · intro each
    exact Or.inl ⟨hash, each⟩

theorem levels_injective {s t : String} (same : levels s = levels t) : s = t := by
  rw [levels, levels, levelsOf_eq_splitOn, levelsOf_eq_splitOn] at same
  have joined := congrArg (List.intercalate ['/']) same
  rw [List.intercalate_splitOn, List.intercalate_splitOn] at joined
  exact String.toList_inj.1 joined

/-- A filter without wildcards matches itself and nothing else. -/
theorem isMatch_iff_eq {filter : String} (noPlus : '+' ∉ filter.toList)
    (noHash : '#' ∉ filter.toList) (name : String) : isMatch name filter = true ↔ name = filter := by
  have opens : (opening (levels filter)).any isWildcard = false := by
    rw [← Bool.not_eq_true, any_isWildcard_iff, levels, opening_levelsOf (by decide),
      opening_levelsOf (by decide)]
    rintro (plus | hash)
    · exact noPlus (List.mem_of_mem_head? plus)
    · exact noHash (List.mem_of_mem_head? hash)
  rw [isMatch, reaches, opens, Bool.and_false, Bool.not_false, Bool.true_and,
    matchLevels_iff (checkLevels_of_plain noPlus noHash), covers_iff_of_plain noPlus noHash]
  constructor
  · intro same
    exact (levels_injective same).symm
  · rintro rfl
    rfl

/-! ## What the writers may rely on -/

theorem utf8ByteSize_le_of_checkFilter {filter : String} (checked : checkFilter filter = .ok ()) :
    filter.utf8ByteSize ≤ 65535 :=
  (checkFilter_iff.1 checked).short

theorem utf8ByteSize_le_of_checkName {name : String} (checked : checkName name = .ok ()) :
    name.utf8ByteSize ≤ 65535 :=
  utf8ByteSize_le_of_checkFilter (checkName_iff.1 checked).1

end Topic

namespace Packet

open Topic

variable {buffer : Bytes} {e : Error}

/-- A SUBSCRIBE for filters that may be sent is refused only for their lack or for its size. -/
theorem Subscribe.error_of_checked {s : Subscribe}
    (checked : ∀ filter ∈ s.filters, checkFilter filter.1 = .ok ())
    (failed : (append s.put buffer).1 = .error e) :
    (s.filters = [] ∧ e = .malformed) ∨
      Length.max < s.bodySize ∧ e = .tooLarge s.bodySize Length.max := by
  by_cases empty : s.filters = []
  · rw [(does_of_empty empty).append] at failed
    cases failed
    exact Or.inl ⟨empty, rfl⟩
  · refine Or.inr ((verdict empty).error_of_short ?_ failed)
    exact List.forall_mem_map.2 fun filter member =>
      utf8ByteSize_le_of_checkFilter (checked filter member)

/-- An UNSUBSCRIBE for filters that may be sent is refused only for their lack or for its size. -/
theorem Unsubscribe.error_of_checked {u : Unsubscribe}
    (checked : ∀ filter ∈ u.filters, checkFilter filter = .ok ())
    (failed : (append u.put buffer).1 = .error e) :
    (u.filters = [] ∧ e = .malformed) ∨
      Length.max < u.bodySize ∧ e = .tooLarge u.bodySize Length.max := by
  by_cases empty : u.filters = []
  · rw [(does_of_empty empty).append] at failed
    cases failed
    exact Or.inl ⟨empty, rfl⟩
  · refine Or.inr ((verdict empty).error_of_short ?_ failed)
    exact List.forall_mem_map.2 fun filter member =>
      utf8ByteSize_le_of_checkFilter (checked filter member)

/-- A PUBLISH under a name that may be sent is refused only for its identifier or for its size. -/
theorem Publish.error_of_checked {p : Publish} (checked : checkName p.topic = .ok ())
    (failed : (append p.put buffer).1 = .error e) :
    (p.qos ≠ .atMostOnce ∧ (p.packetId = none ∨ p.packetId = some 0) ∧ e = .malformed) ∨
      Length.max < p.bodySize ∧ e = .tooLarge p.bodySize Length.max := by
  have short := utf8ByteSize_le_of_checkName checked
  cases own : p.sentId with
  | error cause =>
    obtain ⟨-, higher, missing⟩ := of_sentId_error own
    obtain ⟨cause, does, malformed⟩ := does_of_sentId_error own
    rw [does.append] at failed
    cases failed
    exact Or.inl ⟨higher, missing, malformed short⟩
  | ok id =>
    exact Or.inr ((verdict own).error_of_short
      (fun field member => List.mem_singleton.1 member ▸ short) failed)

/-- **Checks of topics.**  A text may be sent as a filter exactly if it is one by the grammar,
and as a name exactly if it is a filter without wildcards.  Of filters and names that may be sent
every request and message can be written, but for its size and for what else it lacks: filters,
or an identifier other than zero where there has to be one.  And a filter without wildcards that
may be sent matches itself and no other name. -/
theorem checks_exact_and_sufficient :
    (∀ s, checkFilter s = .ok () ↔ IsFilter s) ∧
      (∀ s, checkName s = .ok () ↔
        checkFilter s = .ok () ∧ '+' ∉ s.toList ∧ '#' ∉ s.toList) ∧
      (∀ (s : Subscribe) (buffer : Bytes) (e : Error),
        (∀ filter ∈ s.filters, checkFilter filter.1 = .ok ()) →
        (append s.put buffer).1 = .error e →
        (s.filters = [] ∧ e = .malformed) ∨
          Length.max < s.bodySize ∧ e = .tooLarge s.bodySize Length.max) ∧
      (∀ (u : Unsubscribe) (buffer : Bytes) (e : Error),
        (∀ filter ∈ u.filters, checkFilter filter = .ok ()) →
        (append u.put buffer).1 = .error e →
        (u.filters = [] ∧ e = .malformed) ∨
          Length.max < u.bodySize ∧ e = .tooLarge u.bodySize Length.max) ∧
      (∀ (p : Publish) (buffer : Bytes) (e : Error), checkName p.topic = .ok () →
        (append p.put buffer).1 = .error e →
        (p.qos ≠ .atMostOnce ∧ (p.packetId = none ∨ p.packetId = some 0) ∧ e = .malformed) ∨
          Length.max < p.bodySize ∧ e = .tooLarge p.bodySize Length.max) ∧
      ∀ name filter, checkName name = .ok () → checkFilter filter = .ok () →
        '+' ∉ filter.toList → '#' ∉ filter.toList →
        (isMatch name filter = true ↔ name = filter) :=
  ⟨fun _ => checkFilter_iff, fun _ => checkName_iff, fun _ _ _ => Subscribe.error_of_checked,
    fun _ _ _ => Unsubscribe.error_of_checked, fun _ _ _ => Publish.error_of_checked,
    fun name _ _ _ noPlus noHash => isMatch_iff_eq noPlus noHash name⟩

/-- A message that has to have an identifier, with one that no packet may have. -/
def unnumbered : Publish :=
  ⟨false, .atLeastOnce, false, "a/b", some 0, [0x68, 0x69]⟩

theorem append_unnumbered : append unnumbered.put [] = (.error .malformed, []) := by
  obtain ⟨e, does, malformed⟩ :=
    Publish.does_of_sentId_error (p := unnumbered) (e := .malformed) rfl
  rw [does.append, malformed (by decide)]
  rfl

theorem checks_exact_and_sufficient_unnumbered :
    checkName unnumbered.topic = .ok () ∧ IsFilter unnumbered.topic ∧
      (append unnumbered.put []).1 = .error .malformed ∧ unnumbered.qos ≠ .atMostOnce ∧
      isMatch "a/b" unnumbered.topic = true := by
  obtain ⟨filters, names, -, -, published, matched⟩ := checks_exact_and_sufficient
  have named : checkName unnumbered.topic = .ok () := by decide
  obtain ⟨filter, noPlus, noHash⟩ := (names _).1 named
  have failed : (append unnumbered.put []).1 = .error .malformed := by rw [append_unnumbered]
  refine ⟨named, (filters _).1 filter, failed, ?_, (matched _ _ named filter noPlus noHash).2 rfl⟩
  rcases published unnumbered [] .malformed named failed with ⟨higher, -⟩ | ⟨-, large⟩
  · exact higher
  · cases large

/-- An identifier of zero is not a missing one, and is refused like one. -/
theorem not_missing_unnumbered :
    ¬ (checkName unnumbered.topic = .ok () → ∀ e, (append unnumbered.put []).1 = .error e →
      (∃ size limit, e = .tooLarge size limit) ∨ unnumbered.packetId = none ∧ e = .malformed) := by
  intro claimed
  rcases claimed (by decide) .malformed (by rw [append_unnumbered]) with
    ⟨size, limit, large⟩ | ⟨missing, -⟩
  · cases large
  · cases missing

end Packet

end Mqtt
