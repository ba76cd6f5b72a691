import Mqtt.Frame
import Mqtt.Packet.Ack
import Mqtt.Packet.Connect
import Mqtt.Packet.Publish
import Mqtt.Packet.Subscription

/-!
# Written packets

Every packet that a writer hands back is whole: its header is read off its front,
and as many octets follow as the header says (`Packet.parse?`).  A PUBLISH written
is read back as it was, and the mark of being sent before changes nothing else.
-/

namespace Mqtt

namespace Inbound

/-- The message that a packet carries, if it is a well-formed PUBLISH. -/
def publish? (p : Inbound) : Option Packet.Publish :=
  if p.kind = .publish then (Packet.Publish.decode p.flags p.body).toOption else none

/-- The identifier that a packet acknowledges, if it is a well-formed acknowledgement
of a given kind. -/
def ack? (p : Inbound) (kind : Packet.Kind) : Option UInt16 :=
  if p.kind = kind then (Packet.decodeAck p.body).toOption else none

theorem of_ack? {p : Inbound} {kind : Packet.Kind} {id : UInt16} (read : p.ack? kind = some id) :
    p.kind = kind ∧ Packet.decodeAck p.body = .ok id := by
  unfold ack? at read
  split at read
  next named =>
    cases decoded : Packet.decodeAck p.body with
    | error e =>
      rw [decoded] at read
      cases read
    | ok own =>
      rw [decoded] at read
      cases read
      exact ⟨named, rfl⟩
  · cases read

end Inbound

/-- A field behind its length. -/
def Bytes.withLength (field : Bytes) : Bytes :=
  Bytes.ofWord field.length.toUInt16 ++ field

namespace Packet

/-! ## Words and texts -/

theorem word_ofWord (w : UInt16) : Bytes.word (w >>> 8).toUInt8 w.toUInt8 = w := by
  unfold Bytes.word
  apply UInt16.toNat_inj.1
  have small : w.toNat < 65536 := w.toNat_lt
  have high : w.toNat / 256 < 256 := by omega
  simp only [UInt16.toNat_or, UInt16.toNat_shiftLeft, UInt8.toNat_toUInt16, UInt16.toNat_toUInt8,
    UInt16.toNat_shiftRight, UInt16.reduceToNat]
  have shifted : w.toNat >>> (8 % 16) = w.toNat / 256 := Nat.shiftRight_eq_div_pow _ _
  rw [shifted, Nat.mod_eq_of_lt high]
  have low : w.toNat % 2 ^ 8 < 2 ^ 8 := Nat.mod_lt _ (by decide)
  have back : (w.toNat / 256) <<< (8 % 16) % 2 ^ 16 = (w.toNat / 256) <<< 8 := by
    rw [Nat.shiftLeft_eq]
    change w.toNat / 256 * 256 % 65536 = w.toNat / 256 * 256
    omega
  rw [back, ← Nat.shiftLeft_add_eq_or_of_lt low, Nat.shiftLeft_eq]
  omega

/-- A word written before anything else is read back. -/
theorem word_field (w : UInt16) (rest : Bytes) :
    Field.word (Bytes.ofWord w ++ rest) = .ok (w, rest) := by
  unfold Bytes.ofWord
  rw [List.cons_append, List.cons_append, List.nil_append, Field.word, word_ofWord]

theorem text?_ofText (s : String) : Bytes.text? (Bytes.ofText s) = some s := by
  unfold Bytes.text? Bytes.ofText
  have same : s.toUTF8.data.toList.toByteArray = s.toByteArray := by
    ext1
    simp
  rw [same]
  unfold String.fromUTF8?
  rw [dif_pos s.isValidUTF8]
  rfl

/-- A field written before anything else is read back. -/
theorem bytes_field (field rest : Bytes) (short : field.length ≤ 65535) :
    Field.bytes (field.withLength ++ rest) = .ok (field, rest) := by
  have length : field.length.toUInt16.toNat = field.length :=
    UInt16.toNat_ofNat_of_lt' (by simpa [UInt16.size] using Nat.lt_succ_of_le short)
  unfold Bytes.withLength Bytes.ofWord
  rw [List.append_assoc, List.cons_append, List.cons_append, List.nil_append, Field.bytes,
    word_ofWord, length]
  simp

/-- A text written before anything else is read back. -/
theorem text_field (s : String) (rest : Bytes) (short : (Bytes.ofText s).length ≤ 65535) :
    Field.text ((Bytes.ofText s).withLength ++ rest) = .ok (s, rest) := by
  rw [Field.text, bytes_field _ rest short]
  dsimp only
  rw [text?_ofText]

/-! ## Remaining lengths -/

/-- The last group of a number is not marked. -/
theorem Length.decodeWithin_last {n : Nat} (room : Nat) (rest : Bytes) (last : n < 128) :
    Length.decodeWithin (room + 1) (n.toUInt8 :: rest) = .ok (some (n, 1)) := by
  have byte : n.toUInt8.toNat = n := UInt8.toNat_ofNat_of_lt' (by change n < 256; omega)
  have unmarked : n.toUInt8 < 128 := by
    rw [UInt8.lt_iff_toNat_lt, byte]
    exact last
  rw [Length.decodeWithin, if_pos unmarked, byte]

theorem Length.decodeWithin_groups {room n : Nat} (rest : Bytes)
    (small : n < Nat.pow 128 (room + 1)) :
    Length.decodeWithin (room + 1) (Length.groups n ++ rest) =
      .ok (some (n, (Length.groups n).length)) := by
  induction room generalizing n with
  | zero =>
    change n < 128 at small
    rw [Length.groups, if_pos small, List.cons_append, Length.decodeWithin_last _ _ small]
    rfl
  | succ room ih =>
    rw [Length.groups]
    split
    next last =>
      rw [List.cons_append, Length.decodeWithin_last _ _ last]
      rfl
    next more =>
      have byte : (n % 128 + 128).toUInt8.toNat = n % 128 + 128 :=
        UInt8.toNat_ofNat_of_lt' (by change n % 128 + 128 < 256; omega)
      have marked : ¬ (n % 128 + 128).toUInt8 < 128 := by
        rw [UInt8.lt_iff_toNat_lt, byte]
        simp
      have fewer : n / 128 < Nat.pow 128 (room + 1) := by
        rw [Nat.div_lt_iff_lt_mul (by decide)]
        exact small
      rw [List.cons_append, Length.decodeWithin, if_neg marked, ih fewer, byte]
      simp only [List.length_cons]
      congr 3
      omega

theorem Length.decode_encode {n : Nat} {groups : Bytes} (rest : Bytes)
    (written : Length.encode n = .ok groups) :
    Length.decode (groups ++ rest) = .ok (some (n, groups.length)) := by
  unfold Length.encode at written
  split at written
  · cases written
  next fits =>
    cases written
    have small : n < 268435456 := by
      unfold Length.max at fits
      omega
    exact Length.decodeWithin_groups rest small

/-! ## Running writers -/

namespace Put

variable {α β : Type} {pieces : Pieces}

theorem run_bind (x : Put α) (f : α → Put β) :
    (x >>= f).run.run pieces =
      match x.run.run pieces with
      | (.ok a, after) => (f a).run.run after
      | (.error e, after) => (.error e, after) := by
  rw [ExceptT.run_bind, StateT.run_bind]
  change (let r := x.run.run pieces; _) = _
  cases x.run.run pieces with
  | mk r after => cases r <;> rfl

theorem run_bytes (bs : Bytes) : (bytes bs).run.run pieces = (.ok (), bs :: pieces) :=
  rfl

theorem run_field (bs : Bytes) :
    (field bs).run.run pieces = (.ok (), bs :: Bytes.ofWord bs.length.toUInt16 :: pieces) :=
  rfl

theorem run_header (first : UInt8) (length : Nat) :
    (header first length).run.run pieces =
      match Length.encode length with
      | .error e => (.error e, pieces)
      | .ok groups => (.ok (), (first :: groups) :: pieces) := by
  unfold header
  cases Length.encode length <;> rfl

theorem run_measure (bs : Bytes) :
    (measure bs).run.run pieces =
      if 65535 < bs.length then (.error (.fieldTooLong bs.length), pieces)
      else (.ok (2 + bs.length), pieces) := by
  unfold measure
  split <;> rfl

end Put

/-- The octets of a PUBLISH between its header and its payload. -/
def Publish.head (p : Publish) (id : Option UInt16) : Bytes :=
  (Bytes.ofText p.topic).withLength ++ (id.map Bytes.ofWord).getD []

theorem Publish.encode_put (p : Publish) :
    encode p.put =
      if 65535 < (Bytes.ofText p.topic).length then
        .error (.fieldTooLong (Bytes.ofText p.topic).length)
      else p.sentId.bind fun id =>
        (Length.encode (p.head id ++ p.payload).length).map fun groups =>
          (Kind.publish.first ||| p.flags) :: groups ++ (p.head id ++ p.payload) := by
  unfold encode append Publish.put
  rw [Put.run_bind, Put.run_measure]
  by_cases long : 65535 < (Bytes.ofText p.topic).length
  · rw [if_pos long, if_pos long]
  · rw [if_neg long, if_neg long]
    cases p.sentId with
    | error e => rfl
    | ok id =>
      have size : 2 + (Bytes.ofText p.topic).length + p.payload.length +
          ((id.map Bytes.ofWord).getD []).length = (p.head id ++ p.payload).length := by
        simp [Publish.head, Bytes.withLength, Bytes.ofWord]
        omega
      dsimp only [Except.bind]
      rw [Put.run_bind, Put.run_header, size]
      cases Length.encode (p.head id ++ p.payload).length with
      | error e => rfl
      | ok groups =>
        simp only [Put.run_bind, Put.run_field, Put.run_bytes, Pieces.join_cons]
        simp [Publish.head, Bytes.withLength, Pieces.join, Except.map]

theorem Publish.encode_eq_ok_iff {p : Publish} {packet : Bytes} :
    encode p.put = .ok packet ↔
      ∃ id groups, (Bytes.ofText p.topic).length ≤ 65535 ∧ p.sentId = .ok id ∧
        Length.encode (p.head id ++ p.payload).length = .ok groups ∧
        packet = (Kind.publish.first ||| p.flags) :: groups ++ (p.head id ++ p.payload) := by
  rw [encode_put]
  by_cases long : 65535 < (Bytes.ofText p.topic).length
  · simp [long, Nat.not_le.2 long]
  · rw [if_neg long]
    cases p.sentId with
    | error e => simp [Except.bind]
    | ok id =>
      simp only [Except.bind, Except.ok.injEq, exists_and_left, exists_eq_left', Nat.not_lt.1 long,
        true_and]
      cases Length.encode (p.head id ++ p.payload).length <;> simp [Except.map, eq_comm]

/-! ## Whole packets -/

/-- The packet that some octets are, if they are one packet and nothing else. -/
def parse? (bs : Bytes) : Option Inbound :=
  match Header.decode bs with
  | .ok (some (header, used)) =>
    if bs.length = used + header.length then some ⟨header.kind, header.flags, bs.drop used⟩
    else none
  | _ => none

theorem parse?_of_shape {first : UInt8} {kind : Kind} {groups body : Bytes}
    (named : Kind.ofFirst? first = some kind) (written : Length.encode body.length = .ok groups) :
    parse? (first :: groups ++ body) = some ⟨kind, first &&& 15, body⟩ := by
  have read : Header.decode (first :: groups ++ body) =
      .ok (some (⟨kind, first &&& 15, body.length⟩, groups.length + 1)) := by
    rw [List.cons_append, Header.decode, named]
    dsimp only
    rw [Length.decode_encode body written]
  unfold parse?
  rw [read]
  simp
  omega

theorem ne_nil_of_parse? {bs : Bytes} {p : Inbound} (whole : parse? bs = some p) : bs ≠ [] := by
  intro same
  subst same
  cases whole

theorem parse?_ack (kind : Kind) (id : UInt16) :
    parse? (ack kind id) = some ⟨kind, kind.flags, Bytes.ofWord id⟩ := by
  have shape := @parse?_of_shape kind.first kind [2] (Bytes.ofWord id) kind.ofFirst?_first
    (by simp [Length.encode, Length.max, Length.groups, Bytes.ofWord])
  have flags : kind.first &&& 15 = kind.flags := by cases kind <;> rfl
  rw [flags] at shape
  exact shape

@[simp]
theorem decodeAck_ofWord (id : UInt16) : decodeAck (Bytes.ofWord id) = .ok id := by
  unfold Bytes.ofWord decodeAck
  exact congrArg Except.ok (word_ofWord id)

theorem parse?_pingReq : parse? pingReq = some ⟨.pingReq, 0, []⟩ := by
  rfl

theorem parse?_disconnect : parse? disconnect = some ⟨.disconnect, 0, []⟩ := by
  rfl

/-- A packet that is marked once is marked for good. -/
theorem markDup_markDup (bs : Bytes) : markDup (markDup bs) = markDup bs := by
  cases bs with
  | nil => rfl
  | cons first rest =>
    by_cases publish : Kind.ofFirst? first = some .publish
    · have marked : markDup (first :: rest) = (first ||| dupFlag) :: rest := if_pos publish
      have same : (first ||| dupFlag) ||| dupFlag = first ||| dupFlag := by
        rw [UInt8.or_assoc, UInt8.or_self]
      rw [marked, markDup, same, ite_self]
    · have left : markDup (first :: rest) = first :: rest := if_neg publish
      rw [left, left]

/-! ## Requests and greetings -/

namespace Put

variable {α β : Type}

/-- What holds of what a writer hands back and of the octets it appends, unless it
refuses. -/
def Yields (w : Put α) (Q : α → Bytes → Prop) : Prop :=
  ∀ pieces after a, w.run.run pieces = (.ok a, after) →
    ∃ bs, Pieces.join after = Pieces.join pieces ++ bs ∧ Q a bs

theorem Yields.bind {x : Put α} {f : α → Put β} {P : α → Bytes → Prop} {Q : β → Bytes → Prop}
    (first : x.Yields P)
    (second : ∀ a bs, P a bs → (f a).Yields fun b bs' => Q b (bs ++ bs')) : (x >>= f).Yields Q := by
  intro pieces after b run
  rw [run_bind] at run
  cases h : x.run.run pieces with
  | mk r between =>
    rw [h] at run
    cases r with
    | error e => cases run
    | ok a =>
      obtain ⟨bs, joined, held⟩ := first pieces between a h
      obtain ⟨bs', joined', held'⟩ := second a bs held between after b run
      exact ⟨bs ++ bs', by rw [joined', joined, List.append_assoc], held'⟩

theorem Yields.imp {w : Put α} {P Q : α → Bytes → Prop} (h : w.Yields P)
    (weaken : ∀ a bs, P a bs → Q a bs) : w.Yields Q := by
  intro pieces after a run
  obtain ⟨bs, joined, held⟩ := h pieces after a run
  exact ⟨bs, joined, weaken a bs held⟩

theorem yields_pure {a : α} {Q : α → Bytes → Prop} (h : Q a []) : (pure a : Put α).Yields Q := by
  intro pieces after a' run
  cases run
  exact ⟨[], (List.append_nil _).symm, h⟩

theorem yields_bytes (bs : Bytes) : (bytes bs).Yields fun _ bs' => bs' = bs := by
  intro pieces after a run
  cases run
  exact ⟨bs, Pieces.join_cons _ _, rfl⟩

theorem yields_field (bs : Bytes) : (field bs).Yields fun _ bs' => bs' = bs.withLength := by
  intro pieces after a run
  cases run
  exact ⟨bs.withLength, by simp [Bytes.withLength], rfl⟩

theorem length_withLength (bs : Bytes) : bs.withLength.length = 2 + bs.length := by
  simp [Bytes.withLength, Bytes.ofWord]
  omega

theorem yields_header (first : UInt8) (length : Nat) :
    (header first length).Yields fun _ bs =>
      ∃ groups, Length.encode length = .ok groups ∧ bs = first :: groups := by
  intro pieces after a run
  rw [run_header] at run
  cases written : Length.encode length with
  | error e =>
    rw [written] at run
    cases run
  | ok groups =>
    rw [written] at run
    cases run
    exact ⟨_, Pieces.join_cons _ _, groups, rfl, rfl⟩

/-- The sizes of the members of a list together. -/
def total (size : α → Nat) (xs : List α) : Nat :=
  xs.foldr (fun x n => size x + n) 0

theorem total_map {β : Type} (size : β → Nat) (f : α → β) (xs : List α) :
    total size (xs.map f) = total (fun x => size (f x)) xs :=
  List.foldr_map

theorem total_succ (size : α → Nat) (xs : List α) :
    total (fun x => size x + 1) xs = total size xs + xs.length := by
  induction xs with
  | nil => rfl
  | cons x xs ih =>
    change size x + 1 + total (fun x => size x + 1) xs = size x + total size xs + (xs.length + 1)
    rw [ih]
    omega

theorem length_flatMap (octets : α → Bytes) (xs : List α) :
    (xs.flatMap octets).length = total (fun x => (octets x).length) xs := by
  induction xs with
  | nil => rfl
  | cons x xs ih =>
    rw [List.flatMap_cons, List.length_append, ih]
    rfl

/-- The room that length-prefixed fields take. -/
def room (fields : List Bytes) : Nat :=
  total (fun field => 2 + field.length) fields

theorem yields_measure (bs : Bytes) :
    (measure bs).Yields fun size bs' =>
      size = 2 + bs.length ∧ bs.length ≤ 65535 ∧ bs' = [] := by
  unfold measure
  split
  · intro pieces after a run
    cases run
  next short => exact yields_pure ⟨rfl, Nat.not_lt.1 short, rfl⟩

theorem yields_measureAll (fields : List Bytes) :
    (measureAll fields).Yields fun size bs =>
      size = room fields ∧ (∀ field ∈ fields, field.length ≤ 65535) ∧ bs = [] := by
  induction fields with
  | nil => exact yields_pure ⟨rfl, fun _ none => (by cases none), rfl⟩
  | cons field fields ih =>
    apply (yields_measure field).bind
    intro _ _ given
    rcases given with ⟨rfl, short, rfl⟩
    apply ih.bind
    intro _ _ given
    rcases given with ⟨rfl, shorts, rfl⟩
    exact yields_pure ⟨rfl, List.forall_mem_cons.2 ⟨short, shorts⟩, rfl⟩

/-- Writers that each append known octets append them one after the other. -/
theorem yields_forM {xs : List α} {w : α → Put Unit} (octets : α → Bytes)
    (each : ∀ x ∈ xs, (w x).Yields fun _ bs => bs = octets x) :
    (xs.forM w).Yields fun _ bs => bs = xs.flatMap octets := by
  induction xs with
  | nil => exact yields_pure rfl
  | cons x xs ih =>
    change (w x >>= fun _ => xs.forM w).Yields _
    apply (each x List.mem_cons_self).bind
    intro _ bs h
    refine (ih fun y member => each y (List.mem_cons_of_mem _ member)).imp fun _ bs' h' => ?_
    rw [h, h']
    rfl

end Put

theorem of_encode {w : Put Unit} {Q : Unit → Bytes → Prop} {packet : Bytes} (yields : w.Yields Q)
    (written : encode w = .ok packet) : Q () packet := by
  unfold encode append at written
  cases run : w.run.run [[]] with
  | mk r after =>
    obtain ⟨bs, joined, held⟩ := yields [[]] after () (by
      rw [run] at written ⊢
      cases r with
      | error e => cases written
      | ok u => rfl)
    rw [run] at written
    cases r with
    | error e => cases written
    | ok u =>
      cases written
      rw [joined]
      exact held

/-- A header and a body of the length that it names are a whole packet, if the room for
the fields of the body was measured before. -/
theorem whole_of_measured (kind : Kind) (fields : List Bytes) (length : Nat → Nat)
    {body : Put Unit} {P : Bytes → Prop} {packet : Bytes}
    (sized : (∀ field ∈ fields, field.length ≤ 65535) →
      body.Yields fun _ bs => bs.length = length (Put.room fields) ∧ P bs)
    (written : encode (do
      let size ← Put.measureAll fields
      Put.header kind.first (length size)
      body) = .ok packet) :
    ∃ bs, parse? packet = some ⟨kind, kind.flags, bs⟩ ∧ P bs := by
  refine of_encode
    (Q := fun _ packet => ∃ bs, parse? packet = some ⟨kind, kind.flags, bs⟩ ∧ P bs) ?_ written
  apply (Put.yields_measureAll fields).bind
  intro size _ given
  rcases given with ⟨rfl, short, rfl⟩
  apply (Put.yields_header kind.first _).bind
  intro _ _ given
  rcases given with ⟨groups, encoded, rfl⟩
  refine (sized short).imp fun _ bs ⟨same, held⟩ => ⟨bs, ?_, held⟩
  have flags : kind.first &&& 15 = kind.flags := by cases kind <;> rfl
  rw [List.nil_append, parse?_of_shape kind.ofFirst?_first (by rw [same]; exact encoded), flags]

namespace Subscribe

/-- The octets of a filter with its guarantee. -/
def entry (filter : String × Qos) : Bytes :=
  (Bytes.ofText filter.1).withLength ++ [filter.2.toByte]

theorem decodeFilters_entries {filters : List (String × Qos)}
    (short : ∀ filter ∈ filters, (Bytes.ofText filter.1).length ≤ 65535) :
    decodeFilters (filters.flatMap entry) = .ok filters := by
  induction filters with
  | nil =>
    rw [decodeFilters]
    rfl
  | cons filter filters ih =>
    obtain ⟨first, others⟩ := List.forall_mem_cons.1 short
    have text : Field.text ((filter :: filters).flatMap entry) =
        .ok (filter.1, filter.2.toByte :: filters.flatMap entry) := by
      rw [List.flatMap_cons, entry, List.append_assoc, text_field _ _ first]
      rfl
    have some : ((filter :: filters).flatMap entry).isEmpty = false := by
      simp [entry]
    rw [decodeFilters, if_neg (by rw [some]; exact Bool.false_ne_true)]
    split
    next taken => cases text.symm.trans taken
    next taken => cases text.symm.trans taken
    next taken =>
      cases text.symm.trans taken
      rw [Qos.ofByte?_toByte, ih others]

/-- A SUBSCRIBE written is read back. -/
theorem read_put {s : Subscribe} {packet : Bytes} (written : encode s.put = .ok packet) :
    ∃ bs, parse? packet = some ⟨.subscribe, 2, bs⟩ ∧ decode bs = .ok s := by
  unfold put at written
  split at written
  · cases written
  next some =>
    refine whole_of_measured .subscribe (s.filters.map fun filter => Bytes.ofText filter.1)
      (fun size => 2 + size + s.filters.length) (fun short => ?_) written
    apply (Put.yields_bytes _).bind
    intro _ _ same
    subst same
    have each : ∀ filter ∈ s.filters, ((Put.field (Bytes.ofText filter.1)) >>= fun _ =>
        Put.bytes [filter.2.toByte]).Yields fun _ bs => bs = entry filter := by
      intro filter _
      apply (Put.yields_field _).bind
      intro _ bs same
      apply (Put.yields_bytes _).imp
      intro _ bs' last
      rw [last, same]
      rfl
    refine (Put.yields_forM entry each).imp fun _ bs same => ?_
    have read := decodeFilters_entries fun filter member =>
      short _ (List.mem_map.2 ⟨filter, member, rfl⟩)
    rw [same]
    constructor
    · have sizes (filter : String × Qos) :
          (entry filter).length = 2 + (Bytes.ofText filter.1).length + 1 := by
        rw [entry, List.length_append, Put.length_withLength]
        rfl
      rw [List.length_append, Put.length_flatMap]
      simp only [sizes]
      rw [Put.total_succ, Put.room, Put.total_map, ← Nat.add_assoc]
      rfl
    · unfold decode
      rw [word_field]
      simp only [bind, Except.bind]
      rw [read]
      dsimp only
      rw [if_neg some]
      rfl

theorem parse?_put {s : Subscribe} {packet : Bytes} (written : encode s.put = .ok packet) :
    ∃ bs, parse? packet = some ⟨.subscribe, 2, bs⟩ := by
  obtain ⟨bs, whole, -⟩ := read_put written
  exact ⟨bs, whole⟩

end Subscribe

namespace Unsubscribe

theorem decodeFilters_entries {filters : List String}
    (short : ∀ filter ∈ filters, (Bytes.ofText filter).length ≤ 65535) :
    decodeFilters (filters.flatMap fun filter => (Bytes.ofText filter).withLength) =
      .ok filters := by
  induction filters with
  | nil =>
    rw [decodeFilters]
    rfl
  | cons filter filters ih =>
    obtain ⟨first, others⟩ := List.forall_mem_cons.1 short
    rw [List.flatMap_cons]
    have text := text_field filter
      (filters.flatMap fun filter => (Bytes.ofText filter).withLength) first
    have some : ((Bytes.ofText filter).withLength ++
        filters.flatMap fun filter => (Bytes.ofText filter).withLength).isEmpty = false := by
      simp [Bytes.withLength, Bytes.ofWord]
    rw [decodeFilters, if_neg (by rw [some]; exact Bool.false_ne_true)]
    split
    next taken => cases text.symm.trans taken
    next taken =>
      cases text.symm.trans taken
      rw [ih others]

/-- An UNSUBSCRIBE written is read back. -/
theorem read_put {u : Unsubscribe} {packet : Bytes} (written : encode u.put = .ok packet) :
    ∃ bs, parse? packet = some ⟨.unsubscribe, 2, bs⟩ ∧ decode bs = .ok u := by
  unfold put at written
  split at written
  · cases written
  next some =>
    refine whole_of_measured .unsubscribe (u.filters.map Bytes.ofText) (fun size => 2 + size)
      (fun short => ?_) written
    apply (Put.yields_bytes _).bind
    intro _ _ same
    subst same
    refine (Put.yields_forM (fun filter => (Bytes.ofText filter).withLength)
      fun filter _ => Put.yields_field (Bytes.ofText filter)).imp fun _ bs same => ?_
    have read := decodeFilters_entries fun filter member =>
      short _ (List.mem_map.2 ⟨filter, member, rfl⟩)
    rw [same]
    constructor
    · rw [List.length_append, Put.length_flatMap, Put.room, Put.total_map]
      simp only [Put.length_withLength]
      rfl
    · unfold decode
      rw [word_field]
      simp only [bind, Except.bind]
      rw [read]
      dsimp only
      rw [if_neg some]
      rfl

theorem parse?_put {u : Unsubscribe} {packet : Bytes} (written : encode u.put = .ok packet) :
    ∃ bs, parse? packet = some ⟨.unsubscribe, 2, bs⟩ := by
  obtain ⟨bs, whole, -⟩ := read_put written
  exact ⟨bs, whole⟩

end Unsubscribe

/-- A CONNECT written is a whole packet, with its keep-alive eight octets into the body. -/
theorem Connect.read_put {c : Connect} {packet : Bytes} (written : encode c.put = .ok packet) :
    ∃ bs, parse? packet = some ⟨.connect, 0, bs⟩ ∧
      ∃ rest, Field.word (bs.drop 8) = .ok (c.keepAlive, rest) := by
  unfold Connect.put at written
  refine whole_of_measured (P := fun bs => ∃ rest, Field.word (bs.drop 8) = .ok (c.keepAlive, rest))
    .connect c.fields (fun size => 10 + size) (fun _ => ?_) written
  apply (Put.yields_field _).bind
  intro _ name named
  apply (Put.yields_bytes _).bind
  intro _ _ same
  subst same
  apply (Put.yields_bytes _).bind
  intro _ _ same
  subst same
  refine (Put.yields_forM Bytes.withLength fun field _ => Put.yields_field field).imp
    fun _ bs same => ⟨?_, bs, ?_⟩
  · simp only [List.length_append, named, same, Put.length_flatMap, Put.length_withLength]
    simp [Put.room, protocolName, Bytes.ofWord]
    omega
  · rw [named]
    exact word_field c.keepAlive bs

theorem Connect.parse?_put {c : Connect} {packet : Bytes} (written : encode c.put = .ok packet) :
    ∃ bs, parse? packet = some ⟨.connect, 0, bs⟩ := by
  obtain ⟨bs, whole, -⟩ := read_put written
  exact ⟨bs, whole⟩

/-! ## Messages -/

namespace Publish

/-- A message as it is sent again. -/
def again (p : Publish) : Publish :=
  { p with dup := true }

/-- The flags of a message by its parts. -/
def flagsOf (dup : Bool) (qos : Qos) (retain : Bool) : UInt8 :=
  qos.toByte <<< 1 ||| (if dup then dupFlag else 0) ||| (if retain then 1 else 0)

theorem flags_eq (p : Publish) : p.flags = flagsOf p.dup p.qos p.retain :=
  rfl

theorem first_of_flags (p : Publish) :
    Kind.ofFirst? (Kind.publish.first ||| p.flags) = some .publish ∧
      (Kind.publish.first ||| p.flags) &&& 15 = p.flags ∧
      (Kind.publish.first ||| p.flags) ||| dupFlag = Kind.publish.first ||| p.again.flags := by
  rw [flags_eq, flags_eq]
  change _ ∧ _ ∧ _ = Kind.publish.first ||| flagsOf true p.qos p.retain
  cases p.dup <;> cases p.qos <;> cases p.retain <;> decide

theorem markDup_put {p : Publish} {packet : Bytes} (written : encode p.put = .ok packet) :
    encode p.again.put = .ok (markDup packet) := by
  obtain ⟨id, groups, short, sent, sized, rfl⟩ := encode_eq_ok_iff.1 written
  obtain ⟨named, -, marked⟩ := p.first_of_flags
  refine encode_eq_ok_iff.2 ⟨id, groups, short, sent, sized, ?_⟩
  rw [List.cons_append, markDup, if_pos named, marked]
  rfl

/-- What the flags of a message say. -/
theorem of_flags (p : Publish) :
    Qos.ofByte? (p.flags >>> 1 &&& 3) = some p.qos ∧ (p.flags &&& dupFlag != 0) = p.dup ∧
      (p.flags &&& 1 != 0) = p.retain := by
  rw [flags_eq]
  cases p.dup <;> cases p.qos <;> cases p.retain <;> decide

/-- An identifier is sent with every guarantee but the lowest, and is never zero. -/
theorem sentId_cases {p : Publish} {id : Option UInt16} (sent : p.sentId = .ok id) :
    p.qos = .atMostOnce ∧ id = none ∨
      ∃ i, p.qos ≠ .atMostOnce ∧ p.packetId = some i ∧ id = some i ∧ i ≠ 0 := by
  unfold sentId at sent
  split at sent
  next _ lowest =>
    cases sent
    exact Or.inl ⟨lowest, rfl⟩
  next i given higher =>
    split at sent
    · cases sent
    next nonzero =>
      cases sent
      exact Or.inr ⟨i, higher, given, rfl, nonzero⟩
  · cases sent

/-- A message written is read back, with its identifier as it was sent. -/
theorem parse?_put {p : Publish} {packet : Bytes} (written : encode p.put = .ok packet) :
    ∃ id flags body, p.sentId = .ok id ∧ parse? packet = some ⟨.publish, flags, body⟩ ∧
      decode flags body = .ok { p with packetId := id } := by
  obtain ⟨id, groups, short, sent, sized, rfl⟩ := encode_eq_ok_iff.1 written
  obtain ⟨named, flags, -⟩ := p.first_of_flags
  refine ⟨id, p.flags, p.head id ++ p.payload, sent, ?_, ?_⟩
  · rw [parse?_of_shape named sized, flags]
  · obtain ⟨qos, dup, retain⟩ := p.of_flags
    unfold decode head
    simp only [qos, dup, retain, List.append_assoc]
    rw [text_field _ _ short]
    rcases sentId_cases sent with ⟨lowest, rfl⟩ | ⟨i, higher, _, rfl, nonzero⟩
    · rw [lowest]
      rfl
    · simp only [Option.map_some, Option.getD_some, bind, Except.bind]
      rw [word_field]
      cases level : p.qos with
      | atMostOnce => exact absurd level higher
      | atLeastOnce => simp [nonzero, pure, Except.pure]
      | exactlyOnce => simp [nonzero, pure, Except.pure]

end Publish

end Packet

end Mqtt
