import Mqtt.Proofs.Packets

/-!
# Packets there and back

A writer does the same on every buffer (`Put.Does`), so what it appends is the packet
that it writes on an empty one.  The readers of PUBLISH, SUBSCRIBE and UNSUBSCRIBE accept
exactly the bodies that the writers write: what is written is read back as it was sent,
and what is read is written again octet for octet.
-/

namespace Mqtt

namespace Bytes

theorem toNat_word (hi lo : UInt8) : (word hi lo).toNat = hi.toNat * 256 + lo.toNat := by
  have high : hi.toNat < 256 := hi.toNat_lt
  have low : lo.toNat < 2 ^ 8 := lo.toNat_lt
  have shifted : hi.toNat <<< (8 % 16) % 2 ^ 16 = hi.toNat <<< 8 := by
    rw [Nat.shiftLeft_eq]
    change hi.toNat * 256 % 65536 = hi.toNat * 256
    omega
  unfold word
  simp only [UInt16.toNat_or, UInt16.toNat_shiftLeft, UInt8.toNat_toUInt16, UInt16.reduceToNat]
  rw [shifted, ← Nat.shiftLeft_add_eq_or_of_lt low, Nat.shiftLeft_eq]

/-- A word read is written as the octets that it was read from. -/
theorem ofWord_word (hi lo : UInt8) : ofWord (word hi lo) = [hi, lo] := by
  have high : hi.toNat < 256 := hi.toNat_lt
  have low : lo.toNat < 256 := lo.toNat_lt
  have first : (word hi lo >>> 8).toUInt8 = hi := by
    apply UInt8.toNat_inj.1
    simp only [UInt16.toNat_toUInt8, UInt16.toNat_shiftRight, toNat_word, UInt16.reduceToNat]
    have shifted : (hi.toNat * 256 + lo.toNat) >>> (8 % 16) = (hi.toNat * 256 + lo.toNat) / 256 :=
      Nat.shiftRight_eq_div_pow _ _
    rw [shifted]
    omega
  have second : (word hi lo).toUInt8 = lo := by
    apply UInt8.toNat_inj.1
    rw [UInt16.toNat_toUInt8, toNat_word]
    omega
  rw [ofWord, first, second]

/-- A text read is written as the octets that it was read from. -/
theorem ofText_of_text? {bs : Bytes} {s : String} (read : text? bs = some s) : ofText s = bs := by
  unfold text? String.fromUTF8? at read
  split at read
  next valid =>
    cases read
    simp [ofText, String.fromUTF8]
  · cases read

end Bytes

theorem Qos.toByte_of_ofByte? {number : UInt8} {q : Qos} (named : Qos.ofByte? number = some q) :
    q.toByte = number := by
  unfold Qos.ofByte? at named
  split at named <;> cases named <;> rfl

namespace Packet

/-! ## Writers on every buffer -/

namespace Put

variable {α β : Type}

/-- How a writer ends, and the octets that it appends, whatever was written before. -/
def Does (w : Put α) (r : Except Error α) (bs : Bytes) : Prop :=
  ∀ pieces, ∃ after, w.run.run pieces = (r, after) ∧
    Pieces.join after = Pieces.join pieces ++ bs

/-- Whether a writer does the same on every buffer. -/
def Uniform (w : Put α) : Prop :=
  ∃ r bs, w.Does r bs

theorem does_pure (a : α) : (pure a : Put α).Does (.ok a) [] :=
  fun pieces => ⟨pieces, rfl, (List.append_nil _).symm⟩

theorem does_throw (e : Error) : (throw e : Put α).Does (.error e) [] :=
  fun pieces => ⟨pieces, rfl, (List.append_nil _).symm⟩

theorem Does.bind {x : Put α} {f : α → Put β} {a : α} {r : Except Error β} {bs bs' : Bytes}
    (first : x.Does (.ok a) bs) (second : (f a).Does r bs') : (x >>= f).Does r (bs ++ bs') := by
  intro pieces
  obtain ⟨between, run, joined⟩ := first pieces
  obtain ⟨after, run', joined'⟩ := second between
  refine ⟨after, ?_, by rw [joined', joined, List.append_assoc]⟩
  rw [run_bind, run]
  exact run'

/-- After a refusal nothing more is written. -/
theorem Does.refused {x : Put α} {f : α → Put β} {e : Error} {bs : Bytes}
    (first : x.Does (.error e) bs) : (x >>= f).Does (.error e) bs := by
  intro pieces
  obtain ⟨between, run, joined⟩ := first pieces
  exact ⟨between, by rw [run_bind, run], joined⟩

theorem does_bytes (bs : Bytes) : (bytes bs).Does (.ok ()) bs :=
  fun pieces => ⟨bs :: pieces, rfl, Pieces.join_cons _ _⟩

theorem does_field (bs : Bytes) : (field bs).Does (.ok ()) bs.withLength :=
  fun pieces => ⟨_, run_field bs, by simp [Bytes.withLength]⟩

theorem does_header {length : Nat} {groups : Bytes} (first : UInt8)
    (written : Length.encode length = .ok groups) :
    (header first length).Does (.ok ()) (first :: groups) := by
  unfold header
  rw [written]
  exact does_bytes _

theorem does_measure {bs : Bytes} (short : bs.length ≤ 65535) :
    (measure bs).Does (.ok (2 + bs.length)) [] := by
  unfold measure
  rw [if_neg (Nat.not_lt.2 short)]
  exact does_pure _

theorem does_measureAll {fields : List Bytes} (short : ∀ field ∈ fields, field.length ≤ 65535) :
    (measureAll fields).Does (.ok (room fields)) [] := by
  induction fields with
  | nil => exact does_pure 0
  | cons field fields ih =>
    obtain ⟨first, others⟩ := List.forall_mem_cons.1 short
    exact (does_measure first).bind ((ih others).bind (does_pure _))

theorem does_forM {xs : List α} {w : α → Put Unit} {octets : α → Bytes}
    (each : ∀ x ∈ xs, (w x).Does (.ok ()) (octets x)) :
    (xs.forM w).Does (.ok ()) (xs.flatMap octets) := by
  induction xs with
  | nil => exact does_pure ()
  | cons x xs ih =>
    obtain ⟨first, others⟩ := List.forall_mem_cons.1 each
    exact first.bind (ih others)

theorem Does.uniform {w : Put α} {r : Except Error α} {bs : Bytes} (h : w.Does r bs) : w.Uniform :=
  ⟨r, bs, h⟩

theorem Uniform.bind {x : Put α} {f : α → Put β} (first : x.Uniform)
    (second : ∀ a, (f a).Uniform) : (x >>= f).Uniform := by
  obtain ⟨r, bs, does⟩ := first
  cases r with
  | error e => exact does.refused.uniform
  | ok a =>
    obtain ⟨r', bs', does'⟩ := second a
    exact (does.bind does').uniform

theorem uniform_header (first : UInt8) (length : Nat) : (header first length).Uniform := by
  unfold header
  split
  · exact (does_throw _).uniform
  · exact (does_bytes _).uniform

theorem uniform_measure (bs : Bytes) : (measure bs).Uniform := by
  unfold measure
  split
  · exact (does_throw _).uniform
  · exact (does_pure _).uniform

theorem uniform_measureAll (fields : List Bytes) : (measureAll fields).Uniform := by
  induction fields with
  | nil => exact (does_pure 0).uniform
  | cons field fields ih =>
    exact (uniform_measure field).bind fun _ => ih.bind fun _ => (does_pure _).uniform

theorem uniform_forM {w : α → Put Unit} (each : ∀ x, (w x).Uniform) (xs : List α) :
    (xs.forM w).Uniform := by
  induction xs with
  | nil => exact (does_pure ()).uniform
  | cons x xs ih => exact (each x).bind fun _ => ih

end Put

theorem Put.Does.append {w : Put Unit} {r : Except Error Unit} {bs : Bytes} (h : w.Does r bs)
    (buffer : Bytes) : append w buffer = (r, buffer ++ bs) := by
  obtain ⟨after, run, joined⟩ := h [buffer]
  unfold Packet.append
  rw [run]
  exact congrArg (Prod.mk r) joined

theorem Put.Does.encode {w : Put Unit} {bs : Bytes} (h : w.Does (.ok ()) bs) :
    encode w = .ok bs := by
  unfold Packet.encode
  rw [h.append]
  rfl

/-- A uniform writer appends to a buffer what it writes on an empty one. -/
theorem append_eq_ok_iff {w : Put Unit} (uniform : w.Uniform) {buffer after : Bytes} :
    append w buffer = (.ok (), after) ↔
      ∃ packet, encode w = .ok packet ∧ after = buffer ++ packet := by
  obtain ⟨r, bs, does⟩ := uniform
  rw [does.append]
  cases r with
  | error e =>
    have refused : encode w = .error e := by
      unfold encode
      rw [does.append]
    simp [refused]
  | ok u =>
    have written : encode w = .ok bs := does.encode
    simp [written, eq_comm]

/-! ## Fields read -/

theorem of_word {body rest : Bytes} {w : UInt16} (read : Field.word body = .ok (w, rest)) :
    body = Bytes.ofWord w ++ rest := by
  unfold Field.word at read
  split at read
  · cases read
    rw [Bytes.ofWord_word]
    rfl
  · cases read

theorem of_bytes {body field rest : Bytes} (read : Field.bytes body = .ok (field, rest)) :
    body = field.withLength ++ rest ∧ field.length ≤ 65535 := by
  unfold Field.bytes at read
  split at read
  next hi lo tail =>
    dsimp only at read
    split at read
    · cases read
    next enough =>
      cases read
      have whole : (tail.take (Bytes.word hi lo).toNat).length = (Bytes.word hi lo).toNat :=
        Nat.le_antisymm (List.length_take_le _ _) (Nat.not_lt.1 enough)
      have length : (tail.take (Bytes.word hi lo).toNat).length.toUInt16 = Bytes.word hi lo := by
        rw [whole]
        simp
      constructor
      · rw [Bytes.withLength, length, Bytes.ofWord_word, List.append_assoc, List.take_append_drop]
        rfl
      · rw [whole]
        exact Nat.le_of_lt_succ (Bytes.word hi lo).toNat_lt
  · cases read

theorem of_text {body rest : Bytes} {s : String} (read : Field.text body = .ok (s, rest)) :
    body = (Bytes.ofText s).withLength ++ rest ∧ (Bytes.ofText s).length ≤ 65535 := by
  unfold Field.text at read
  split at read
  · cases read
  next field rest' taken =>
    split at read
    · cases read
    next text =>
      cases read
      rw [Bytes.ofText_of_text? text]
      exact of_bytes taken

/-! ## Whole packets -/

/-- Whether some octets are a packet with a given body: a header that tells of the kind,
the flags and the length of the body, and then the body. -/
def IsPacket (packet : Bytes) (kind : Kind) (flags : UInt8) (body : Bytes) : Prop :=
  ∃ head, packet = head ++ body ∧
    Header.decode packet = .ok (some (⟨kind, flags, body.length⟩, head.length))

theorem isPacket_of_shape {first : UInt8} {kind : Kind} {groups body : Bytes}
    (named : Kind.ofFirst? first = some kind) (written : Length.encode body.length = .ok groups) :
    IsPacket (first :: groups ++ body) kind (first &&& 15) body := by
  refine ⟨first :: groups, rfl, ?_⟩
  rw [List.cons_append, Header.decode, named]
  dsimp only
  rw [Length.decode_encode body written]
  rfl

/-- A packet without octets left over is a header and a body. -/
theorem isPacket_of_parse? {packet : Bytes} {p : Inbound} (whole : parse? packet = some p) :
    IsPacket packet p.kind p.flags p.body := by
  unfold parse? at whole
  split at whole
  next header used read =>
    split at whole
    next size =>
      cases whole
      refine ⟨packet.take used, (List.take_append_drop used packet).symm, ?_⟩
      have rest : (packet.drop used).length = header.length := by
        rw [List.length_drop]
        omega
      have front : (packet.take used).length = used := by
        rw [List.length_take]
        omega
      rw [read, rest, front]
    · cases whole
  · cases whole

/-- A body that is not too long has a header. -/
theorem Length.encode_of_le {n : Nat} (fits : n ≤ Length.max) :
    ∃ groups, Length.encode n = .ok groups :=
  ⟨groups n, if_neg (Nat.not_lt.2 fits)⟩

/-- Whether the packets of a kind are written and read by inverse functions.  A value that
was written on a buffer, whatever the buffer held, is read back from its packet as it was
sent, and a body that was read is written again on any buffer. -/
structure Inverse {α : Type} (kind : Kind) (put : α → Put Unit) (flags : α → UInt8)
    (sent : α → α) (decode : UInt8 → Bytes → Except Error α) : Prop where
  read_back : ∀ a buffer after, append (put a) buffer = (.ok (), after) →
    ∃ packet body, after = buffer ++ packet ∧ IsPacket packet kind (flags a) body ∧
      decode (flags a) body = .ok (sent a)
  written_again : ∀ given body a, given < 16 → body.length ≤ Length.max →
    decode given body = .ok a → ∀ buffer, ∃ packet,
      append (put a) buffer = (.ok (), buffer ++ packet) ∧ IsPacket packet kind (flags a) body

/-- Where a writer is uniform, it is enough to look at what it writes on an empty buffer. -/
theorem Inverse.of_encode {α : Type} {kind : Kind} {put : α → Put Unit} {flags : α → UInt8}
    {sent : α → α} {decode : UInt8 → Bytes → Except Error α} (uniform : ∀ a, (put a).Uniform)
    (read_back : ∀ a packet, encode (put a) = .ok packet →
      ∃ body, parse? packet = some ⟨kind, flags a, body⟩ ∧ decode (flags a) body = .ok (sent a))
    (written_again : ∀ given body a groups, given < 16 → decode given body = .ok a →
      Length.encode body.length = .ok groups →
      ∃ first, encode (put a) = .ok (first :: groups ++ body) ∧
        Kind.ofFirst? first = some kind ∧ first &&& 15 = flags a) :
    Inverse kind put flags sent decode where
  read_back a buffer after appended := by
    obtain ⟨packet, written, rfl⟩ := (append_eq_ok_iff (uniform a)).1 appended
    obtain ⟨body, whole, read⟩ := read_back a packet written
    exact ⟨packet, body, rfl, isPacket_of_parse? whole, read⟩
  written_again given body a nibble fits read buffer := by
    obtain ⟨groups, sized⟩ := Length.encode_of_le fits
    obtain ⟨first, written, named, own⟩ := written_again given body a groups nibble read sized
    refine ⟨_, (append_eq_ok_iff (uniform a)).2 ⟨_, written, rfl⟩, ?_⟩
    exact own ▸ isPacket_of_shape named sized

/-! ## Messages -/

namespace Publish

/-- A message as it is sent: without an identifier at the lowest guarantee. -/
def sent (p : Publish) : Publish :=
  { p with packetId := if p.qos = .atMostOnce then none else p.packetId }

theorem uniform_put (p : Publish) : p.put.Uniform := by
  refine (Put.uniform_measure _).bind fun size => ?_
  split
  · exact (Put.does_throw _).uniform
  · exact (Put.uniform_header _ _).bind fun _ => (Put.does_field _).uniform.bind fun _ =>
      (Put.does_bytes _).uniform.bind fun _ => (Put.does_bytes _).uniform

theorem sent_eq {p : Publish} {id : Option UInt16} (own : p.sentId = .ok id) :
    { p with packetId := id } = p.sent := by
  rcases sentId_cases own with ⟨lowest, rfl⟩ | ⟨i, higher, given, rfl, -⟩
  · rw [sent, if_pos lowest]
  · rw [sent, if_neg higher, given]

/-- The flags that say what a message's flags should say are the flags of that message. -/
theorem flagsOf_read {flags : UInt8} {qos : Qos} (nibble : flags < 16)
    (level : Qos.ofByte? (flags >>> 1 &&& 3) = some qos) :
    flagsOf (flags &&& dupFlag != 0) qos (flags &&& 1 != 0) = flags := by
  have all : ∀ n : Fin 16, ∀ q : Qos,
      Qos.ofByte? (UInt8.ofNat n >>> 1 &&& 3) = some q →
      flagsOf (UInt8.ofNat n &&& dupFlag != 0) q (UInt8.ofNat n &&& 1 != 0) = UInt8.ofNat n := by
    intro n q
    cases q <;> revert n <;> decide
  have small : flags.toNat < 16 := UInt8.lt_iff_toNat_lt.1 nibble
  have same : UInt8.ofNat (⟨flags.toNat, small⟩ : Fin 16) = flags := UInt8.ofNat_toNat
  have here := all ⟨flags.toNat, small⟩ qos
  rw [same] at here
  exact here level

/-- What was read is a message that can be sent, and the body is the one that it is sent
with. -/
theorem of_decode {flags : UInt8} {body : Bytes} {p : Publish}
    (read : decode flags body = .ok p) :
    Qos.ofByte? (flags >>> 1 &&& 3) = some p.qos ∧ p.dup = (flags &&& dupFlag != 0) ∧
      p.retain = (flags &&& 1 != 0) ∧ p.sentId = .ok p.packetId ∧
      (Bytes.ofText p.topic).length ≤ 65535 ∧ body = p.head p.packetId ++ p.payload := by
  unfold decode at read
  cases level : Qos.ofByte? (flags >>> 1 &&& 3) with
  | none =>
    simp only [level] at read
    cases read
  | some qos =>
    simp only [level] at read
    cases text : Field.text body with
    | error e =>
      rw [text] at read
      cases read
    | ok taken =>
      obtain ⟨topic, rest⟩ := taken
      obtain ⟨split, short⟩ := of_text text
      rw [text] at read
      simp only [bind, Except.bind] at read
      have higher (own : qos ≠ .atMostOnce) {id : UInt16} {payload : Bytes}
          (word : Field.word rest = .ok (id, payload)) (nonzero : id ≠ 0)
          (same : p = ⟨flags &&& dupFlag != 0, qos, flags &&& 1 != 0, topic, some id, payload⟩) :
          some qos = some p.qos ∧ p.dup = (flags &&& dupFlag != 0) ∧
            p.retain = (flags &&& 1 != 0) ∧ p.sentId = .ok p.packetId ∧
            (Bytes.ofText p.topic).length ≤ 65535 ∧ body = p.head p.packetId ++ p.payload := by
        subst same
        refine ⟨rfl, rfl, rfl, ?_, short, ?_⟩
        · cases qos <;> first | exact absurd rfl own | exact if_neg nonzero
        · rw [split, of_word word, head, List.append_assoc]
          rfl
      cases qos with
      | atMostOnce =>
        cases read
        refine ⟨rfl, rfl, rfl, rfl, short, ?_⟩
        rw [split, head]
        simp
      | atLeastOnce | exactlyOnce =>
        cases word : Field.word rest with
        | error e =>
          rw [word] at read
          cases read
        | ok taken =>
          obtain ⟨id, payload⟩ := taken
          rw [word] at read
          dsimp only at read
          split at read
          · cases read
          next nonzero =>
            cases read
            exact higher Qos.noConfusion word nonzero rfl

theorem flags_of_decode {flags : UInt8} {body : Bytes} {p : Publish} (nibble : flags < 16)
    (read : decode flags body = .ok p) : p.flags = flags := by
  obtain ⟨level, dup, retain, -⟩ := of_decode read
  rw [flags_eq, dup, retain]
  exact flagsOf_read nibble level

theorem inverse : Inverse .publish put flags sent decode := by
  refine .of_encode uniform_put (fun p packet written => ?_)
    fun given body p groups nibble read sized => ?_
  · obtain ⟨id, groups, short, own, sized, same⟩ := encode_eq_ok_iff.1 written
    obtain ⟨id', flags', body, own', whole, read⟩ := parse?_put written
    obtain ⟨named, low, -⟩ := p.first_of_flags
    rw [same, parse?_of_shape named sized, low] at whole
    cases whole
    rw [same, parse?_of_shape named sized, low, ← sent_eq own']
    exact ⟨_, rfl, read⟩
  · obtain ⟨-, -, -, own, short, split⟩ := of_decode read
    obtain ⟨named, low, -⟩ := p.first_of_flags
    refine ⟨_, encode_eq_ok_iff.2 ⟨_, groups, short, own, ?_, ?_⟩, named, low⟩
    · rw [← split]
      exact sized
    · rw [← split]

end Publish

/-! ## Requests about filters -/

namespace Put

variable {α : Type}

/-- The body of a request: an identifier, and then its filters. -/
def request (id : UInt16) (octets : α → Bytes) (filters : List α) : Bytes :=
  Bytes.ofWord id ++ filters.flatMap octets

/-- A request whose filters fit their lengths, and whose body fits its header, is written. -/
theorem does_request {kind : Kind} {id : UInt16} {fields : List Bytes} {length : Nat → Nat}
    {filters : List α} {w : α → Put Unit} {octets : α → Bytes} {groups : Bytes}
    (short : ∀ field ∈ fields, field.length ≤ 65535)
    (each : ∀ filter ∈ filters, (w filter).Does (.ok ()) (octets filter))
    (size : length (room fields) = (request id octets filters).length)
    (sized : Length.encode (request id octets filters).length = .ok groups) :
    (do
      let size ← measureAll fields
      header kind.first (length size)
      word id
      filters.forM w).Does (.ok ()) (kind.first :: groups ++ request id octets filters) := by
  refine (does_measureAll short).bind ((does_header kind.first ?_).bind
    ((does_bytes (Bytes.ofWord id)).bind (does_forM each)))
  rw [size]
  exact sized

theorem uniform_request (kind : Kind) (id : UInt16) (fields : List Bytes) (length : Nat → Nat)
    {w : α → Put Unit} (each : ∀ filter, (w filter).Uniform) (filters : List α) :
    (do
      let size ← measureAll fields
      header kind.first (length size)
      word id
      filters.forM w).Uniform :=
  (uniform_measureAll fields).bind fun _ => (uniform_header _ _).bind fun _ =>
    (does_bytes _).uniform.bind fun _ => uniform_forM each filters

end Put

/-- A request that was read is an identifier and filters, and has at least one. -/
theorem of_request_read {α β : Type} {body : Bytes} {entries : Bytes → Except Error (List α)}
    {make : UInt16 → List α → β} {b : β}
    (read : (do
      let (id, rest) ← Field.word body
      let filters ← entries rest
      if filters.isEmpty then throw .malformed
      return make id filters : Except Error β) = .ok b) :
    ∃ id rest filters, body = Bytes.ofWord id ++ rest ∧ entries rest = .ok filters ∧
      filters ≠ [] ∧ b = make id filters := by
  cases word : Field.word body with
  | error e =>
    rw [word] at read
    cases read
  | ok taken =>
    obtain ⟨id, rest⟩ := taken
    rw [word] at read
    simp only [bind, Except.bind] at read
    cases listed : entries rest with
    | error e =>
      rw [listed] at read
      cases read
    | ok filters =>
      rw [listed] at read
      dsimp only at read
      split at read
      · cases read
      next some =>
        cases read
        exact ⟨id, rest, filters, of_word word, listed,
          fun none => some (List.isEmpty_iff.2 none), rfl⟩

namespace Subscribe

theorem does_entry (filter : String × Qos) :
    (Put.field (Bytes.ofText filter.1) >>= fun _ => Put.bytes [filter.2.toByte]).Does (.ok ())
      (entry filter) :=
  (Put.does_field _).bind (Put.does_bytes _)

theorem uniform_put (s : Subscribe) : s.put.Uniform := by
  unfold put
  split
  · exact (Put.does_throw _).uniform
  · exact Put.uniform_request .subscribe s.packetId _ _ (fun filter => (does_entry filter).uniform) _

theorem decodeFilters_sound {body : Bytes} {filters : List (String × Qos)}
    (read : decodeFilters body = .ok filters) :
    body = filters.flatMap entry ∧
      ∀ filter ∈ filters, (Bytes.ofText filter.1).length ≤ 65535 := by
  fun_induction decodeFilters body generalizing filters with
  | case1 body none =>
    cases read
    exact ⟨List.isEmpty_iff.1 none, fun filter member => by cases member⟩
  | case6 body _ filter number rest text qos level later others ih =>
    cases read
    obtain ⟨same, shorts⟩ := ih others
    obtain ⟨split, short⟩ := of_text text
    refine ⟨?_, List.forall_mem_cons.2 ⟨short, shorts⟩⟩
    rw [split, same, List.flatMap_cons, entry, Qos.toByte_of_ofByte? level, List.append_assoc]
    rfl
  | _ => cases read

theorem length_entry (filter : String × Qos) :
    (entry filter).length = 2 + (Bytes.ofText filter.1).length + 1 := by
  rw [entry, List.length_append, Put.length_withLength]
  rfl

/-- The filters take the room that was measured for them, and one octet each. -/
theorem length_request (s : Subscribe) :
    (Put.request s.packetId entry s.filters).length =
      2 + Put.room (s.filters.map fun filter => Bytes.ofText filter.1) + s.filters.length := by
  rw [Put.request, List.length_append, Put.length_flatMap]
  simp only [length_entry]
  rw [Put.total_succ, Put.room, Put.total_map, ← Nat.add_assoc]
  rfl

/-- What was read is a request that can be sent, and the body is the one that it is sent
with. -/
theorem of_decode {body : Bytes} {s : Subscribe} (read : decode body = .ok s) :
    s.filters ≠ [] ∧ (∀ filter ∈ s.filters, (Bytes.ofText filter.1).length ≤ 65535) ∧
      body = Put.request s.packetId entry s.filters := by
  obtain ⟨id, rest, filters, split, listed, some, rfl⟩ :=
    @of_request_read _ _ body decodeFilters Subscribe.mk s read
  obtain ⟨same, short⟩ := decodeFilters_sound listed
  exact ⟨some, short, by rw [split, same, Put.request]⟩

theorem inverse : Inverse .subscribe put (fun _ => 2) id fun _ => decode := by
  refine .of_encode uniform_put (fun s packet written => read_put written)
    fun given body s groups nibble read sized => ⟨Kind.subscribe.first, ?_, rfl, rfl⟩
  obtain ⟨some, short, rfl⟩ := of_decode read
  unfold put
  rw [if_neg fun none => some (List.isEmpty_iff.1 none)]
  refine (Put.does_request ?_ (fun filter _ => does_entry filter) s.length_request.symm sized).encode
  intro field member
  obtain ⟨filter, listed, rfl⟩ := List.mem_map.1 member
  exact short filter listed

end Subscribe

namespace Unsubscribe

theorem uniform_put (u : Unsubscribe) : u.put.Uniform := by
  unfold put
  split
  · exact (Put.does_throw _).uniform
  · exact Put.uniform_request .unsubscribe u.packetId _ _
      (fun filter => (Put.does_field (Bytes.ofText filter)).uniform) _

theorem decodeFilters_sound {body : Bytes} {filters : List String}
    (read : decodeFilters body = .ok filters) :
    body = filters.flatMap (fun filter => (Bytes.ofText filter).withLength) ∧
      ∀ filter ∈ filters, (Bytes.ofText filter).length ≤ 65535 := by
  fun_induction decodeFilters body generalizing filters with
  | case1 body none =>
    cases read
    exact ⟨List.isEmpty_iff.1 none, fun filter member => by cases member⟩
  | case4 body _ filter rest text later others ih =>
    cases read
    obtain ⟨same, shorts⟩ := ih others
    obtain ⟨split, short⟩ := of_text text
    refine ⟨?_, List.forall_mem_cons.2 ⟨short, shorts⟩⟩
    rw [split, same, List.flatMap_cons]
  | _ => cases read

/-- The filters take the room that was measured for them. -/
theorem length_request (u : Unsubscribe) :
    (Put.request u.packetId (fun filter => (Bytes.ofText filter).withLength) u.filters).length =
      2 + Put.room (u.filters.map Bytes.ofText) := by
  rw [Put.request, List.length_append, Put.length_flatMap, Put.room, Put.total_map]
  simp only [Put.length_withLength]
  rfl

/-- What was read is a request that can be sent, and the body is the one that it is sent
with. -/
theorem of_decode {body : Bytes} {u : Unsubscribe} (read : decode body = .ok u) :
    u.filters ≠ [] ∧ (∀ filter ∈ u.filters, (Bytes.ofText filter).length ≤ 65535) ∧
      body = Put.request u.packetId (fun filter => (Bytes.ofText filter).withLength)
        u.filters := by
  obtain ⟨id, rest, filters, split, listed, some, rfl⟩ :=
    @of_request_read _ _ body decodeFilters Unsubscribe.mk u read
  obtain ⟨same, short⟩ := decodeFilters_sound listed
  exact ⟨some, short, by rw [split, same, Put.request]⟩

theorem inverse : Inverse .unsubscribe put (fun _ => 2) id fun _ => decode := by
  refine .of_encode uniform_put (fun u packet written => read_put written)
    fun given body u groups nibble read sized => ⟨Kind.unsubscribe.first, ?_, rfl, rfl⟩
  obtain ⟨some, short, rfl⟩ := of_decode read
  unfold put
  rw [if_neg fun none => some (List.isEmpty_iff.1 none)]
  refine (Put.does_request ?_ (fun filter _ => Put.does_field (Bytes.ofText filter))
    u.length_request.symm sized).encode
  intro field member
  obtain ⟨filter, listed, rfl⟩ := List.mem_map.1 member
  exact short filter listed

end Unsubscribe

/-- **There and back.**  PUBLISH, SUBSCRIBE and UNSUBSCRIBE are written and read by inverse
functions, and a message that was read has the flags that it was read with. -/
theorem written_and_read :
    Inverse .publish Publish.put Publish.flags Publish.sent Publish.decode ∧
      (∀ flags body p, flags < 16 → Publish.decode flags body = .ok p → p.flags = flags) ∧
      Inverse .subscribe Subscribe.put (fun _ => Kind.subscribe.flags) id
        (fun _ => Subscribe.decode) ∧
      Inverse .unsubscribe Unsubscribe.put (fun _ => Kind.unsubscribe.flags) id
        (fun _ => Unsubscribe.decode) :=
  ⟨Publish.inverse, fun _ _ _ => Publish.flags_of_decode, Subscribe.inverse, Unsubscribe.inverse⟩

end Packet

end Mqtt
