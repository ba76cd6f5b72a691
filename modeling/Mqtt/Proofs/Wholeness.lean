import Mqtt.Proofs.RoundTrip

/-!
# Written whole or not at all

A writer measures the fields that it will write, then it writes the header, then the body.
What can be refused is refused by then: a field that does not fit its length when it is
measured, a body that no header can name when the header is written (`Put.Verdict`).  So a
packet is appended whole, behind whatever was there before, or not an octet of it is.

What fits is said here once more, part by part and without regard to the order in which the
parts are measured or written.
-/

namespace Mqtt

namespace Packet

/-! ## Verdicts -/

namespace Put

theorem does_measure_of_long {bs : Bytes} (long : 65535 < bs.length) :
    (measure bs).Does (.error (.fieldTooLong bs.length)) [] := by
  unfold measure
  rw [if_pos long]
  exact does_throw _

/-- The first field that does not fit its length stops the measuring. -/
theorem does_measureAll_of_long {fields : List Bytes} {field : Bytes}
    (long : fields.find? (fun field => 65535 < field.length) = some field) :
    (measureAll fields).Does (.error (.fieldTooLong field.length)) [] := by
  induction fields with
  | nil => cases long
  | cons first fields ih =>
    rw [List.find?_cons] at long
    split at long
    next exceeds =>
      cases long
      exact (does_measure_of_long (of_decide_eq_true exceeds)).refused
    next fits =>
      have short : first.length ≤ 65535 := Nat.not_lt.1 (of_decide_eq_false fits)
      exact (does_measure short).bind (ih long).refused

/-- What becomes of a packet with some length-prefixed fields and a body of some size.  It is
written; or it is refused before the first octet, for the first field that does not fit its
length or, if all fit, for the size of the body. -/
inductive Verdict (w : Put Unit) (fields : List Bytes) (size : Nat) (packet : Bytes) : Prop
  | written :
    (∀ field ∈ fields, field.length ≤ 65535) → size ≤ Length.max → w.Does (.ok ()) packet →
    Verdict w fields size packet
  | unmeasured {field : Bytes} :
    fields.find? (fun field => 65535 < field.length) = some field →
    w.Does (.error (.fieldTooLong field.length)) [] → Verdict w fields size packet
  | oversized :
    (∀ field ∈ fields, field.length ≤ 65535) → Length.max < size →
    w.Does (.error (.tooLarge size Length.max)) [] → Verdict w fields size packet

variable {w : Put Unit} {fields : List Bytes} {size : Nat} {packet : Bytes}

theorem not_short_of_find? {field : Bytes}
    (found : fields.find? (fun field => 65535 < field.length) = some field) :
    ¬ ∀ field ∈ fields, field.length ≤ 65535 := by
  have long : 65535 < field.length := by simpa using List.find?_some found
  exact fun short => Nat.not_le.2 long (short field (List.mem_of_find?_eq_some found))

/-- With fields that fit their lengths it is the size of the body that matters. -/
theorem Verdict.of_short (verdict : Verdict w fields size packet)
    (short : ∀ field ∈ fields, field.length ≤ 65535) :
    (size ≤ Length.max ∧ w.Does (.ok ()) packet) ∨
      Length.max < size ∧ w.Does (.error (.tooLarge size Length.max)) [] := by
  cases verdict with
  | written _ fits does => exact Or.inl ⟨fits, does⟩
  | unmeasured found _ => exact absurd short (not_short_of_find? found)
  | oversized _ long does => exact Or.inr ⟨long, does⟩

theorem Verdict.does_of_fits (verdict : Verdict w fields size packet)
    (short : ∀ field ∈ fields, field.length ≤ 65535) (fits : size ≤ Length.max) :
    w.Does (.ok ()) packet := by
  rcases verdict.of_short short with ⟨-, does⟩ | ⟨long, -⟩
  · exact does
  · exact absurd fits (Nat.not_le.2 long)

theorem Verdict.refused (verdict : Verdict w fields size packet)
    (unfit : ¬ ((∀ field ∈ fields, field.length ≤ 65535) ∧ size ≤ Length.max)) :
    ∃ e, w.Does (.error e) [] := by
  cases verdict with
  | written short fits _ => exact absurd ⟨short, fits⟩ unfit
  | unmeasured _ does => exact ⟨_, does⟩
  | oversized _ _ does => exact ⟨_, does⟩

theorem Verdict.error_of_short (verdict : Verdict w fields size packet)
    (short : ∀ field ∈ fields, field.length ≤ 65535) {buffer : Bytes} {e : Error}
    (failed : (append w buffer).1 = .error e) :
    Length.max < size ∧ e = .tooLarge size Length.max := by
  rcases verdict.of_short short with ⟨-, does⟩ | ⟨long, does⟩
  · rw [does.append] at failed
    cases failed
  · rw [does.append] at failed
    cases failed
    exact ⟨long, rfl⟩

/-- A header and the body behind it. -/
theorem verdict_framed {first : UInt8} {rest : Put Unit} {body : Bytes}
    (short : ∀ field ∈ fields, field.length ≤ 65535) (writes : rest.Does (.ok ()) body) :
    Verdict (header first body.length >>= fun _ => rest) fields body.length
      (first :: Length.groups body.length ++ body) := by
  by_cases fits : body.length ≤ Length.max
  · have sized : Length.encode body.length = .ok (Length.groups body.length) :=
      if_neg (Nat.not_lt.2 fits)
    exact .written short fits ((does_header first sized).bind writes)
  · have long : Length.max < body.length := Nat.lt_of_not_le fits
    have refused : (header first body.length).Does
        (.error (.tooLarge body.length Length.max)) [] := by
      unfold header Length.encode
      rw [if_pos long]
      exact does_throw _
    exact .oversized short long refused.refused

/-- Measuring that goes well hands over to what comes next. -/
theorem Verdict.after {α : Type} {x : Put α} {a : α} {f : α → Put Unit}
    (measured : x.Does (.ok a) []) (verdict : Verdict (f a) fields size packet) :
    Verdict (x >>= f) fields size packet := by
  cases verdict with
  | written short fits does => exact .written short fits (measured.bind does)
  | unmeasured found does => exact .unmeasured found (measured.bind does)
  | oversized short long does => exact .oversized short long (measured.bind does)

/-- What is measured field by field is framed if each of them fits. -/
theorem verdict_measured {first : UInt8} {length : Nat → Nat} {rest : Put Unit} {body : Bytes}
    (sized : length (room fields) = body.length) (writes : rest.Does (.ok ()) body) :
    Verdict (do
      let size ← measureAll fields
      header first (length size)
      rest) fields body.length (first :: Length.groups body.length ++ body) := by
  cases found : fields.find? (fun field => 65535 < field.length) with
  | some field => exact .unmeasured found (does_measureAll_of_long found).refused
  | none =>
    have short : ∀ field ∈ fields, field.length ≤ 65535 := fun field member =>
      Nat.not_lt.1 fun long => List.find?_eq_none.1 found field member (decide_eq_true long)
    refine .after (does_measureAll short) ?_
    rw [sized]
    exact verdict_framed short writes

end Put

/-! ## All or nothing -/

/-- Whether the packets of a kind are written whole or not at all.  What fits, and nothing
else, is written on any buffer: then one packet, the same behind any buffer, is appended, and
its body is as large as it was said to be.  After a refusal the buffer is as it was. -/
structure AllOrNothing {α : Type} (kind : Kind) (put : α → Put Unit) (flags : α → UInt8)
    (size : α → Nat) (fits : α → Prop) : Prop where
  written_iff : ∀ a buffer, (append (put a) buffer).1 = .ok () ↔ fits a
  appended : ∀ a, fits a → ∃ packet body, IsPacket packet kind (flags a) body ∧
    body.length = size a ∧ ∀ buffer, append (put a) buffer = (.ok (), buffer ++ packet)
  untouched : ∀ a buffer e after, append (put a) buffer = (.error e, after) → after = buffer

/-- Where a writer does the same on every buffer, it is enough to tell what it writes from what
it refuses. -/
theorem AllOrNothing.of_does {α : Type} {kind : Kind} {put : α → Put Unit} {flags : α → UInt8}
    {size : α → Nat} {fits : α → Prop}
    (written : ∀ a, fits a → ∃ packet body, IsPacket packet kind (flags a) body ∧
      body.length = size a ∧ (put a).Does (.ok ()) packet)
    (refused : ∀ a, ¬ fits a → ∃ e, (put a).Does (.error e) []) :
    AllOrNothing kind put flags size fits where
  written_iff a buffer := by
    by_cases holds : fits a
    · obtain ⟨packet, body, -, -, does⟩ := written a holds
      simp [does.append, holds]
    · obtain ⟨e, does⟩ := refused a holds
      simp [does.append, holds]
  appended a holds := by
    obtain ⟨packet, body, whole, length, does⟩ := written a holds
    exact ⟨packet, body, whole, length, does.append⟩
  untouched a buffer e after failed := by
    by_cases holds : fits a
    · obtain ⟨packet, body, -, -, does⟩ := written a holds
      rw [does.append] at failed
      cases failed
    · obtain ⟨e', does⟩ := refused a holds
      rw [does.append] at failed
      cases failed
      exact List.append_nil _

/-- A packet that lacks no part is judged by its fields and its size, and one that lacks a part
is refused at once. -/
theorem AllOrNothing.of_verdict {α : Type} {kind : Kind} {put : α → Put Unit}
    {flags : α → UInt8} {size : α → Nat} {fits : α → Prop} (complete : α → Prop)
    (fields : α → List Bytes)
    (fits_iff : ∀ a, fits a ↔
      complete a ∧ (∀ field ∈ fields a, field.length ≤ 65535) ∧ size a ≤ Length.max)
    (verdict : ∀ a, complete a → ∃ first body, Kind.ofFirst? first = some kind ∧
      first &&& 15 = flags a ∧ body.length = size a ∧
      Put.Verdict (put a) (fields a) (size a) (first :: Length.groups (size a) ++ body))
    (lacking : ∀ a, ¬ complete a → ∃ e, (put a).Does (.error e) []) :
    AllOrNothing kind put flags size fits := by
  refine .of_does (fun a holds => ?_) fun a unfit => ?_
  · obtain ⟨whole, short, within⟩ := (fits_iff a).1 holds
    obtain ⟨first, body, named, low, length, judged⟩ := verdict a whole
    have sized : Length.encode body.length = .ok (Length.groups (size a)) := by
      rw [length]
      exact if_neg (Nat.not_lt.2 within)
    exact ⟨_, body, low ▸ isPacket_of_shape named sized, length, judged.does_of_fits short within⟩
  · by_cases whole : complete a
    · obtain ⟨first, body, -, -, -, judged⟩ := verdict a whole
      exact judged.refused fun within => unfit ((fits_iff a).2 ⟨whole, within⟩)
    · exact lacking a whole

/-! ## CONNECT -/

namespace Connect

/-- The octets of the body of a CONNECT: ten before the first field, and each field that is
present behind its length. -/
def bodySize (c : Connect) : Nat :=
  10 + (2 + c.clientId.utf8ByteSize)
    + (match c.will with
      | none => 0
      | some will => (2 + will.topic.utf8ByteSize) + (2 + will.payload.length))
    + match c.username with
      | none => 0
      | some name => (2 + name.utf8ByteSize) + match c.password with
        | none => 0
        | some password => 2 + password.length

/-- Whether the parts of a CONNECT fit: each field its length, and all of them the header.  A
password counts only beside a user name. -/
structure Fits (c : Connect) : Prop where
  clientId : c.clientId.utf8ByteSize ≤ 65535
  will : ∀ will, c.will = some will →
    will.topic.utf8ByteSize ≤ 65535 ∧ will.payload.length ≤ 65535
  username : ∀ name, c.username = some name → name.utf8ByteSize ≤ 65535
  password : ∀ name password, c.username = some name → c.password = some password →
    password.length ≤ 65535
  body : c.bodySize ≤ Length.max

/-- The body of a CONNECT. -/
def body (c : Connect) : Bytes :=
  protocolName.withLength ++ ([protocolLevel, c.flags] ++ (Bytes.ofWord c.keepAlive ++
    c.fields.flatMap Bytes.withLength))

theorem length_body (c : Connect) : 10 + Put.room c.fields = c.body.length := by
  simp only [body, List.length_append, Put.length_withLength, Put.length_flatMap]
  simp [Put.room, protocolName, Bytes.ofWord]
  omega

/-- The fields take the room that is told of each. -/
theorem bodySize_eq (c : Connect) : c.body.length = c.bodySize := by
  rw [← length_body]
  unfold bodySize fields sentPassword
  cases c.will <;> cases c.username <;> cases c.password <;>
    simp [Put.room, Put.total, Bytes.ofText] <;> omega

theorem verdict (c : Connect) :
    Put.Verdict c.put c.fields c.bodySize
      (Kind.connect.first :: Length.groups c.bodySize ++ c.body) := by
  rw [← bodySize_eq]
  exact Put.verdict_measured c.length_body <| (Put.does_field protocolName).bind <|
    (Put.does_bytes [protocolLevel, c.flags]).bind <|
      (Put.does_bytes (Bytes.ofWord c.keepAlive)).bind <|
        Put.does_forM fun field _ => Put.does_field field

theorem short_iff (c : Connect) :
    (∀ field ∈ c.fields, field.length ≤ 65535) ↔
      c.clientId.utf8ByteSize ≤ 65535 ∧
      (∀ will, c.will = some will →
        will.topic.utf8ByteSize ≤ 65535 ∧ will.payload.length ≤ 65535) ∧
      (∀ name, c.username = some name → name.utf8ByteSize ≤ 65535) ∧
      ∀ name password, c.username = some name → c.password = some password →
        password.length ≤ 65535 := by
  unfold fields sentPassword
  cases c.will <;> cases c.username <;> cases c.password <;> simp [Bytes.ofText, and_assoc]

theorem fits_iff (c : Connect) :
    c.Fits ↔ True ∧ (∀ field ∈ c.fields, field.length ≤ 65535) ∧ c.bodySize ≤ Length.max := by
  rw [short_iff]
  constructor
  · intro h
    exact ⟨trivial, ⟨h.clientId, h.will, h.username, h.password⟩, h.body⟩
  · rintro ⟨-, ⟨clientId, will, username, password⟩, body⟩
    exact ⟨clientId, will, username, password, body⟩

theorem allOrNothing : AllOrNothing .connect put (fun _ => Kind.connect.flags) bodySize Fits :=
  .of_verdict (fun _ => True) fields fits_iff
    (fun c _ => ⟨_, c.body, rfl, rfl, c.bodySize_eq, c.verdict⟩) fun _ lacking =>
      absurd trivial lacking

end Connect

/-! ## PUBLISH -/

namespace Publish

/-- The octets of the body of a PUBLISH.  Only the lowest guarantee does without an
identifier. -/
def bodySize (p : Publish) : Nat :=
  (2 + p.topic.utf8ByteSize) + (if p.qos = .atMostOnce then 0 else 2) + p.payload.length

/-- Whether the parts of a PUBLISH fit, and an identifier other than zero is there if there has
to be one. -/
structure Fits (p : Publish) : Prop where
  topic : p.topic.utf8ByteSize ≤ 65535
  packetId : p.qos ≠ .atMostOnce → ∃ id, p.packetId = some id ∧ id ≠ 0
  body : p.bodySize ≤ Length.max

/-- An identifier is refused only where there has to be one and there is none, or zero. -/
theorem of_sentId_error {p : Publish} {e : Error} (refused : p.sentId = .error e) :
    e = .malformed ∧ p.qos ≠ .atMostOnce ∧ (p.packetId = none ∨ p.packetId = some 0) := by
  unfold sentId at refused
  split at refused
  · cases refused
  next id given higher =>
    split at refused
    next zero =>
      cases refused
      exact ⟨rfl, higher, Or.inr (by rw [given, zero])⟩
    · cases refused
  next missing higher =>
    cases refused
    exact ⟨rfl, higher, Or.inl missing⟩

/-- The body is as large as it was said to be. -/
theorem bodySize_eq {p : Publish} {id : Option UInt16} (own : p.sentId = .ok id) :
    (p.head id ++ p.payload).length = p.bodySize := by
  unfold bodySize head
  rw [List.length_append, List.length_append, Put.length_withLength]
  rcases sentId_cases own with ⟨lowest, rfl⟩ | ⟨i, higher, -, rfl, -⟩
  · rw [if_pos lowest]
    rfl
  · rw [if_neg higher]
    rfl

theorem verdict {p : Publish} {id : Option UInt16} (own : p.sentId = .ok id) :
    Put.Verdict p.put [Bytes.ofText p.topic] p.bodySize
      ((Kind.publish.first ||| p.flags) :: Length.groups p.bodySize ++
        (p.head id ++ p.payload)) := by
  rw [← bodySize_eq own]
  unfold put
  by_cases long : 65535 < (Bytes.ofText p.topic).length
  · exact .unmeasured (by simp [long]) (Put.does_measure_of_long long).refused
  · have short : (Bytes.ofText p.topic).length ≤ 65535 := Nat.not_lt.1 long
    refine .after (Put.does_measure short) ?_
    have sized : 2 + (Bytes.ofText p.topic).length + p.payload.length +
        ((id.map Bytes.ofWord).getD []).length = (p.head id ++ p.payload).length := by
      rw [head, List.length_append, List.length_append, Put.length_withLength]
      omega
    rw [own]
    dsimp only
    rw [sized]
    refine Put.verdict_framed (by simpa using short) ?_
    rw [head, List.append_assoc]
    exact (Put.does_field _).bind ((Put.does_bytes _).bind (Put.does_bytes _))

theorem fits_iff (p : Publish) :
    p.Fits ↔ (∃ id, p.sentId = .ok id) ∧
      (∀ field ∈ [Bytes.ofText p.topic], field.length ≤ 65535) ∧ p.bodySize ≤ Length.max := by
  constructor
  · intro h
    refine ⟨?_, fun field member => List.mem_singleton.1 member ▸ h.topic, h.body⟩
    cases own : p.sentId with
    | ok id => exact ⟨id, rfl⟩
    | error e =>
      obtain ⟨-, higher, missing⟩ := of_sentId_error own
      obtain ⟨id, given, nonzero⟩ := h.packetId higher
      rw [given] at missing
      rcases missing with missing | zero
      · cases missing
      · cases zero
        exact absurd rfl nonzero
  · rintro ⟨⟨id, own⟩, short, body⟩
    refine ⟨short _ (List.mem_singleton_self _), fun higher => ?_, body⟩
    rcases sentId_cases own with ⟨lowest, -⟩ | ⟨i, -, given, -, nonzero⟩
    · exact absurd lowest higher
    · exact ⟨i, given, nonzero⟩

/-- Without the identifier that there has to be, a message with a topic that fits is malformed. -/
theorem does_of_sentId_error {p : Publish} {e : Error} (lacking : p.sentId = .error e) :
    ∃ e, p.put.Does (.error e) [] ∧
      (p.topic.utf8ByteSize ≤ 65535 → e = .malformed) := by
  unfold put
  by_cases short : (Bytes.ofText p.topic).length ≤ 65535
  · refine ⟨e, (Put.does_measure short).bind ?_, fun _ => (of_sentId_error lacking).1⟩
    rw [lacking]
    exact Put.does_throw e
  · exact ⟨_, (Put.does_measure_of_long (Nat.lt_of_not_le short)).refused,
      fun fits => absurd fits short⟩

theorem allOrNothing : AllOrNothing .publish put flags bodySize Fits := by
  refine .of_verdict (fun p => ∃ id, p.sentId = .ok id) (fun p => [Bytes.ofText p.topic]) fits_iff
    (fun p own => ?_) fun p lacking => ?_
  · obtain ⟨id, own⟩ := own
    obtain ⟨named, low, -⟩ := p.first_of_flags
    exact ⟨_, _, named, low, bodySize_eq own, verdict own⟩
  · cases own : p.sentId with
    | ok id => exact absurd ⟨id, own⟩ lacking
    | error e =>
      obtain ⟨e, does, -⟩ := does_of_sentId_error own
      exact ⟨e, does⟩

end Publish

/-! ## Requests about filters -/

namespace Subscribe

/-- The octets of the body of a SUBSCRIBE: an identifier, and for each filter its length, its
text and its guarantee. -/
def bodySize (s : Subscribe) : Nat :=
  2 + Put.total (fun filter => 2 + filter.1.utf8ByteSize + 1) s.filters

/-- Whether there are filters, each fits its length and all of them fit the header. -/
structure Fits (s : Subscribe) : Prop where
  filters : s.filters ≠ []
  short : ∀ filter ∈ s.filters, filter.1.utf8ByteSize ≤ 65535
  body : s.bodySize ≤ Length.max

/-- The body of a SUBSCRIBE. -/
def body (s : Subscribe) : Bytes :=
  Put.request s.packetId entry s.filters

theorem bodySize_eq (s : Subscribe) : s.body.length = s.bodySize := by
  rw [body, Put.request, List.length_append, Put.length_flatMap]
  simp only [length_entry]
  rfl

theorem verdict {s : Subscribe} (stated : s.filters ≠ []) :
    Put.Verdict s.put (s.filters.map fun filter => Bytes.ofText filter.1) s.bodySize
      (Kind.subscribe.first :: Length.groups s.bodySize ++ s.body) := by
  rw [← bodySize_eq]
  unfold put
  rw [if_neg fun none => stated (List.isEmpty_iff.1 none)]
  exact Put.verdict_measured s.length_request.symm <|
    (Put.does_bytes (Bytes.ofWord s.packetId)).bind <|
      Put.does_forM fun filter _ => does_entry filter

theorem does_of_empty {s : Subscribe} (empty : s.filters = []) :
    s.put.Does (.error .malformed) [] := by
  unfold put
  rw [if_pos (List.isEmpty_iff.2 empty)]
  exact Put.does_throw _

theorem fits_iff (s : Subscribe) :
    s.Fits ↔ s.filters ≠ [] ∧
      (∀ field ∈ s.filters.map fun filter => Bytes.ofText filter.1, field.length ≤ 65535) ∧
      s.bodySize ≤ Length.max := by
  rw [List.forall_mem_map]
  exact ⟨fun h => ⟨h.filters, h.short, h.body⟩, fun ⟨stated, short, body⟩ => ⟨stated, short, body⟩⟩

theorem allOrNothing :
    AllOrNothing .subscribe put (fun _ => Kind.subscribe.flags) bodySize Fits :=
  .of_verdict (fun s => s.filters ≠ []) (fun s => s.filters.map fun filter => Bytes.ofText filter.1)
    fits_iff (fun s stated => ⟨_, s.body, rfl, rfl, s.bodySize_eq, verdict stated⟩)
    fun _ empty => ⟨_, does_of_empty (Decidable.not_not.1 empty)⟩

end Subscribe

namespace Unsubscribe

/-- The octets of the body of an UNSUBSCRIBE: an identifier, and for each filter its length and
its text. -/
def bodySize (u : Unsubscribe) : Nat :=
  2 + Put.total (fun filter => 2 + filter.utf8ByteSize) u.filters

/-- Whether there are filters, each fits its length and all of them fit the header. -/
structure Fits (u : Unsubscribe) : Prop where
  filters : u.filters ≠ []
  short : ∀ filter ∈ u.filters, filter.utf8ByteSize ≤ 65535
  body : u.bodySize ≤ Length.max

/-- The body of an UNSUBSCRIBE. -/
def body (u : Unsubscribe) : Bytes :=
  Put.request u.packetId (fun filter => (Bytes.ofText filter).withLength) u.filters

theorem bodySize_eq (u : Unsubscribe) : u.body.length = u.bodySize := by
  rw [body, Put.request, List.length_append, Put.length_flatMap]
  simp only [Put.length_withLength]
  rfl

theorem verdict {u : Unsubscribe} (stated : u.filters ≠ []) :
    Put.Verdict u.put (u.filters.map Bytes.ofText) u.bodySize
      (Kind.unsubscribe.first :: Length.groups u.bodySize ++ u.body) := by
  rw [← bodySize_eq]
  unfold put
  rw [if_neg fun none => stated (List.isEmpty_iff.1 none)]
  exact Put.verdict_measured u.length_request.symm <|
    (Put.does_bytes (Bytes.ofWord u.packetId)).bind <|
      Put.does_forM fun filter _ => Put.does_field (Bytes.ofText filter)

theorem does_of_empty {u : Unsubscribe} (empty : u.filters = []) :
    u.put.Does (.error .malformed) [] := by
  unfold put
  rw [if_pos (List.isEmpty_iff.2 empty)]
  exact Put.does_throw _

theorem fits_iff (u : Unsubscribe) :
    u.Fits ↔ u.filters ≠ [] ∧ (∀ field ∈ u.filters.map Bytes.ofText, field.length ≤ 65535) ∧
      u.bodySize ≤ Length.max := by
  rw [List.forall_mem_map]
  exact ⟨fun h => ⟨h.filters, h.short, h.body⟩, fun ⟨stated, short, body⟩ => ⟨stated, short, body⟩⟩

theorem allOrNothing :
    AllOrNothing .unsubscribe put (fun _ => Kind.unsubscribe.flags) bodySize Fits :=
  .of_verdict (fun u => u.filters ≠ []) (fun u => u.filters.map Bytes.ofText) fits_iff
    (fun u stated => ⟨_, u.body, rfl, rfl, u.bodySize_eq, verdict stated⟩)
    fun _ empty => ⟨_, does_of_empty (Decidable.not_not.1 empty)⟩

end Unsubscribe

/-- **All or nothing.**  CONNECT, PUBLISH, SUBSCRIBE and UNSUBSCRIBE are written exactly if
their parts fit, on any buffer and then as one packet that does not depend on it; and where they
are refused the buffer stays as it was. -/
theorem encoders_allOrNothing :
    AllOrNothing .connect Connect.put (fun _ => Kind.connect.flags) Connect.bodySize
        Connect.Fits ∧
      AllOrNothing .publish Publish.put Publish.flags Publish.bodySize Publish.Fits ∧
      AllOrNothing .subscribe Subscribe.put (fun _ => Kind.subscribe.flags) Subscribe.bodySize
        Subscribe.Fits ∧
      AllOrNothing .unsubscribe Unsubscribe.put (fun _ => Kind.unsubscribe.flags)
        Unsubscribe.bodySize Unsubscribe.Fits :=
  ⟨Connect.allOrNothing, Publish.allOrNothing, Subscribe.allOrNothing, Unsubscribe.allOrNothing⟩

end Packet

end Mqtt
