import Mqtt.Proofs.Reconnections
import Mqtt.Proofs.Topics

/-!
# What goes into CONNECT

Settings and wills are checked when they come in, and CONNECT is written at every attempt.
The lengths of the client identifier and of the topic of a will are checked then; those of
the user name, the password and the payload of a will are not, though each goes into CONNECT
behind a length of two octets.  With one of these too long CONNECT cannot be written, however
sound the settings are, and every attempt fails before the first octet is offered
(`connect_unwritten_iff`).  All else that can go wrong with CONNECT is the transport's doing.
-/

namespace Mqtt

namespace Packet

namespace Put

theorem room_le {fields : List Bytes} (short : ∀ field ∈ fields, field.length ≤ 65535) :
    room fields ≤ 65537 * fields.length := by
  induction fields with
  | nil => exact Nat.le_refl 0
  | cons first fields ih =>
    obtain ⟨fits, others⟩ := List.forall_mem_cons.1 short
    have rest := ih others
    change 2 + first.length + room fields ≤ 65537 * (fields.length + 1)
    omega

end Put

namespace Connect

variable {c : Connect}

theorem length_fields_le (c : Connect) : c.fields.length ≤ 5 := by
  have username := (c.username.map Bytes.ofText).length_toList_le
  have password := c.sentPassword.length_toList_le
  unfold fields
  cases c.will with
  | none =>
    simp only [List.length_append, List.length_singleton, List.length_nil]
    omega
  | some will =>
    simp only [List.length_append, List.length_cons, List.length_nil]
    omega

theorem encode_of_long {field : Bytes}
    (long : c.fields.find? (fun field => 65535 < field.length) = some field) :
    encode c.put = .error (.fieldTooLong field.length) := by
  have refused : c.put.Does (.error (.fieldTooLong field.length)) [] :=
    (Put.does_measureAll_of_long long).refused
  unfold encode
  rw [refused.append]

/-- Fields that fit their lengths fit the header together. -/
theorem encode_of_short (short : ∀ field ∈ c.fields, field.length ≤ 65535) :
    ∃ packet, encode c.put = .ok packet := by
  have fits : c.bodySize ≤ Length.max := by
    rw [← bodySize_eq, ← length_body]
    have room := Put.room_le short
    have few := c.length_fields_le
    unfold Length.max
    omega
  exact ⟨_, (c.verdict.does_of_fits short fits).encode⟩

end Connect

end Packet

namespace Config

/-- What goes into CONNECT with a length that nothing checks. -/
def unmeasured (config : Config) (will : Option LastWill) : List Bytes :=
  (will.map (·.payload)).toList ++ (config.username.map Bytes.ofText).toList ++
    (config.password.map Bytes.ofText).toList

/-- The first of these that does not fit its length in CONNECT. -/
def oversized? (config : Config) (will : Option LastWill) : Option Bytes :=
  (config.unmeasured will).find? fun field => 65535 < field.length

/-- What sound settings say of the fields of CONNECT. -/
theorem of_validate {config : Config} (valid : config.validate = .ok ()) :
    config.clientId.utf8ByteSize ≤ 65535 ∧ (config.username = none → config.password = none) := by
  unfold validate at valid
  split at valid
  · cases valid
  split at valid
  · cases valid
  next short =>
    split at valid
    · cases valid
    split at valid
    · cases valid
    next beside =>
      refine ⟨Nat.not_lt.1 short, fun nameless => ?_⟩
      cases given : config.password with
      | none => rfl
      | some password => exact absurd (by rw [given, nameless]; rfl) beside

end Config

/-- Whether a will was made, and its topic so checked. -/
def LastWill.Made (will : LastWill) : Prop :=
  make will.topic will.payload will.qos will.retain = .ok will

/-- The topic of a will that was made fits its length. -/
theorem LastWill.Made.topic_le {will : LastWill} (made : will.Made) :
    will.topic.utf8ByteSize ≤ 65535 := by
  unfold Made make at made
  split at made
  · cases made
  next checked => exact Topic.utf8ByteSize_le_of_checkName checked

namespace Act

/-- Of the fields of CONNECT only those that nothing checked can be too long. -/
theorem find?_fields {config : Config} (valid : config.validate = .ok ())
    {will : Option LastWill} (made : ∀ w ∈ will, w.Made) :
    (connectPacket config will).fields.find? (fun field => 65535 < field.length) =
      config.oversized? will := by
  obtain ⟨short, beside⟩ := Config.of_validate valid
  have clientId : ¬ 65535 < (Bytes.ofText config.clientId).length := Nat.not_lt.2 short
  have password : (connectPacket config will).sentPassword = config.password.map Bytes.ofText := by
    unfold Packet.Connect.sentPassword connectPacket
    cases named : config.username with
    | none => rw [beside named]; rfl
    | some name => rfl
  unfold Packet.Connect.fields Config.oversized? Config.unmeasured
  rw [password]
  cases will with
  | none => simp [connectPacket, clientId]
  | some will =>
    have topic : ¬ 65535 < (Bytes.ofText will.topic).length :=
      Nat.not_lt.2 (made will rfl).topic_le
    simp [connectPacket, clientId, topic]

theorem encode_connectPacket {config : Config} (valid : config.validate = .ok ())
    {will : Option LastWill} (made : ∀ w ∈ will, w.Made) :
    (∀ field, config.oversized? will = some field →
      Packet.encode (connectPacket config will).put = .error (.fieldTooLong field.length)) ∧
    (config.oversized? will = none →
      ∃ packet, Packet.encode (connectPacket config will).put = .ok packet) := by
  rw [← find?_fields valid made]
  refine ⟨fun field long => Packet.Connect.encode_of_long long, fun none => ?_⟩
  refine Packet.Connect.encode_of_short fun field member => Nat.not_lt.1 fun long => ?_
  exact List.find?_eq_none.1 none field member (decide_eq_true long)

end Act

variable {σ : Type}

/-- The system as the application is told that no session could be opened. -/
def System.failing (s : System σ) (status : ConnectStatus) : System σ :=
  (s.close.change fun c => { c with phase := .disconnected }).announce
    (.disconnected (.connectFailed status))

variable [Environment σ] {s : System σ} {config : Config}

theorem Route.fails {status : ConnectStatus} {s' : System σ}
    (route : Route (.ends (.connectFailed status)) s s') : Calls (s.failing status) s' := by
  obtain _ | ⟨goes, rests⟩ := route
  cases goes with
  | ended =>
    obtain rfl := rests.eq_of_rests
    exact Act.tell_calls (.disconnected (.connectFailed status))

/-- What comes of CONNECT depends on whether it can be written and, if it can, on whether it
can be sent. -/
theorem Route.hails {s' : System σ} (route : Route (.hails config) s s')
    (linked : s.client.linked = true) :
    (∀ e, Packet.encode (Act.connectPacket config s.client.will).put = .error e →
      Calls (s.failing .sendFailed) s') ∧
    ∀ packet, Packet.encode (Act.connectPacket config s.client.will).put = .ok packet →
      (∀ e, s.sendResult packet = .error e → Calls ((s.afterSend packet).failing .sendFailed) s') ∧
      (s.sendResult packet = .ok () →
        ∃ reader, s' = (s.afterSend packet).change fun c =>
          { c with place := .greeting reader }) := by
  obtain _ | ⟨goes, rest⟩ := route
  cases goes with
  | unwritten failed =>
    obtain unlinked | ⟨e, written⟩ := failed
    · cases unlinked.symm.trans linked
    · exact ⟨fun _ _ => rest.fails, fun packet encoded => by cases written.symm.trans encoded⟩
  | unsent _ written broken =>
    refine ⟨fun e failed => (by cases written.symm.trans failed), fun packet encoded => ?_⟩
    cases written.symm.trans encoded
    exact ⟨fun _ _ => rest.fails, fun sent => by cases broken.symm.trans sent⟩
  | hailed _ written sent =>
    refine ⟨fun e failed => (by cases written.symm.trans failed), fun packet encoded => ?_⟩
    cases written.symm.trans encoded
    exact ⟨fun e broken => (by cases sent.symm.trans broken), fun _ => ⟨_, rest.eq_of_rests⟩⟩

/-- The settings with which an attempt to connect is made are sound. -/
theorem Reachable.connecting_valid (reachable : Reachable s)
    (here : s.client.place = .connecting config) : config.validate = .ok () := by
  induction reachable with
  | created outside made =>
    obtain ⟨-, rfl⟩ := create_eq_ok made
    cases here
  | @input s input reachable ih =>
    by_cases before : s.client.place = .unstarted
    · rcases ((reachable.young before).take before input).early.2 with ⟨place, -⟩ | ⟨place, -⟩ <;>
        cases place.symm.trans here
    · rcases (reachable.course (reachable.begun before) input).place with
        alike | present | ⟨_, place, -⟩ | place | place
      · exact ih (here ▸ alike.eq (by rw [here]; rfl))
      · exact absurd (by rw [here]; trivial) present
      · cases place.symm.trans here
      · cases place.symm.trans here
        exact reachable.good.1.valid
      · cases place.symm.trans here

/-- **CONNECT that cannot be written.**  Of sound settings and a will that was made CONNECT is
written exactly if the user name, the password and the payload of the will fit their lengths.  So
of a reachable client with no will or such a will an attempt that got its transport fails for
another reason than the transport exactly if one of them does not: then nothing is offered to the
transport, it is closed, and the application is told that CONNECT was not sent. -/
theorem connect_unwritten_iff :
    (∀ (config : Config) (will : Option LastWill), config.validate = .ok () →
      (∀ w ∈ will, w.Made) →
      (∀ field, config.oversized? will = some field →
        Packet.encode (Act.connectPacket config will).put = .error (.fieldTooLong field.length)) ∧
      (config.oversized? will = none →
        ∃ packet, Packet.encode (Act.connectPacket config will).put = .ok packet)) ∧
    ∀ {s : System σ} {config : Config}, Reachable s → s.client.place = .connecting config →
      (∀ w ∈ s.client.will, w.Made) →
      config.validate = .ok () ∧
      (config.oversized? s.client.will ≠ none →
        Calls (s.opened.failing .sendFailed) (s.take (.dialled (.ok ())))) ∧
      (config.oversized? s.client.will = none →
        ∃ packet, Packet.encode (Act.connectPacket config s.client.will).put = .ok packet ∧
          (s.opened.sendResult packet = .ok () ∧
              (∃ reader, s.take (.dialled (.ok ())) = (s.opened.afterSend packet).change
                fun c => { c with place := .greeting reader }) ∨
            ∃ e, s.opened.sendResult packet = .error (.transport e) ∧
              Calls ((s.opened.afterSend packet).failing .sendFailed)
                (s.take (.dialled (.ok ()))))) := by
  refine ⟨fun config will valid made => Act.encode_connectPacket valid made, ?_⟩
  intro s config reachable here made
  have valid := reachable.connecting_valid here
  obtain ⟨unwritten, written⟩ := Act.encode_connectPacket valid made
  have linked : s.opened.client.linked = true := rfl
  obtain ⟨fails, ends⟩ := (opened_route here).hails linked
  refine ⟨valid, fun exceeds => ?_, fun fits => ?_⟩
  · obtain ⟨field, long⟩ := Option.ne_none_iff_exists'.1 exceeds
    exact fails _ (unwritten field long)
  · obtain ⟨packet, encoded⟩ := written fits
    obtain ⟨broke, greets⟩ := ends packet encoded
    refine ⟨packet, encoded, ?_⟩
    rcases System.sendResult_of_linked linked packet with ⟨-, sent⟩ | ⟨e, -, failed⟩
    · exact Or.inl ⟨sent, greets sent⟩
    · exact Or.inr ⟨e, failed, broke _ failed⟩

/-- A name of so many letters. -/
def nameOf (letters : Nat) : String :=
  String.ofList (List.replicate letters 'u')

theorem length_nameOf (letters : Nat) : (Bytes.ofText (nameOf letters)).length = letters := by
  change (nameOf letters).toByteArray.size = letters
  rw [nameOf, String.toByteArray_ofList]
  simp only [List.utf8Encode, List.size_toByteArray, List.length_flatMap,
    String.length_utf8EncodeChar, List.map_replicate, List.sum_replicate_nat]
  exact Nat.mul_one letters

/-- Sound settings with a user name. -/
def named (name : String) : Config :=
  { host := "broker", clientId := "dev", username := some name }

theorem oversized?_named {name : String} (long : 65535 < (Bytes.ofText name).length) :
    (named name).oversized? none = some (Bytes.ofText name) := by
  change [Bytes.ofText name].find? _ = _
  rw [List.find?_cons, decide_eq_true long]

/-- A client with these settings that waits for its transport. -/
def dialling (name : String) : System Script :=
  System.takes ⟨Client.fresh (named name), {}, []⟩ [.call .start, .turn]

theorem reachable_dialling (name : String) : Reachable (dialling name) := by
  have made : Client.create (named name) = .ok (Client.fresh (named name)) := rfl
  exact (Reachable.created _ made).takes _

theorem connect_unwritten_iff_named :
    (named (nameOf 65536)).validate = .ok () ∧
      Packet.encode (Act.connectPacket (named (nameOf 65536)) none).put =
        .error (.fieldTooLong 65536) ∧
      (dialling (nameOf 65536)).client.place = .connecting (named (nameOf 65536)) ∧
      Calls ((dialling (nameOf 65536)).opened.failing .sendFailed)
        ((dialling (nameOf 65536)).take (.dialled (.ok ()))) := by
  -- the name is kept from being spelled out
  have holds : ∀ name, (Bytes.ofText name).length = 65536 → (named name).validate = .ok () ∧
      Packet.encode (Act.connectPacket (named name) none).put = .error (.fieldTooLong 65536) ∧
      (dialling name).client.place = .connecting (named name) ∧
      Calls ((dialling name).opened.failing .sendFailed)
        ((dialling name).take (.dialled (.ok ()))) := by
    intro name length
    have valid : (named name).validate = .ok () := rfl
    have found : (named name).oversized? none = some (Bytes.ofText name) :=
      oversized?_named (by omega)
    have here : (dialling name).client.place = .connecting (named name) := rfl
    have will : (dialling name).client.will = none := rfl
    obtain ⟨writes, runs⟩ := connect_unwritten_iff (σ := Script)
    have made : ∀ w ∈ (none : Option LastWill), w.Made := fun _ none => by cases none
    have unwritten := (writes (named name) none valid made).1 _ found
    rw [length] at unwritten
    refine ⟨valid, unwritten, here, (runs (reachable_dialling name) here made).2.1 ?_⟩
    rw [will, found]
    exact Option.some_ne_none _
  exact holds _ (length_nameOf 65536)

end Mqtt
