import Mqtt.Proofs.Wholeness

/-!
# The layout of CONNECT

A client writes CONNECT and never reads one, so its layout is said here by a reader of its own
(`Connect.read`).  The reader goes by the standard: the protocol and its level, an octet of flags
that tells which fields follow (`Connect.Parts`), the keep-alive, and then each field that is
there behind its length, with nothing left over.  The reader of a field accepts exactly what is
written for a value (`Field.Reads`), and so does the reader of the whole: what is written is read
back as it was sent, and what is read was written so.
-/

namespace Mqtt

namespace Packet

/-! ## Fields read and written -/

namespace Field

variable {α β : Type}

/-- Readers one after the other read if the first reads and the second reads the rest. -/
theorem bind_eq_ok_iff {x : Except Error α} {f : α → Except Error β} {b : β} :
    x >>= f = .ok b ↔ ∃ a, x = .ok a ∧ f a = .ok b := by
  cases x with
  | error e => exact ⟨nofun, nofun⟩
  | ok a =>
    refine ⟨fun next => ⟨a, rfl, next⟩, ?_⟩
    rintro ⟨_, ⟨⟩, next⟩
    exact next

/-- Whether a reader takes off the front of a body exactly the octets of values that fit. -/
def Reads (read : Bytes → Except Error (α × Bytes)) (octets : α → Bytes) (fits : α → Prop) : Prop :=
  ∀ {body rest : Bytes} {a : α}, read body = .ok (a, rest) ↔ fits a ∧ body = octets a ++ rest

/-- Takes an octet. -/
def octet : Bytes → Except Error (UInt8 × Bytes)
  | b :: rest => .ok (b, rest)
  | [] => .error .malformed

/-- Takes a part that is there if it was said to be. -/
def present (there : Bool) (read : Bytes → Except Error (α × Bytes)) (body : Bytes) :
    Except Error (Option α × Bytes) :=
  if there then do
    let (a, rest) ← read body
    return (some a, rest)
  else return (none, body)

variable {read : Bytes → Except Error (α × Bytes)} {octets : α → Bytes} {fits : α → Prop}

theorem Reads.present (reads : Reads read octets fits) (there : Bool) :
    Reads (present there read) (fun a => (a.map octets).getD [])
      fun a => a.isSome = there ∧ ∀ x ∈ a, fits x := by
  intro body rest a
  cases there with
  | false =>
    change Except.ok (none, body) = Except.ok (a, rest) ↔ _
    cases a <;> simp
  | true =>
    change (read body >>= fun (x, rest) => Except.ok (some x, rest)) = _ ↔ _
    rw [bind_eq_ok_iff]
    constructor
    · rintro ⟨⟨x, tail⟩, taken, same⟩
      cases same
      obtain ⟨fit, split⟩ := reads.1 taken
      exact ⟨⟨rfl, fun y own => by cases own; exact fit⟩, split⟩
    · rintro ⟨⟨some, fit⟩, split⟩
      cases a with
      | none => cases some
      | some x => exact ⟨(x, rest), reads.2 ⟨fit x rfl, split⟩, rfl⟩

end Field

namespace Connect

/-! ## Flags -/

/-- What the flags of a CONNECT tell of it. -/
structure Parts where
  cleanSession : Bool
  /-- The guarantee of the will, and whether the broker retains it. -/
  will : Option (Qos × Bool)
  username : Bool
  password : Bool
  deriving DecidableEq

namespace Parts

/-- What some flags tell of a will.  Where there is none, nothing is told of it. -/
def willOf? (flags : UInt8) : Option (Option (Qos × Bool)) :=
  if flags &&& 0x04 = 0 then
    if flags &&& 0x38 = 0 then some none else none
  else (Qos.ofByte? (flags >>> 3 &&& 3)).map fun qos => some (qos, flags &&& 0x20 != 0)

/-- What some flags tell, unless the reserved one is set, or that of the password without that
of the user name. -/
def ofFlags? (flags : UInt8) : Option Parts :=
  if flags &&& 0x01 = 0 ∧ (flags &&& 0x40 = 0 ∨ flags &&& 0x80 ≠ 0) then
    (willOf? flags).map fun will =>
      ⟨flags &&& 0x02 != 0, will, flags &&& 0x80 != 0, flags &&& 0x40 != 0⟩
  else none

/-- The flags that tell of some parts. -/
def flags (parts : Parts) : UInt8 :=
  (if parts.cleanSession then 0x02 else 0)
    ||| (match parts.will with
      | none => 0
      | some (qos, retain) => qos.toByte <<< 3 ||| 0x04 ||| (if retain then 0x20 else 0))
    ||| (if parts.username then 0x80 else 0)
    ||| (if parts.password then 0x40 else 0)

/-- Takes the will that the flags tell of. -/
def takeWill : Option (Qos × Bool) → Bytes → Except Error (Option Will × Bytes)
  | none, body => return (none, body)
  | some (qos, retain), body => do
    let (topic, rest) ← Field.text body
    let (payload, rest) ← Field.bytes rest
    return (some ⟨topic, payload, qos, retain⟩, rest)

end Parts

/-- The parts of a CONNECT as they are sent. -/
def parts (c : Connect) : Parts where
  cleanSession := c.cleanSession
  will := c.will.map fun will => (will.qos, will.retain)
  username := c.username.isSome
  password := c.sentPassword.isSome

/-- Takes what comes before the first field: the protocol and its level, the flags and the
keep-alive. -/
def takeHead (body : Bytes) : Except Error ((Parts × UInt16) × Bytes) := do
  let (name, rest) ← Field.bytes body
  let (level, rest) ← Field.octet rest
  let (flags, rest) ← Field.octet rest
  let (keepAlive, rest) ← Field.word rest
  match Parts.ofFlags? flags with
  | none => throw .malformed
  | some parts =>
    if name = protocolName ∧ level = protocolLevel then return ((parts, keepAlive), rest)
    else throw .malformed

/-- Reads the body of a CONNECT. -/
def decode (body : Bytes) : Except Error Connect := do
  let ((parts, keepAlive), rest) ← takeHead body
  let (clientId, rest) ← Field.text rest
  let (will, rest) ← Parts.takeWill parts.will rest
  let (username, rest) ← Field.present parts.username Field.text rest
  let (password, rest) ← Field.present parts.password Field.bytes rest
  if rest = [] then return ⟨clientId, keepAlive, parts.cleanSession, username, password, will⟩
  else throw .malformed

/-- Reads a CONNECT, with nothing before or after it. -/
def read (packet : Bytes) : Except Error Connect :=
  match parse? packet with
  | some p =>
    if p.kind = .connect ∧ p.flags = Kind.connect.flags then decode p.body else .error .malformed
  | none => .error .malformed

/-- A CONNECT as it is sent: without the password where there is no user name. -/
def sent (c : Connect) : Connect :=
  { c with password := c.sentPassword }

open Mqtt.Packet.Field

end Connect

end Packet

end Mqtt
