import Mqtt.Packet.Length

/-!
# Writing packets

A writer appends to a buffer and may refuse.  Each packet is written in one
order: the lengths of its parts are measured, then the header is written, then
the body.  Only measuring and the header can refuse, so a refusal comes before
the first octet.
-/

namespace Mqtt.Packet

/-- What was written, piece by piece, the latest piece first. -/
abbrev Pieces := List Bytes

/-- All that was written, in its order.  The latest piece is taken over as it
stands, however long it is. -/
def Pieces.join : Pieces → Bytes
  | [] => []
  | latest :: earlier => earlier.foldl (fun written piece => piece ++ written) latest

theorem Pieces.foldl_append (pieces : Pieces) (bs : Bytes) :
    pieces.foldl (fun written piece => piece ++ written) bs = join pieces ++ bs := by
  induction pieces generalizing bs with
  | nil => rfl
  | cons piece pieces ih =>
    rw [List.foldl_cons, ih, join, ih, List.append_assoc]

@[simp]
theorem Pieces.join_cons (pieces : Pieces) (bs : Bytes) :
    join (bs :: pieces) = join pieces ++ bs :=
  foldl_append pieces bs

/-- A writer: it appends to a buffer, or refuses and leaves the buffer to the
caller as it then stands. -/
abbrev Put := ExceptT Error (StateM Pieces)

namespace Put

/-- Appends octets. -/
def bytes (bs : Bytes) : Put Unit :=
  modify fun (pieces : Pieces) => bs :: pieces

/-- Appends a word. -/
def word (w : UInt16) : Put Unit :=
  bytes (Bytes.ofWord w)

/-- Appends a fixed header with a first octet and the length of the body. -/
def header (first : UInt8) (length : Nat) : Put Unit :=
  match Length.encode length with
  | .error e => throw e
  | .ok groups => bytes (first :: groups)

/-- The room that a length-prefixed field takes. -/
def measure (field : Bytes) : Put Nat :=
  if field.length > 65535 then throw (.fieldTooLong field.length)
  else return 2 + field.length

/-- The room that length-prefixed fields take together. -/
def measureAll : List Bytes → Put Nat
  | [] => return 0
  | field :: fields => do
    let size ← measure field
    return size + (← measureAll fields)

/-- Appends a field after its length. -/
def field (bs : Bytes) : Put Unit := do
  word bs.length.toUInt16
  bytes bs

end Put

/-- Runs a writer on a buffer: its outcome and the buffer afterwards. -/
def append (writer : Put Unit) (buffer : Bytes) : Except Error Unit × Bytes :=
  let (result, pieces) := writer.run.run [buffer]
  (result, pieces.join)

/-- The octets that a writer appends to an empty buffer. -/
def encode (writer : Put Unit) : Except Error Bytes :=
  match append writer [] with
  | (.ok (), packet) => .ok packet
  | (.error e, _) => .error e

end Mqtt.Packet
