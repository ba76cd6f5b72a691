import Mqtt.Bytes
import Mqtt.Packet.Error

/-!
# Reading fields

Each reader takes a value off the front of a body and hands back the rest.
-/

namespace Mqtt.Packet.Field

/-- Takes a word. -/
def word : Bytes → Except Error (UInt16 × Bytes)
  | hi :: lo :: rest => .ok (Bytes.word hi lo, rest)
  | _ => .error .malformed

/-- Takes a length-prefixed field. -/
def bytes : Bytes → Except Error (Bytes × Bytes)
  | hi :: lo :: rest =>
    let n := (Bytes.word hi lo).toNat
    let field := rest.take n
    if field.length < n then .error .malformed else .ok (field, rest.drop n)
  | _ => .error .malformed

/-- Takes a length-prefixed text. -/
def text (body : Bytes) : Except Error (String × Bytes) :=
  match bytes body with
  | .error e => .error e
  | .ok (field, rest) =>
    match Bytes.text? field with
    | none => .error .invalidText
    | some s => .ok (s, rest)

theorem bytes_length_lt {body field rest : Bytes} (h : bytes body = .ok (field, rest)) :
    rest.length < body.length := by
  unfold bytes at h
  split at h
  · dsimp only at h
    split at h
    · cases h
    · cases h
      simp only [List.length_drop, List.length_cons]
      omega
  · cases h

theorem text_length_lt {body rest : Bytes} {s : String} (h : text body = .ok (s, rest)) :
    rest.length < body.length := by
  unfold text at h
  split at h
  · cases h
  · rename_i taken
    split at h
    · cases h
    · cases h
      exact bytes_length_lt taken

end Mqtt.Packet.Field
