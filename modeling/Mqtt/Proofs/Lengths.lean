import Mqtt.Proofs.Reading
import Mqtt.Proofs.RoundTrip

/-!
# Lengths

A length is some groups, all but the last of them marked.  The marks of the first four octets
alone say whether a string begins with a length, may go on to be one, or never will
(`Length.decodeWithin_eq_error_iff`, `Length.decodeWithin_eq_none_iff`).  So no length is the
beginning of another, and the octets of a header may be looked at as they come.  A number has
many lengths that stand for it; the one that is written has the fewest groups
(`Length.length_groups_le_iff`).
-/

namespace Mqtt.Packet

namespace Length

variable {room value used n : Nat} {bs other : Bytes} {e : Error}

/-- Whether an octet has its high bit set, so that another group follows. -/
def marked (b : UInt8) : Bool :=
  b.toNat.testBit 7

theorem marked_iff {b : UInt8} : marked b = true ↔ ¬ b < 128 := by
  have byte := b.toNat_lt
  rw [marked, Nat.testBit_eq_decide_div_mod_eq, decide_eq_true_iff, UInt8.lt_iff_toNat_lt]
  change b.toNat / 128 % 2 = 1 ↔ ¬ b.toNat < 128
  omega

/-! ## What the marks say -/

/-- Where as many octets as there is room for are all marked, and only there, no length begins. -/
theorem decodeWithin_eq_error_iff :
    decodeWithin room bs = .error e ↔
      e = .malformedLength ∧ room ≤ bs.length ∧ ∀ b ∈ bs.take room, marked b = true := by
  induction room generalizing bs with
  | zero => simpa [decodeWithin] using eq_comm
  | succ room ih =>
    cases bs with
    | nil => simp [decodeWithin]
    | cons b rest =>
      rw [decodeWithin, List.take_succ_cons, List.forall_mem_cons, List.length_cons,
        Nat.add_le_add_iff_right, marked_iff]
      by_cases last : b < 128
      · simp [last]
      · have later := @ih rest
        rw [if_neg last]
        rcases inner : decodeWithin room rest with e' | _ | ⟨value, used⟩ <;>
          · rw [inner] at later
            simpa [last] using later

/-- More octets are needed where there are fewer than there is room for, all marked. -/
theorem decodeWithin_eq_none_iff :
    decodeWithin room bs = .ok none ↔ bs.length < room ∧ ∀ b ∈ bs, marked b = true := by
  induction room generalizing bs with
  | zero => simp [decodeWithin]
  | succ room ih =>
    cases bs with
    | nil => simp [decodeWithin]
    | cons b rest =>
      rw [decodeWithin, List.forall_mem_cons, List.length_cons, Nat.add_lt_add_iff_right, marked_iff]
      by_cases last : b < 128
      · simp [last]
      · have later := @ih rest
        rw [if_neg last]
        rcases inner : decodeWithin room rest with e' | _ | ⟨value, used⟩ <;>
          · rw [inner] at later
            simpa [last] using later

/-- A length is read from the octets that it uses, and stands for no more than their groups can
say. -/
theorem decodeWithin_take (read : decodeWithin room bs = .ok (some (value, used))) :
    decodeWithin room (bs.take used) = .ok (some (value, used)) ∧ value < 128 ^ used := by
  fun_induction decodeWithin room bs generalizing value used with
  | case1 | case2 => cases read
  | case3 room b rest last =>
    cases read
    rw [List.take_succ_cons, decodeWithin, if_pos last]
    exact ⟨rfl, UInt8.lt_iff_toNat_lt.1 last⟩
  | case4 | case5 => cases read
  | case6 room b rest more value used inner ih =>
    cases read
    obtain ⟨same, small⟩ := ih inner
    have byte := b.toNat_lt
    rw [List.take_succ_cons, decodeWithin, if_neg more, same, Nat.pow_succ]
    exact ⟨rfl, by omega⟩

/-- Whatever follows them, octets that a length uses are read as that length. -/
theorem decodeWithin_of_take (read : decodeWithin room bs = .ok (some (value, used)))
    (same : other.take used = bs.take used) :
    decodeWithin room other = .ok (some (value, used)) := by
  have front := (decodeWithin_take read).1
  rw [← same] at front
  have decided : decodeWithin room (other.take used) ≠ .ok none := by
    rw [front]
    nofun
  rw [← List.take_append_drop used other, Frame.decodeWithin_append decided, front]

/-! ## The fewest groups -/

theorem length_groups_pos (n : Nat) : 0 < (groups n).length := by
  rw [groups]
  split <;> exact Nat.succ_pos _

/-- A number is written in as few groups as can say it. -/
theorem length_groups_le_iff (n k : Nat) :
    (groups n).length ≤ k + 1 ↔ n < 128 ^ (k + 1) := by
  induction k generalizing n with
  | zero =>
    rw [groups]
    split
    next small => simpa using small
    next large =>
      have more := length_groups_pos (n / 128)
      rw [List.length_cons]
      omega
  | succ k ih =>
    rw [groups]
    split
    next small =>
      have power : 128 ≤ 128 ^ (k + 1 + 1) := Nat.le_self_pow (Nat.succ_ne_zero _) 128
      rw [List.length_singleton]
      omega
    next large =>
      rw [List.length_cons, Nat.add_le_add_iff_right, ih, Nat.div_lt_iff_lt_mul (by decide),
        ← Nat.pow_succ]

/-- No string that stands for a number is shorter than what is written for it. -/
theorem length_groups_le_used (read : decodeWithin room bs = .ok (some (n, used))) :
    (groups n).length ≤ used := by
  have small := (decodeWithin_take read).2
  obtain ⟨k, rfl⟩ := Nat.exists_eq_add_of_lt (Frame.decodeWithin_bounds read).1
  rw [Nat.zero_add] at small ⊢
  exact (length_groups_le_iff n k).2 small

/-- **Lengths.**  A number up to the largest is written in one to four octets, which are read as
this number whatever follows them, and no other string that is read as it has fewer; a larger one
is refused.  A string is refused where its first four octets are there and all marked, is no
length yet where it has fewer than four octets and all are marked, and is otherwise read as a
number up to the largest by octets that are there, at most four, and that alone decide.  So the
first octets of a stream that decide a header decide it for good, and five octets always do. -/
theorem self_delimiting :
    (∀ n, n ≤ max → ∃ written, encode n = .ok written ∧
      1 ≤ written.length ∧ written.length ≤ 4 ∧
      (∀ rest, decode (written ++ rest) = .ok (some (n, written.length))) ∧
      ∀ bs used, decode bs = .ok (some (n, used)) → written.length ≤ used) ∧
    (∀ n, max < n → encode n = .error (.tooLarge n max)) ∧
    (∀ bs,
      (∀ e, decode bs = .error e ↔
        e = .malformedLength ∧ 4 ≤ bs.length ∧ ∀ b ∈ bs.take 4, marked b = true) ∧
      (decode bs = .ok none ↔ bs.length < 4 ∧ ∀ b ∈ bs, marked b = true) ∧
      ∀ value used, decode bs = .ok (some (value, used)) →
        value ≤ max ∧ used ≤ 4 ∧ used ≤ bs.length ∧
        ∀ other, other.take used = bs.take used → decode other = .ok (some (value, used))) ∧
    (∀ bs more, Header.decode bs ≠ .ok none → Header.decode (bs ++ more) = Header.decode bs) ∧
    ∀ bs, 5 ≤ bs.length → Header.decode bs ≠ .ok none := by
  refine ⟨fun n fits => ?_, fun n large => if_pos large, fun bs => ⟨?_, ?_, ?_⟩, ?_, ?_⟩
  · obtain ⟨written, sized⟩ := encode_of_le fits
    have same : written = groups n := by
      unfold encode at sized
      rw [if_neg (Nat.not_lt.2 fits)] at sized
      exact (Except.ok.inj sized).symm
    have short : written.length ≤ 4 := by
      rw [same, length_groups_le_iff]
      exact Nat.lt_succ_of_le fits
    exact ⟨written, sized, same ▸ length_groups_pos n, short, fun rest => decode_encode rest sized,
      fun bs used read => same ▸ length_groups_le_used read⟩
  · exact fun e => decodeWithin_eq_error_iff
  · exact decodeWithin_eq_none_iff
  · intro value used read
    obtain ⟨-, inside, few, small⟩ := Frame.decodeWithin_bounds read
    exact ⟨Nat.le_of_lt_succ small, few, inside, fun other same => decodeWithin_of_take read same⟩
  · exact fun bs more decided => Frame.decode_append decided
  · exact fun bs long partly => absurd (Frame.length_lt_of_decode partly) (Nat.not_lt.2 long)

/-- Zero may take three groups where one is written; three groups go up to 2097151; and a header
whose fifth octet is marked is refused, whatever follows. -/
theorem self_delimiting_redundant :
    (∃ written, encode 0 = .ok written ∧ written.length ≤ 3) ∧
      decode [0x80, 0x80, 0x00, 0x80] = .ok (some (0, 3)) ∧
      (∃ written, encode 2097151 = .ok written ∧ decode (written ++ [0x80]) =
        .ok (some (2097151, written.length))) ∧
      encode 268435456 = .error (.tooLarge 268435456 268435455) ∧
      Header.decode [0x30, 0x80, 0x80, 0x80] = .ok none ∧
      Header.decode ([0x30, 0x80, 0x80, 0x80, 0x80] ++ [0x01]) =
        Header.decode [0x30, 0x80, 0x80, 0x80, 0x80] := by
  obtain ⟨written, refused, read, stays, -⟩ := self_delimiting
  obtain ⟨zero, zeroWritten, -, -, -, fewest⟩ := written 0 (by decide)
  obtain ⟨large, largeWritten, -, -, whole, -⟩ := written 2097151 (by decide)
  have redundant : decode [0x80, 0x80, 0x00] = .ok (some (0, 3)) := by decide
  exact ⟨⟨zero, zeroWritten, fewest _ 3 redundant⟩,
    ((read _).2.2 0 3 redundant).2.2.2 _ rfl, ⟨large, largeWritten, whole _⟩,
    refused _ (by decide), by decide, stays _ _ (by decide)⟩

end Length

end Mqtt.Packet
