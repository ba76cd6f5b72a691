import Mathlib.Algebra.Group.Nat.Defs
import Mathlib.Data.List.ReduceOption
import Mathlib.Logic.Relation
import Mqtt.Frame

/-!
# Reading a stream that comes in pieces

`Frame.front` says what stands at the front of a stream that is all there: a packet, a
part of one, or octets that open no packet that may be accepted.  A transport gives the
same stream in pieces (`Reading.Next`), no more than the reader asks for and with
pauses between them.  `reads_parsed` says that repeated reads return the packets that
stand in the stream, whatever the pieces are, and fail where a packet is refused.
-/

namespace Mqtt.Frame

open Relation (ReflTransGen)

/-- The number that groups of seven bits stand for, the least significant group first. -/
def number : Bytes → Nat
  | [] => 0
  | b :: rest => b.toNat % 128 + 128 * number rest

/-- What stands at the front of a stream. -/
inductive Front where
  | packet (p : Inbound) (rest : Bytes)
  /-- The packet is not all there. -/
  | short
  /-- The kind is reserved, the length has more than four groups, or it is beyond the
  limit. -/
  | refused

/-- Reads the front of a stream that is all there. -/
def front (limit : Nat) : Bytes → Front
  | [] => .short
  | first :: rest =>
    match Packet.Kind.ofFirst? first with
    | none => .refused
    | some kind =>
      let marked := rest.takeWhile (128 ≤ ·)
      if 4 ≤ marked.length then .refused
      else match rest.drop marked.length with
        | [] => .short
        | last :: rest =>
          let length := number (marked ++ [last])
          if limit < length then .refused
          else if rest.length < length then .short
          else .packet ⟨kind, first &&& 15, rest.take length⟩ (rest.drop length)

/-- A stream is some packets, one after another, and a rest. -/
inductive Parses (limit : Nat) : Bytes → List Inbound → Bytes → Prop
  | nil (stream : Bytes) : Parses limit stream [] stream
  | cons {stream next rest : Bytes} {p : Inbound} {packets : List Inbound}
      (first : front limit stream = .packet p next) (others : Parses limit next packets rest) :
      Parses limit stream (p :: packets) rest

/-- Some reads of a stream, each begun when the one before it has ended. -/
structure Reading where
  /-- The octets that the transport has not given yet. -/
  stream : Bytes
  /-- What has become of the latest read. -/
  current : Progress
  /-- What the reads before it returned, the earliest first. -/
  returned : List (Option Inbound)

/-- What happens in the course of reads.  The time for a packet that has begun does not
run out. -/
inductive Reading.Next (limit : Nat) : Reading → Reading → Prop
  /-- The transport gives some octets, no more than are asked for. -/
  | given {x : Reading} {r : Reader} (bs rest : Bytes) (elapsed : Nat)
      (waits : x.current = .more r) (split : x.stream = bs ++ rest) (nonempty : bs ≠ [])
      (room : bs.length ≤ r.wanted) (inTime : 0 < (r.pass elapsed).patience) :
      Next limit x { x with stream := rest, current := r.receive (.ok bs) elapsed }
  /-- The transport gives nothing for a while. -/
  | paused {x : Reading} {r : Reader} (elapsed : Nat) (waits : x.current = .more r)
      (inTime : 0 < (r.pass elapsed).patience) :
      Next limit x { x with current := r.receive (.error .timeout) elapsed }
  /-- A read has returned a packet, and the next begins. -/
  | read {x : Reading} (p : Inbound) (patience timeout : Nat) (ended : x.current = .packet p) :
      Next limit x ⟨x.stream, .more (.start limit patience timeout), x.returned ++ [some p]⟩
  /-- A read has returned without a packet, and the next begins. -/
  | idle {x : Reading} (patience timeout : Nat) (ended : x.current = .nothing) :
      Next limit x ⟨x.stream, .more (.start limit patience timeout), x.returned ++ [none]⟩

/-- The packets that reads have returned, the latest read included. -/
def Reading.packets (x : Reading) : List Inbound :=
  x.returned.reduceOption ++ match x.current with
    | .packet p => [p]
    | _ => []

/-- The octets asked for fit where they go: five places for a header, and as many for a
body as its header says.  A header uses no more octets than have come, and its length
is no more than four groups can say. -/
def Reader.InRange (r : Reader) (taken : Bytes) : Prop :=
  0 < r.wanted ∧ match r.stage with
    | .first _ | .header _ =>
      taken.length + r.wanted ≤ 5 ∧
        ∀ bs header used, Packet.Header.decode (taken ++ bs) = .ok (some (header, used)) →
          used ≤ (taken ++ bs).length ∧ header.length ≤ Packet.Length.max
    | .body header got _ => got.length + r.wanted = header.length ∧ header.length ≤ r.limit

/-! ## Headers -/

section Headers

open Packet

variable {bs more : Bytes} {header : Header} {used : Nat}

/-- The groups of a length are those that are marked and the one after them. -/
theorem decodeWithin_eq (room : Nat) (bs : Bytes) :
    Length.decodeWithin room bs =
      let marked := bs.takeWhile (128 ≤ ·)
      if room ≤ marked.length then .error .malformedLength
      else match bs.drop marked.length with
        | [] => .ok none
        | last :: _ => .ok (some (number (marked ++ [last]), marked.length + 1)) := by
  induction room generalizing bs with
  | zero => simp [Length.decodeWithin]
  | succ room ih =>
    cases bs with
    | nil => simp [Length.decodeWithin]
    | cons b rest =>
      rw [Length.decodeWithin]
      by_cases last : b < 128
      · have unmarked : ¬ 128 ≤ b := UInt8.not_le.2 last
        have byte : b.toNat < 128 := UInt8.lt_iff_toNat_lt.1 last
        simp [last, unmarked, number, Nat.mod_eq_of_lt byte]
      · have marked : 128 ≤ b := UInt8.not_lt.1 last
        have byte : 128 ≤ b.toNat := UInt8.le_iff_toNat_le.1 marked
        have low : b.toNat % 128 = b.toNat - 128 := by
          have := b.toNat_lt
          omega
        rw [if_neg last, ih rest]
        simp only [List.takeWhile_cons, marked, decide_true, if_true, List.length_cons,
          List.drop_succ_cons, Nat.add_le_add_iff_right]
        by_cases full : room ≤ (rest.takeWhile (128 ≤ ·)).length
        · simp only [full, if_true]
        · simp only [full, if_false]
          cases rest.drop (rest.takeWhile (128 ≤ ·)).length with
          | nil => rfl
          | cons last rest => simp only [List.cons_append, number, low]

/-- The front of a stream by its header. -/
theorem front_eq (limit : Nat) (bs : Bytes) :
    front limit bs = match Header.decode bs with
      | .error _ => .refused
      | .ok none => .short
      | .ok (some (header, used)) =>
        if limit < header.length then .refused
        else if (bs.drop used).length < header.length then .short
        else .packet ⟨header.kind, header.flags, (bs.drop used).take header.length⟩
          ((bs.drop used).drop header.length) := by
  cases bs with
  | nil => rfl
  | cons first rest =>
    rw [front, Header.decode]
    cases Kind.ofFirst? first with
    | none => rfl
    | some kind =>
      simp only [Length.decode, decodeWithin_eq]
      by_cases full : 4 ≤ (rest.takeWhile (128 ≤ ·)).length
      · simp only [full, if_true]
      · simp only [full, if_false]
        cases others : rest.drop (rest.takeWhile (128 ≤ ·)).length with
        | nil => rfl
        | cons last others' =>
          have after : rest.drop ((rest.takeWhile (128 ≤ ·)).length + 1) = others' := by
            rw [← List.drop_drop, others]
            rfl
          simp only [List.drop_succ_cons, after]

/-- The octets that a length uses are there, at most four, and a length of four groups
is the largest. -/
theorem decodeWithin_bounds {room value : Nat}
    (read : Length.decodeWithin room bs = .ok (some (value, used))) :
    0 < used ∧ used ≤ bs.length ∧ used ≤ room ∧ value < 128 ^ room := by
  fun_induction Length.decodeWithin room bs generalizing value used with
  | case1 | case2 => cases read
  | case3 room b rest last =>
    cases read
    have byte : b.toNat < 128 := UInt8.lt_iff_toNat_lt.1 last
    have power : 128 ≤ 128 ^ (room + 1) := Nat.le_self_pow (Nat.succ_ne_zero room) 128
    simp only [List.length_cons]
    omega
  | case4 | case5 => cases read
  | case6 room b rest marked value' used' inner ih =>
    cases read
    obtain ⟨-, inside, few, small⟩ := ih inner
    have byte := b.toNat_lt
    rw [Nat.pow_succ]
    simp only [List.length_cons]
    omega

/-- Where more octets are needed, there is room for them. -/
theorem length_lt_of_decodeWithin {room : Nat}
    (partly : Length.decodeWithin room bs = .ok none) : bs.length < room := by
  fun_induction Length.decodeWithin room bs with
  | case1 => cases partly
  | case2 room => exact Nat.succ_pos room
  | case3 | case4 | case6 => cases partly
  | case5 room b rest marked inner ih =>
    have := ih inner
    simp only [List.length_cons]
    omega

/-- What decides a length still does when more octets follow. -/
theorem decodeWithin_append {room : Nat} (decided : Length.decodeWithin room bs ≠ .ok none) :
    Length.decodeWithin room (bs ++ more) = Length.decodeWithin room bs := by
  fun_induction Length.decodeWithin room bs with
  | case1 => simp only [Length.decodeWithin]
  | case2 => exact absurd rfl decided
  | case3 room b rest last => rw [List.cons_append, Length.decodeWithin, if_pos last]
  | case4 room b rest marked e inner ih =>
    rw [List.cons_append, Length.decodeWithin, if_neg marked, ih (by simp [inner]), inner]
  | case5 => exact absurd rfl decided
  | case6 room b rest marked value used inner ih =>
    rw [List.cons_append, Length.decodeWithin, if_neg marked, ih (by simp [inner]), inner]

/-- A length that was not all there ends among the octets that came since. -/
theorem lt_used_of_decodeWithin {room value : Nat}
    (partly : Length.decodeWithin room bs = .ok none)
    (whole : Length.decodeWithin room (bs ++ more) = .ok (some (value, used))) :
    bs.length < used := by
  fun_induction Length.decodeWithin room bs generalizing value used with
  | case1 => cases partly
  | case2 => exact (decodeWithin_bounds whole).1
  | case3 | case4 | case6 => cases partly
  | case5 room b rest marked inner ih =>
    rw [List.cons_append, Length.decodeWithin, if_neg marked] at whole
    split at whole
    · cases whole
    · cases whole
    next value' used' others =>
      cases whole
      have := ih inner others
      simp only [List.length_cons]
      omega

/-- A header as its first octet and its length. -/
theorem decode_cons (first : UInt8) (rest : Bytes) :
    Header.decode (first :: rest) = match Kind.ofFirst? first with
      | none => .error (.reservedKind first)
      | some kind => (Length.decodeWithin 4 rest).map fun length =>
          length.map fun l => (⟨kind, first &&& 15, l.1⟩, l.2 + 1) := by
  rw [Header.decode, Length.decode]
  cases Kind.ofFirst? first with
  | none => rfl
  | some kind =>
    rcases Length.decodeWithin 4 rest with e | _ | l
    · rfl
    · rfl
    · rfl

theorem decodeWithin_of_decode {first : UInt8} {rest : Bytes}
    (read : Header.decode (first :: rest) = .ok (some (header, used))) :
    ∃ before, used = before + 1 ∧
      Length.decodeWithin 4 rest = .ok (some (header.length, before)) := by
  rw [decode_cons] at read
  split at read
  · cases read
  · rcases inner : Length.decodeWithin 4 rest with e | _ | l
    · rw [inner] at read
      cases read
    · rw [inner] at read
      cases read
    · rw [inner] at read
      cases read
      exact ⟨l.2, rfl, rfl⟩

theorem decodeWithin_of_partly {first : UInt8} {rest : Bytes}
    (partly : Header.decode (first :: rest) = .ok none) :
    Length.decodeWithin 4 rest = .ok none := by
  rw [decode_cons] at partly
  split at partly
  · cases partly
  · rcases inner : Length.decodeWithin 4 rest with e | _ | l
    · rw [inner] at partly
      cases partly
    · rfl
    · rw [inner] at partly
      cases partly

/-- The octets that a header uses are there: one for the kind, one to four for the
length. -/
theorem decode_bounds (read : Header.decode bs = .ok (some (header, used))) :
    2 ≤ used ∧ used ≤ bs.length ∧ used ≤ 5 ∧ header.length ≤ Length.max := by
  cases bs with
  | nil => cases read
  | cons first rest =>
    obtain ⟨before, rfl, inner⟩ := decodeWithin_of_decode read
    obtain ⟨positive, inside, few, small⟩ := decodeWithin_bounds inner
    simp only [List.length_cons, Length.max]
    omega

/-- Where a header is not all there, there is room for another octet of it. -/
theorem length_lt_of_decode (partly : Header.decode bs = .ok none) : bs.length < 5 := by
  cases bs with
  | nil => exact Nat.succ_pos 4
  | cons first rest =>
    exact Nat.succ_lt_succ (length_lt_of_decodeWithin (decodeWithin_of_partly partly))

theorem lt_used_of_decode (partly : Header.decode bs = .ok none)
    (whole : Header.decode (bs ++ more) = .ok (some (header, used))) : bs.length < used := by
  cases bs with
  | nil => exact Nat.lt_of_lt_of_le Nat.zero_lt_two (decode_bounds whole).1
  | cons first rest =>
    obtain ⟨before, rfl, inner⟩ := decodeWithin_of_decode whole
    exact Nat.succ_lt_succ (lt_used_of_decodeWithin (decodeWithin_of_partly partly) inner)

/-- What decides a header still does when more octets follow. -/
theorem decode_append (decided : Header.decode bs ≠ .ok none) :
    Header.decode (bs ++ more) = Header.decode bs := by
  cases bs with
  | nil => exact absurd rfl decided
  | cons first rest =>
    rw [decode_cons] at decided
    rw [List.cons_append, decode_cons, decode_cons]
    split
    · rfl
    next kind known =>
      rw [decodeWithin_append]
      intro partly
      simp [known, partly, Except.map] at decided

/-- What refuses a stream still does when more octets follow. -/
theorem front_append_of_refused {limit : Nat} (refused : front limit bs = .refused) :
    front limit (bs ++ more) = .refused := by
  rw [front_eq] at refused ⊢
  rcases read : Header.decode bs with e | _ | ⟨header, used⟩
  · rw [decode_append (by simp [read]), read]
  · rw [read] at refused
    cases refused
  · rw [read] at refused
    rw [decode_append (by simp [read]), read]
    dsimp only at refused ⊢
    split at refused
    next large => rw [if_pos large]
    next small => split at refused <;> cases refused

/-- A packet at the front of a stream still is when more octets follow. -/
theorem front_append_of_packet {limit : Nat} {p : Inbound} {rest : Bytes}
    (whole : front limit bs = .packet p rest) :
    front limit (bs ++ more) = .packet p (rest ++ more) := by
  rw [front_eq] at whole ⊢
  rcases read : Header.decode bs with e | _ | ⟨header, used⟩
  · rw [read] at whole
    cases whole
  · rw [read] at whole
    cases whole
  · have inside := (decode_bounds read).2.1
    rw [read] at whole
    rw [decode_append (by simp [read]), read]
    dsimp only at whole ⊢
    split at whole
    next => cases whole
    next small =>
      split at whole
      next => cases whole
      next all =>
        have long : header.length ≤ (bs.drop used).length := Nat.not_lt.1 all
        cases whole
        rw [if_neg small, List.drop_append_of_le_length inside,
          if_neg (Nat.not_lt.2 (by rw [List.length_append]; omega)),
          List.take_append_of_le_length long, List.drop_append_of_le_length long]

end Headers

/-! ## One receive -/

/-- What a reader knows of the octets taken for its packet. -/
def Reader.Follows (r : Reader) (taken : Bytes) : Prop :=
  match r.stage with
  | .first _ => taken = []
  | .header got => got = taken ∧ taken ≠ [] ∧ Packet.Header.decode taken = .ok none
  | .body header got missing =>
    ∃ used, Packet.Header.decode taken = .ok (some (header, used)) ∧
      taken.drop used = got.reverse ∧ got.length + missing = header.length ∧ 0 < missing ∧
      header.length ≤ r.limit

/-- What has become of a packet agrees with the octets taken for it. -/
def Progress.Follows (limit : Nat) (taken : Bytes) : Progress → Prop
  | .more r => r.limit = limit ∧ r.Follows taken
  | .packet p => front limit taken = .packet p []
  | .nothing => taken = []
  | .failed reason => reason = .protocolError ∧ front limit taken = .refused

namespace Reader

variable {r : Reader} {taken bs : Bytes} {elapsed : Nat}

@[simp]
theorem limit_pass (r : Reader) (ms : Nat) : (r.pass ms).limit = r.limit := by
  unfold pass
  split <;> rfl

@[simp]
theorem stage_pass (r : Reader) (ms : Nat) : (r.pass ms).stage = r.stage := by
  unfold pass
  split <;> rfl

theorem goOn_of_inTime (stage : Stage) (inTime : 0 < r.patience) :
    Reader.goOn { r with stage } = .more { r with stage } :=
  if_neg (Nat.pos_iff_ne_zero.1 inTime)

theorem fill_follows {header : Packet.Header} {got : Bytes} {missing used : Nat}
    (inTime : 0 < r.patience) (small : header.length ≤ r.limit)
    (read : Packet.Header.decode (taken ++ bs) = .ok (some (header, used)))
    (after : (taken ++ bs).drop used = got.reverse ++ bs)
    (length : got.length + missing = header.length) (room : bs.length ≤ missing) :
    (r.fill header got missing bs).Follows r.limit (taken ++ bs) := by
  unfold fill
  split
  next more =>
    rw [goOn_of_inTime _ inTime]
    refine ⟨rfl, used, read, ?_, ?_, Nat.sub_pos_of_lt more, small⟩
    · rw [after, List.reverse_append, List.reverse_reverse]
    · rw [List.length_append, List.length_reverse]
      omega
  next whole =>
    have full : (got.reverse ++ bs).length = header.length := by
      rw [List.length_append, List.length_reverse]
      omega
    rw [Progress.Follows, front_eq, read]
    simp only [after, full, Nat.not_lt.2 small, if_false, Nat.lt_irrefl]
    rw [← full, List.take_length, List.drop_length]

/-- A header that came without an octet of the body. -/
theorem parse_follows (inTime : 0 < r.patience) (nonempty : bs ≠ [])
    (ends : ∀ header used,
      Packet.Header.decode bs = .ok (some (header, used)) → bs.length ≤ used) :
    (r.parse bs).Follows r.limit bs := by
  unfold parse
  split
  next e refused => exact ⟨rfl, by rw [front_eq, refused]⟩
  next partly =>
    rw [if_pos (length_lt_of_decode partly), goOn_of_inTime _ inTime]
    exact ⟨rfl, rfl, nonempty, partly⟩
  next header used read =>
    split
    next large => exact ⟨rfl, by rw [front_eq, read]; exact if_pos large⟩
    next small =>
      have none : bs.drop used = [] := List.drop_eq_nil_of_le (ends header used read)
      have filled : (r.fill header [] header.length []).Follows r.limit (bs ++ []) :=
        fill_follows inTime (Nat.not_lt.1 small) (by rw [List.append_nil]; exact read)
          (by simpa using none) (Nat.zero_add _) (Nat.zero_le _)
      rw [none, List.take_nil]
      rwa [List.append_nil] at filled

theorem receive_ok (r : Reader) (elapsed : Nat) (nonempty : bs ≠ []) :
    r.receive (.ok bs) elapsed = match r.stage with
      | .first _ => (r.pass elapsed).parse bs
      | .header got => (r.pass elapsed).parse (got ++ bs)
      | .body header got missing => (r.pass elapsed).fill header got missing bs := by
  rw [← r.stage_pass elapsed]
  cases bs with
  | nil => exact absurd rfl nonempty
  | cons b bs =>
    unfold receive
    cases stage : (r.pass elapsed).stage with
    | first timeout => simp only [stage]
    | header got => simp only [stage]
    | body header got missing => simp only [stage]

theorem receive_timeout (r : Reader) (elapsed : Nat) :
    r.receive (.error .timeout) elapsed = match r.stage with
      | .first _ => .nothing
      | _ => (r.pass elapsed).goOn := by
  rw [← r.stage_pass elapsed]
  unfold receive
  cases stage : (r.pass elapsed).stage with
  | first timeout => simp only [stage]; rfl
  | header got => simp only [stage]; rfl
  | body header got missing => simp only [stage]; rfl

/-- A receive of octets goes on with the packet that those taken before belong to. -/
theorem receive_ok_follows (follows : r.Follows taken) (nonempty : bs ≠ [])
    (room : bs.length ≤ r.wanted) (inTime : 0 < (r.pass elapsed).patience) :
    (r.receive (.ok bs) elapsed).Follows r.limit (taken ++ bs) := by
  rw [receive_ok r elapsed nonempty, ← r.limit_pass elapsed]
  unfold Follows at follows
  unfold wanted at room
  split
  next timeout at_first =>
    rw [at_first] at follows room
    subst follows
    exact parse_follows inTime nonempty fun header used read =>
      Nat.le_trans room (decode_bounds read).1
  next got at_header =>
    rw [at_header] at follows room
    have single : bs.length ≤ 1 := room
    obtain ⟨rfl, -, partly⟩ := follows
    refine parse_follows inTime (List.append_ne_nil_of_right_ne_nil got nonempty)
      fun header used read => ?_
    have later := lt_used_of_decode partly read
    rw [List.length_append]
    omega
  next header got missing at_body =>
    rw [at_body] at follows room
    obtain ⟨used, read, after, length, -, small⟩ := follows
    have again : Packet.Header.decode (taken ++ bs) = .ok (some (header, used)) := by
      rw [decode_append (by simp [read]), read]
    refine fill_follows inTime (by simpa using small) again ?_ length room
    rw [List.drop_append_of_le_length (decode_bounds read).2.1, after]

/-- A pause ends a read that has not begun, and nothing else. -/
theorem receive_timeout_follows (follows : r.Follows taken)
    (inTime : 0 < (r.pass elapsed).patience) :
    (r.receive (.error .timeout) elapsed).Follows r.limit taken := by
  rw [receive_timeout r elapsed]
  have stays : (r.pass elapsed).Follows taken := by
    unfold Follows at follows ⊢
    rwa [stage_pass, limit_pass]
  split
  next timeout at_first =>
    unfold Follows at follows
    rw [at_first] at follows
    exact follows
  next =>
    rw [show (r.pass elapsed).goOn = .more (r.pass elapsed) from goOn_of_inTime _ inTime]
    exact ⟨r.limit_pass elapsed, stays⟩

/-- A reader that waits has seen no more than a part of a packet. -/
theorem front_of_follows (follows : r.Follows taken) : front r.limit taken = .short := by
  unfold Follows at follows
  split at follows
  · rw [follows]
    rfl
  · rw [front_eq, follows.2.2]
  next header got missing at_body =>
    obtain ⟨used, read, after, length, positive, small⟩ := follows
    have part : got.reverse.length < header.length := by
      rw [List.length_reverse]
      omega
    rw [front_eq, read]
    dsimp only
    rw [if_neg (Nat.not_lt.2 small), after, if_pos part]

/-- A pause ends a read where no octet was taken. -/
theorem receive_timeout_eq_nothing_iff (follows : r.Follows taken) (elapsed : Nat) :
    r.receive (.error .timeout) elapsed = .nothing ↔ taken = [] := by
  have waits (r : Reader) : r.goOn ≠ .nothing := by
    unfold goOn
    split <;> exact Progress.noConfusion
  rw [receive_timeout]
  unfold Follows at follows
  cases stage : r.stage with
  | first timeout =>
    rw [stage] at follows
    exact iff_of_true rfl follows
  | header got =>
    rw [stage] at follows
    exact iff_of_false (waits _) follows.2.1
  | body header got missing =>
    rw [stage] at follows
    obtain ⟨used, read, -⟩ := follows
    refine iff_of_false (waits _) fun none => ?_
    rw [none] at read
    cases read

theorem inRange_of_follows (follows : r.Follows taken) : r.InRange taken := by
  have bounds (bs : Bytes) (header : Packet.Header) (used : Nat)
      (read : Packet.Header.decode (taken ++ bs) = .ok (some (header, used))) :
      used ≤ (taken ++ bs).length ∧ header.length ≤ Packet.Length.max :=
    ⟨(decode_bounds read).2.1, (decode_bounds read).2.2.2⟩
  unfold Follows at follows
  unfold InRange wanted
  cases stage : r.stage with
  | first timeout =>
    rw [stage] at follows
    exact ⟨Nat.zero_lt_two, by simp [follows], bounds⟩
  | header got =>
    rw [stage] at follows
    exact ⟨Nat.zero_lt_one, length_lt_of_decode follows.2.2, bounds⟩
  | body header got missing =>
    rw [stage] at follows
    obtain ⟨used, -, -, length, positive, small⟩ := follows
    exact ⟨positive, length, small⟩

end Reader

/-! ## Repeated reads -/

/-- A packet at the front of the rest is the next one of the stream. -/
theorem Parses.snoc {limit : Nat} {stream rest next : Bytes} {packets : List Inbound}
    {p : Inbound} (parses : Parses limit stream packets rest)
    (last : front limit rest = .packet p next) :
    Parses limit stream (packets ++ [p]) next := by
  induction parses with
  | nil stream => exact .cons last (.nil next)
  | cons first others ih => exact .cons first (ih last)

/-- A stream is parsed in one way, up to where no packet stands. -/
theorem Parses.later {limit : Nat} {stream middle rest : Bytes} {some all : List Inbound}
    (parses : Parses limit stream some middle) (whole : Parses limit stream all rest)
    (ends : ∀ p next, front limit rest ≠ .packet p next) :
    ∃ others, all = some ++ others ∧ Parses limit middle others rest := by
  induction parses generalizing all with
  | nil stream => exact ⟨all, rfl, whole⟩
  | @cons stream next middle p packets first others ih =>
    cases whole with
    | nil => exact absurd first (ends p next)
    | cons first' others' =>
      cases first.symm.trans first'
      obtain ⟨after, rfl, parses⟩ := ih others'
      exact ⟨after, rfl, parses⟩

/-- Where no packet stands, none is parsed. -/
theorem Parses.of_ends {limit : Nat} {stream rest : Bytes} {packets : List Inbound}
    (ends : ∀ p next, front limit stream ≠ .packet p next)
    (parses : Parses limit stream packets rest) : packets = [] ∧ rest = stream := by
  cases parses with
  | nil => exact ⟨rfl, rfl⟩
  | cons first others => exact absurd first (ends _ _)

namespace Reading

variable {limit : Nat} {stream : Bytes} {x y : Reading}

/-- The reads before the latest have returned the packets up to the octets taken for the
latest. -/
def Agrees (limit : Nat) (stream : Bytes) (x : Reading) : Prop :=
  ∃ taken, Parses limit stream x.returned.reduceOption (taken ++ x.stream) ∧
    x.current.Follows limit taken

theorem agrees_next (agrees : Agrees limit stream x) (next : Next limit x y) :
    Agrees limit stream y := by
  obtain ⟨taken, parses, follows⟩ := agrees
  cases next with
  | @given r bs rest elapsed waits split nonempty room inTime =>
    rw [waits] at follows
    obtain ⟨rfl, follows⟩ := follows
    refine ⟨taken ++ bs, ?_, Reader.receive_ok_follows follows nonempty room inTime⟩
    rw [List.append_assoc, ← split]
    exact parses
  | @paused r elapsed waits inTime =>
    rw [waits] at follows
    obtain ⟨rfl, follows⟩ := follows
    exact ⟨taken, parses, Reader.receive_timeout_follows follows inTime⟩
  | read p patience timeout ended =>
    rw [ended] at follows
    have whole : front limit (taken ++ x.stream) = .packet p x.stream :=
      front_append_of_packet follows
    refine ⟨[], ?_, rfl, rfl⟩
    rw [List.reduceOption_append]
    exact parses.snoc whole
  | idle patience timeout ended =>
    rw [ended] at follows
    refine ⟨[], ?_, rfl, rfl⟩
    obtain rfl : taken = [] := follows
    rw [List.reduceOption_append]
    simpa using parses

end Reading

/-- What the reads of a stream have come to. -/
def Reading.Outcome (limit : Nat) (taken : Bytes) : Progress → Prop
  | .more r => front limit taken = .short ∧ r.InRange taken ∧
      ∀ elapsed, (r.receive (.error .timeout) elapsed = .nothing ↔ taken = [])
  | .packet _ | .nothing => taken = []
  | .failed reason => reason = .protocolError ∧ ∀ more, front limit (taken ++ more) = .refused

theorem Reading.outcome_of_agrees {limit : Nat} {stream : Bytes} {x : Reading}
    (agrees : Agrees limit stream x) :
    ∃ taken, Parses limit stream x.packets (taken ++ x.stream) ∧
      Outcome limit taken x.current := by
  obtain ⟨taken, parses, follows⟩ := agrees
  unfold packets
  cases current : x.current with
  | more r =>
    rw [current] at follows
    obtain ⟨rfl, follows⟩ := follows
    refine ⟨taken, ?_, Reader.front_of_follows follows, Reader.inRange_of_follows follows,
      Reader.receive_timeout_eq_nothing_iff follows⟩
    rwa [List.append_nil]
  | packet p =>
    rw [current] at follows
    exact ⟨[], parses.snoc (front_append_of_packet follows), rfl⟩
  | nothing =>
    rw [current] at follows
    refine ⟨taken, ?_, follows⟩
    rwa [List.append_nil]
  | failed reason =>
    rw [current] at follows
    refine ⟨taken, ?_, follows.1, fun _ => front_append_of_refused follows.2⟩
    rwa [List.append_nil]

/-- Of the octets taken for the latest read no packet is left, and they are refused
exactly where it has failed. -/
theorem Reading.Outcome.front_eq {limit : Nat} {taken : Bytes} {current : Progress}
    (outcome : Outcome limit taken current) :
    front limit taken = .refused ∧ current = .failed .protocolError ∨
      front limit taken = .short ∧ ∀ reason, current ≠ .failed reason := by
  cases current with
  | more r => exact .inr ⟨outcome.1, fun _ => Progress.noConfusion⟩
  | packet p =>
    obtain rfl : taken = [] := outcome
    exact .inr ⟨rfl, fun _ => Progress.noConfusion⟩
  | nothing =>
    obtain rfl : taken = [] := outcome
    exact .inr ⟨rfl, fun _ => Progress.noConfusion⟩
  | failed reason =>
    obtain ⟨rfl, refused⟩ := outcome
    have refused := refused []
    rw [List.append_nil] at refused
    exact .inl ⟨refused, rfl⟩

/-- Repeated reads of a stream, given in any pieces and with any pauses that leave time
for the packets, return the packets that stand in the stream, in their order, and take
no octet of what follows these.  A read that waits has taken a part of the next packet,
and its octets fit where they go; a pause ends it where it has taken nothing, and only
there.  A read fails where the octets it has taken open no packet that may be accepted,
with a protocol error.  So a stream given to its end has given all its packets, and the
reads have failed exactly if it is refused there. -/
theorem reads_parsed {limit patience timeout : Nat} {stream : Bytes} {x : Reading}
    (run : ReflTransGen (Reading.Next limit)
      ⟨stream, .more (.start limit patience timeout), []⟩ x) :
    (∃ taken, Parses limit stream x.packets (taken ++ x.stream) ∧
      Reading.Outcome limit taken x.current) ∧
    (x.stream = [] → ∀ packets rest, Parses limit stream packets rest →
      (∀ p next, front limit rest ≠ .packet p next) →
      x.packets = packets ∧
        (x.current = .failed .protocolError ↔ front limit rest = .refused)) := by
  have agrees : Reading.Agrees limit stream x := by
    induction run with
    | refl => exact ⟨[], .nil stream, rfl, rfl⟩
    | tail _ next ih => exact Reading.agrees_next ih next
  obtain ⟨taken, parses, outcome⟩ := Reading.outcome_of_agrees agrees
  refine ⟨⟨taken, parses, outcome⟩, fun given packets rest whole ends => ?_⟩
  rw [given, List.append_nil] at parses
  obtain ⟨others, rfl, after⟩ := parses.later whole ends
  rcases outcome.front_eq with ⟨refused, failed⟩ | ⟨short, going⟩
  · obtain ⟨rfl, rfl⟩ := after.of_ends (by simp [refused])
    exact ⟨(List.append_nil _).symm, iff_of_true failed refused⟩
  · obtain ⟨rfl, rfl⟩ := after.of_ends (by simp [short])
    exact ⟨(List.append_nil _).symm, iff_of_false (going _) (by simp [short])⟩

/-- An answer to a ping and a PUBLISH whose length takes two octets, given in pieces and
with pauses, and then an octet of a reserved kind. -/
theorem reads_parsed_pieces :
    ReflTransGen (Reading.Next 100)
      ⟨[208, 0, 48, 131, 0, 1, 2, 3, 0, 5], .more (.start 100 10 5), []⟩
      ⟨[5], .failed .protocolError,
        [some ⟨.pingResp, 0, []⟩, none, some ⟨.publish, 0, [1, 2, 3]⟩]⟩ ∧
    ∃ taken,
      Parses 100 [208, 0, 48, 131, 0, 1, 2, 3, 0, 5]
        [⟨.pingResp, 0, []⟩, ⟨.publish, 0, [1, 2, 3]⟩] (taken ++ [5]) ∧
      Reading.Outcome 100 taken (.failed .protocolError) := by
  have ping : ReflTransGen (Reading.Next 100)
      ⟨[208, 0, 48, 131, 0, 1, 2, 3, 0, 5], .more (.start 100 10 5), []⟩
      ⟨[48, 131, 0, 1, 2, 3, 0, 5], .packet ⟨.pingResp, 0, []⟩, []⟩ :=
    .head (.given [208] [0, 48, 131, 0, 1, 2, 3, 0, 5] 3 rfl rfl (by decide) (by decide)
      (by decide)) <|
    .head (.paused 4 rfl (by decide)) <|
    .head (.given [0] [48, 131, 0, 1, 2, 3, 0, 5] 1 rfl rfl (by decide) (by decide) (by decide))
      .refl
  have pause : ReflTransGen (Reading.Next 100)
      ⟨[48, 131, 0, 1, 2, 3, 0, 5], .packet ⟨.pingResp, 0, []⟩, []⟩
      ⟨[48, 131, 0, 1, 2, 3, 0, 5], .nothing, [some ⟨.pingResp, 0, []⟩]⟩ :=
    .head (.read ⟨.pingResp, 0, []⟩ 10 5 rfl) <| .head (.paused 9 rfl (by decide)) .refl
  have header : ReflTransGen (Reading.Next 100)
      ⟨[48, 131, 0, 1, 2, 3, 0, 5], .nothing, [some ⟨.pingResp, 0, []⟩]⟩
      ⟨[1, 2, 3, 0, 5], .more ⟨100, 8, .body ⟨.publish, 0, 3⟩ [] 3⟩,
        [some ⟨.pingResp, 0, []⟩, none]⟩ :=
    .head (.idle 10 5 rfl) <|
    .head (.given [48, 131] [0, 1, 2, 3, 0, 5] 0 rfl rfl (by decide) (by decide) (by decide)) <| by
      have read : Reader.receive ⟨100, 10, .header [48, 131]⟩ (.ok [0]) 2 =
          .more ⟨100, 8, .body ⟨.publish, 0, 3⟩ [] 3⟩ := by decide
      rw [← read]
      exact .head (.given [0] [1, 2, 3, 0, 5] 2 rfl rfl (by decide) (by decide) (by decide)) .refl
  have body : ReflTransGen (Reading.Next 100)
      ⟨[1, 2, 3, 0, 5], .more ⟨100, 8, .body ⟨.publish, 0, 3⟩ [] 3⟩,
        [some ⟨.pingResp, 0, []⟩, none]⟩
      ⟨[0, 5], .packet ⟨.publish, 0, [1, 2, 3]⟩, [some ⟨.pingResp, 0, []⟩, none]⟩ :=
    .head (.given [1, 2] [3, 0, 5] 2 rfl rfl (by decide) (by decide) (by decide)) <|
    .head (.paused 3 rfl (by decide)) <|
    .head (.given [3] [0, 5] 2 rfl rfl (by decide) (by decide) (by decide)) .refl
  have refused : ReflTransGen (Reading.Next 100)
      ⟨[0, 5], .packet ⟨.publish, 0, [1, 2, 3]⟩, [some ⟨.pingResp, 0, []⟩, none]⟩
      ⟨[5], .failed .protocolError,
        [some ⟨.pingResp, 0, []⟩, none, some ⟨.publish, 0, [1, 2, 3]⟩]⟩ :=
    .head (.read ⟨.publish, 0, [1, 2, 3]⟩ 10 5 rfl) <|
    .head (.given [0] [5] 1 rfl rfl (by decide) (by decide) (by decide)) .refl
  have run := ping.trans (pause.trans (header.trans (body.trans refused)))
  exact ⟨run, (reads_parsed run).1⟩

end Mqtt.Frame
