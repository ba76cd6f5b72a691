import Mqtt.Proofs.Reach

/-!
# The stream to the broker

The broker tells packets from the stream of octets by their headers, so it loses the
stream for good when a packet is cut short and another is sent after it.  A cut packet
is the last on its connection if it was CONNECT or DISCONNECT, or if the transport
failed for good in a reply or a sign of life.  In all other cases the connection is kept
(`Piece.Tolerated`), and these are exactly the cases in which the stream can be lost.
-/

namespace Mqtt

open Transport (Attempt)

variable {σ : Type}

/-- The offers made on each connection in their order, the latest connection first. -/
def connections : List Entry → List (List Attempt)
  | [] => []
  | .opened :: earlier => [] :: connections earlier
  | .sent a :: earlier =>
    match connections earlier with
    | [] => [[a]]
    | offers :: others => (offers ++ [a]) :: others
  | _ :: earlier => connections earlier

/-- What the transport took of one packet. -/
structure Piece where
  packet : Bytes
  taken : Bytes
  /-- Whether the transport failed for good. -/
  broken : Bool
  deriving DecidableEq

/-- The pieces of packets, the latest first, with one more offer. -/
def Piece.addOffer (pieces : List Piece) (a : Attempt) : List Piece :=
  match a.opens, pieces with
  | false, p :: earlier =>
    { p with taken := p.taken ++ a.taken, broken := p.broken || a.breaks } :: earlier
  | _, pieces => ⟨a.whole, a.taken, a.breaks⟩ :: pieces

/-- The pieces of packets that offers make up, the latest first. -/
def pieces (offers : List Attempt) : List Piece :=
  offers.foldl Piece.addOffer []

/-- Whether some octets are one whole packet. -/
def IsWhole (packet : Bytes) : Prop :=
  ∃ p, Packet.parse? packet = some p

/-- The packets that may be cut short however sending them failed: the requests of the
application, and what may be sent again. -/
def Packet.Kind.lenient : List Packet.Kind :=
  asked ++ [.pubRec, .pubRel]

theorem Packet.Kind.lenient_of_resent : ∀ kind ∈ resent, kind ∈ lenient := by
  decide

namespace Piece

/-- Whether a part of the packet was taken, and not all of it. -/
def IsCut (p : Piece) : Prop :=
  p.taken ≠ [] ∧ p.taken ≠ p.packet

instance (p : Piece) : Decidable p.IsCut :=
  inferInstanceAs (Decidable (_ ∧ _))

/-- Whether a packet may be cut short without the connection being closed: one that ran
out of time, unless it opens or ends the session, and a lenient one in any case. -/
def Tolerated (p : Piece) : Prop :=
  ∃ q, Packet.parse? p.packet = some q ∧
    (p.broken = false ∧ q.kind ≠ .connect ∧ q.kind ≠ .disconnect ∨
      q.kind ∈ Packet.Kind.lenient)

end Piece

/-- Whether the octets taken on a connection are whole packets and perhaps a part of one
at the end, and no packet was offered after one that was cut short. -/
structure Framed (offers : List Attempt) : Prop where
  stream : ∃ (packets : List Bytes) (part : Bytes),
    offers.flatMap Attempt.taken = packets.flatten ++ part ∧ (∀ packet ∈ packets, IsWhole packet) ∧
      ∃ packet, IsWhole packet ∧ part <+: packet ∧ part ≠ packet
  last : ∀ p ∈ (pieces offers).tail, ¬ p.IsCut

/-! ## Offers as pieces -/

theorem taken_addOffer (ps : List Piece) (a : Attempt) :
    (Piece.addOffer ps a).reverse.flatMap Piece.taken =
      ps.reverse.flatMap Piece.taken ++ a.taken := by
  unfold Piece.addOffer
  split
  · simp
  · simp

/-- The octets taken are those of the pieces. -/
theorem taken_pieces (offers : List Attempt) :
    offers.flatMap Attempt.taken = (pieces offers).reverse.flatMap Piece.taken := by
  have general (ps : List Piece) : (offers.foldl Piece.addOffer ps).reverse.flatMap Piece.taken =
      ps.reverse.flatMap Piece.taken ++ offers.flatMap Attempt.taken := by
    induction offers generalizing ps with
    | nil => simp
    | cons a offers ih =>
      rw [List.foldl_cons, ih, taken_addOffer, List.flatMap_cons, List.append_assoc]
  exact (general []).symm

/-- The offers of one packet make one piece. -/
theorem foldl_addOffer (ps : List Piece) {first : Attempt} {later : List Attempt}
    (opens : first.opens = true) (others : ∀ a ∈ later, a.opens = false) :
    (first :: later).foldl Piece.addOffer ps =
      ⟨first.whole, (first :: later).flatMap Attempt.taken,
        (first :: later).any Attempt.breaks⟩ :: ps := by
  have general (p : Piece) : later.foldl Piece.addOffer (p :: ps) =
      { p with
        taken := p.taken ++ later.flatMap Attempt.taken
        broken := p.broken || later.any Attempt.breaks } :: ps := by
    induction later generalizing p with
    | nil => simp
    | cons a later ih =>
      have closed := others a List.mem_cons_self
      have added : Piece.addOffer (p :: ps) a =
          { p with taken := p.taken ++ a.taken, broken := p.broken || a.breaks } :: ps := by
        simp [Piece.addOffer, closed]
      rw [List.foldl_cons, added, ih fun b member => others b (List.mem_cons_of_mem _ member)]
      simp [Bool.or_assoc]
  have begun : Piece.addOffer ps first = ⟨first.whole, first.taken, first.breaks⟩ :: ps := by
    simp [Piece.addOffer, opens]
  rw [List.foldl_cons, begun]
  exact general _

theorem connections_append_offers {log : List Entry} {offers : List Attempt}
    {others : List (List Attempt)} (connection : connections log = offers :: others)
    (more : List Attempt) :
    connections ((more.map Entry.sent).reverse ++ log) = (offers ++ more) :: others := by
  induction more generalizing log offers with
  | nil => simpa using connection
  | cons a more ih =>
    have one : connections (.sent a :: log) = (offers ++ [a]) :: others := by
      rw [connections, connection]
    have rest := ih one
    simpa using rest

/-- Whether an entry neither opens a transport nor makes an offer to it. -/
def Entry.IsAside : Entry → Prop
  | .opened | .sent _ => False
  | _ => True

theorem connections_append {new : List Entry} (log : List Entry) (h : ∀ e ∈ new, e.IsAside) :
    connections (new ++ log) = connections log := by
  induction new with
  | nil => rfl
  | cons e new ih =>
    have first := h e List.mem_cons_self
    rw [List.cons_append]
    cases e <;> first
      | exact absurd first id
      | exact ih fun e member => h e (List.mem_cons_of_mem _ member)

/-! ## The invariant -/

/-- Whether a packet was not cut short, or may be. -/
def Piece.Spared (p : Piece) : Prop :=
  p.IsCut → p.Tolerated

theorem IsWhole.ne_nil {packet : Bytes} (h : IsWhole packet) : packet ≠ [] := by
  rcases h with ⟨p, whole⟩
  exact Packet.ne_nil_of_parse? whole

/-- What always holds of the pieces on a connection: each is taken from the front of a
whole packet, and all but the latest are spared. -/
structure Tidy (ps : List Piece) : Prop where
  whole : ∀ p ∈ ps, IsWhole p.packet ∧ p.taken <+: p.packet
  spared : ∀ p ∈ ps.tail, p.Spared

/-- What always holds of the connections of a client.  While a transport is open, one
more packet may be sent over it. -/
structure Streams (s : System σ) : Prop where
  tidy : ∀ offers ∈ connections s.log, Tidy (pieces offers)
  current : s.client.linked = true → ∃ offers others, connections s.log = offers :: others ∧
    ∀ p ∈ (pieces offers).head?, p.Spared

theorem Streams.of_log {s s' : System σ} (h : Streams s)
    (log : connections s'.log = connections s.log)
    (linked : s'.client.linked = true → s.client.linked = true) : Streams s' :=
  ⟨by rw [log]; exact h.tidy, fun open_ => by rw [log]; exact h.current (linked open_)⟩

/-- One more packet on a connection whose latest one is spared. -/
theorem Tidy.cons {ps : List Piece} {p : Piece} (h : Tidy ps) (head : ∀ q ∈ ps.head?, q.Spared)
    (whole : IsWhole p.packet) (part : p.taken <+: p.packet) : Tidy (p :: ps) := by
  refine ⟨fun q member => ?_, fun q member => ?_⟩
  · rcases List.mem_cons.1 member with rfl | member
    · exact ⟨whole, part⟩
    · exact h.whole q member
  · cases ps with
    | nil => cases member
    | cons first rest =>
      rcases List.mem_cons.1 member with rfl | member
      · exact head q rfl
      · exact h.spared q member

variable [Environment σ] {s s' : System σ}

/-- Sending over an open transport adds one piece to its connection, complete if sending
ended well, and broken only if it failed for good. -/
theorem pieces_afterSend (ordered : Ordered s)
    (linked : s.client.linked = true) {bs : Bytes} (more : bs ≠ []) {offers : List Attempt}
    {others : List (List Attempt)} (connection : connections s.log = offers :: others) :
    ∃ offers' p, connections (s.afterSend bs).log = offers' :: others ∧
      pieces offers' = p :: pieces offers ∧ p.packet = bs ∧ p.taken <+: bs ∧
      (s.sendResult bs = .ok () → p.taken = bs) ∧
      (p.broken = true → LosesSession (s.sendResult bs)) := by
  have course := Transport.sendAll_course Environment.offer bs
    s.client.config.commandTimeout.toNat s.outside
  obtain ⟨first, later, made, opens, closed⟩ := Transport.sendAll_opens Environment.offer
    s.outside more ordered.hasTime
  have offered : s.offers bs = first :: later := by
    unfold System.offers
    rw [if_pos linked]
    exact made
  rw [made] at course
  change Transport.Course bs bs (s.sending bs).result (first :: later) at course
  have result := System.sendResult_of_linked linked bs
  refine ⟨offers ++ s.offers bs, ⟨first.whole, (first :: later).flatMap Attempt.taken,
    (first :: later).any Attempt.breaks⟩, ?_, ?_, ?_, ?_, ?_, ?_⟩
  · rw [System.afterSend_log, connections_append_offers connection]
  · unfold pieces
    rw [List.foldl_append, offered, foldl_addOffer _ opens closed]
  · exact (course.of_mem List.mem_cons_self).1
  · rcases course.taken with ⟨-, all⟩ | ⟨-, part, -⟩
    · exact ⟨[], by rw [List.append_nil]; exact all⟩
    · exact part
  · intro well
    rcases result with ⟨sent, -⟩ | ⟨e, -, failed⟩
    · rcases course.taken with ⟨-, all⟩ | ⟨⟨e, ill⟩, -⟩
      · exact all
      · rw [sent] at ill
        cases ill
    · rw [failed] at well
      cases well
  · intro broken
    obtain ⟨e, ill, lasting⟩ := course.breaks.1 (List.any_eq_true.1 broken)
    rcases result with ⟨sent, -⟩ | ⟨e', ill', failed⟩
    · rw [sent] at ill
      cases ill
    · rw [ill'] at ill
      cases ill
      rw [failed]
      simp [LosesSession, Error.isFatal, lasting]

namespace Streams

theorem tidy_afterSend (h : Streams s) (ordered : Ordered s) {bs : Bytes}
    (whole : IsWhole bs) : ∀ offers ∈ connections (s.afterSend bs).log, Tidy (pieces offers) := by
  by_cases linked : s.client.linked = true
  · obtain ⟨offers, others, connection, head⟩ := h.current linked
    obtain ⟨offers', p, connection', added, rfl, part, -⟩ :=
      pieces_afterSend ordered linked whole.ne_nil connection
    rw [connection']
    have before := h.tidy
    rw [connection] at before
    intro o member
    rcases List.mem_cons.1 member with rfl | member
    · rw [added]
      exact (before offers List.mem_cons_self).cons head whole part
    · exact before o (List.mem_cons_of_mem _ member)
  · have same : s.afterSend bs = s := if_neg linked
    rw [same]
    exact h.tidy

/-- A connection goes on after a packet that was sent, or that may be cut short. -/
theorem afterSend (h : Streams s) (ordered : Ordered s) {bs : Bytes}
    (whole : IsWhole bs)
    (spared : s.sendResult bs = .ok () ∨ ∀ p : Piece, p.packet = bs →
      (p.broken = true → LosesSession (s.sendResult bs)) → p.Tolerated) :
    Streams (s.afterSend bs) := by
  refine ⟨h.tidy_afterSend ordered whole, fun linked => ?_⟩
  have before : s.client.linked = true := by simpa using linked
  obtain ⟨offers, others, connection, -⟩ := h.current before
  obtain ⟨offers', p, connection', added, rfl, -, well, ill⟩ :=
    pieces_afterSend ordered before whole.ne_nil connection
  refine ⟨offers', others, connection', fun q head cut => ?_⟩
  rw [added] at head
  cases head
  rcases spared with sent | spared
  · exact absurd (well sent) cut.2
  · exact spared p rfl ill

omit [Environment σ] in
theorem close (tidy : ∀ offers ∈ connections s.log, Tidy (pieces offers)) : Streams s.close := by
  refine ⟨?_, fun linked => by simp at linked⟩
  rw [System.close_log]
  split
  · exact tidy
  · exact tidy

end Streams

/-! ## What is sent -/

omit [Environment σ] in
theorem Owed.parse? {p : Inbound} {packet : Bytes} (h : Owed p s packet) :
    ∃ q, Packet.parse? packet = some q ∧ q.kind ≠ .connect ∧ q.kind ≠ .disconnect := by
  cases h <;> exact ⟨_, Packet.parse?_ack _ _, Packet.Kind.noConfusion, Packet.Kind.noConfusion⟩

theorem Parting.isWhole {packet : Bytes} (h : Parting packet) : IsWhole packet := by
  cases h with
  | connect written =>
    obtain ⟨body, whole⟩ := Packet.Connect.parse?_put written
    exact ⟨_, whole⟩
  | disconnect => exact ⟨_, Packet.parse?_disconnect⟩
  | pingReq => exact ⟨_, Packet.parse?_pingReq⟩

namespace Streams

/-- A request of the application, however sending it ends. -/
theorem requested (h : Streams s) (ordered : Ordered s) {packet : Bytes}
    (requested : Requested packet) : Streams (s.afterSend packet) := by
  obtain ⟨q, whole, kind⟩ := requested.parse?
  refine h.afterSend ordered ⟨q, whole⟩ (Or.inr ?_)
  rintro p rfl -
  exact ⟨q, whole, Or.inr (List.mem_append_left _ kind)⟩

/-- A packet of the session that ran out of time at most. -/
theorem goesOn (h : Streams s) (ordered : Ordered s) {packet : Bytes}
    (sent : ∃ q, Packet.parse? packet = some q ∧ q.kind ≠ .connect ∧ q.kind ≠ .disconnect)
    (mild : ¬ LosesSession (s.sendResult packet)) : Streams (s.afterSend packet) := by
  rcases sent with ⟨q, whole, other⟩
  refine h.afterSend ordered ⟨q, whole⟩ (Or.inr ?_)
  rintro p rfl lost
  exact ⟨q, whole, Or.inl ⟨Bool.eq_false_iff.2 fun broken => mild (lost broken), other⟩⟩

end Streams

theorem CallMove.streams (move : CallMove s s') (ordered : Ordered s) (h : Streams s) :
    Streams s' := by
  cases move with
  | remarked e remark =>
    have aside : ∀ e' ∈ [e], e'.IsAside := by
      intro e' member
      cases List.mem_singleton.1 member
      cases e <;> first | exact trivial | exact absurd remark id
    exact h.of_log (connections_append s.log aside) id
  | undone => exact h.of_log rfl id
  | discarded => exact h.of_log rfl id
  | released => exact (Streams.close h.tidy).of_log rfl (by simp [Client.release])
  | requested _ issued alive _ free written =>
    refine Streams.requested (s := s.change _) (h.of_log rfl id) ?_ (.request issued written)
    exact ordered.of_frame rfl ⟨0, by rw [Client.pass_zero]; rfl⟩ rfl ordered.condemned
      ordered.valid rfl
  | refused issued alive _ free written =>
    refine Streams.requested (s := s.change _) (h.of_log rfl id) ?_ (.request issued written)
    exact ordered.of_frame rfl ⟨0, by rw [Client.pass_zero]; rfl⟩ rfl ordered.condemned
      ordered.valid rfl
  | sent level dup _ _ written => exact h.requested ordered (.message level dup written)
  | _ => exact h.of_log rfl id

theorem TurnMove.streams {hand : Option Inbound} (move : TurnMove hand s s')
    (ordered : Ordered s) (h : Streams s) : Streams s' := by
  cases move with
  | call move => exact move.streams ordered h
  | replied _ owed mild => exact h.goesOn ordered owed.parse? mild
  | resent _ again _ =>
    obtain ⟨q, whole, kind⟩ := again.parse?
    have lenient : q.kind ∈ Packet.Kind.lenient := Packet.Kind.lenient_of_resent q.kind kind
    refine h.afterSend ordered ⟨q, whole⟩ (Or.inr ?_)
    rintro p rfl -
    exact ⟨q, whole, Or.inr lenient⟩
  | pinged _ mild =>
    exact h.goesOn ordered
      ⟨_, Packet.parse?_pingReq, Packet.Kind.noConfusion, Packet.Kind.noConfusion⟩ mild
  | _ => exact h.of_log rfl id

theorem ThreadMove.streams (move : ThreadMove s s') (ordered : Ordered s) (h : Streams s) :
    Streams s' := by
  cases move with
  | turn _ move => exact move.turn.streams ordered h
  | dialled => exact (Streams.close h.tidy).of_log rfl id
  | opened =>
    refine ⟨fun offers member => ?_, fun _ => ⟨[], _, rfl, fun p head => by cases head⟩⟩
    rcases List.mem_cons.1 member with rfl | member
    · refine ⟨fun p absent => ?_, fun p absent => ?_⟩
      all_goals cases absent
    · exact h.tidy offers member
  | saluted reader _ _ _ _ written sent =>
    obtain ⟨body, whole⟩ := Packet.Connect.parse?_put written
    exact (h.afterSend ordered ⟨_, whole⟩ (Or.inl sent)).of_log rfl id
  | parted _ parting => exact .close (h.tidy_afterSend ordered parting.isWhole)
  | closed => exact .close h.tidy
  | left => exact (Streams.close h.tidy).of_log rfl (by simp [Client.release])
  | _ => exact h.of_log rfl id

theorem Streams.keeps : Keeps (σ := σ) fun _ s => Streams s where
  call ordered _ move h := move.streams ordered h
  thread ordered _ move h := move.streams ordered h
  accept _ _ _ _ h := h.of_log rfl id
  turn ordered _ _ move h := move.streams ordered h
  lost ordered _ _ owed _ h := by
    obtain ⟨q, whole, -⟩ := owed.parse?
    exact .close (h.tidy_afterSend ordered ⟨q, whole⟩)
  done _ h := h

theorem Reachable.streams (h : Reachable s) : Streams s := by
  refine h.keep Streams.keeps fun config outside => ⟨fun _ member => ?_, fun linked => ?_⟩
  · cases member
  · cases linked

/-! ## The stream -/

/-- The octets of packets of which none is cut short are whole packets. -/
theorem stream_of_uncut {ps : List Piece} (whole : ∀ p ∈ ps, IsWhole p.packet)
    (uncut : ∀ p ∈ ps, ¬ p.IsCut) :
    ∃ packets : List Bytes, ps.flatMap Piece.taken = packets.flatten ∧
      ∀ packet ∈ packets, IsWhole packet := by
  induction ps with
  | nil => exact ⟨[], rfl, fun packet absent => by cases absent⟩
  | cons p ps ih =>
    obtain ⟨packets, same, others⟩ := ih (fun q member => whole q (List.mem_cons_of_mem _ member))
      fun q member => uncut q (List.mem_cons_of_mem _ member)
    by_cases none : p.taken = []
    · exact ⟨packets, by rw [List.flatMap_cons, none, same, List.nil_append], others⟩
    · have all : p.taken = p.packet :=
        Decidable.byContradiction fun part => uncut p List.mem_cons_self ⟨none, part⟩
      refine ⟨p.packet :: packets, by rw [List.flatMap_cons, all, same, List.flatten_cons], ?_⟩
      intro packet member
      rcases List.mem_cons.1 member with rfl | member
      · exact whole p List.mem_cons_self
      · exact others packet member

/-- The octets of tidy pieces, of which at most the latest is cut short, are whole
packets and a part of one. -/
theorem Tidy.stream {ps : List Piece} (h : Tidy ps) (uncut : ∀ p ∈ ps.tail, ¬ p.IsCut) :
    ∃ (packets : List Bytes) (part : Bytes),
      ps.reverse.flatMap Piece.taken = packets.flatten ++ part ∧
      (∀ packet ∈ packets, IsWhole packet) ∧
      ∃ packet, IsWhole packet ∧ part <+: packet ∧ part ≠ packet := by
  have parting : IsWhole Packet.disconnect := ⟨_, Packet.parse?_disconnect⟩
  cases ps with
  | nil =>
    exact ⟨[], [], rfl, fun packet absent => (by cases absent), Packet.disconnect, parting,
      List.nil_prefix, parting.ne_nil.symm⟩
  | cons p ps =>
    have earlier : ∀ q ∈ ps.reverse, IsWhole q.packet := fun q member =>
      (h.whole q (List.mem_cons_of_mem _ (List.mem_reverse.1 member))).1
    obtain ⟨packets, same, others⟩ :=
      stream_of_uncut earlier fun q member => uncut q (List.mem_reverse.1 member)
    obtain ⟨whole, part⟩ := h.whole p List.mem_cons_self
    rw [List.reverse_cons, List.flatMap_append, same, List.flatMap_singleton]
    by_cases all : p.taken = p.packet
    · refine ⟨packets ++ [p.packet], [], by simp [all], fun packet member => ?_,
        Packet.disconnect, parting, List.nil_prefix, parting.ne_nil.symm⟩
      rcases List.mem_append.1 member with earlier | latest
      · exact others packet earlier
      · exact List.mem_singleton.1 latest ▸ whole
    · exact ⟨packets, p.taken, rfl, others, p.packet, whole, part, all⟩

/-- **Framing.**  On every connection of every client, each piece is taken from the front
of a whole packet, and the broker can follow the stream unless another packet was offered
after one that was cut short and may be. -/
theorem framed_iff (reachable : Reachable s) {offers : List Attempt}
    (connection : offers ∈ connections s.log) :
    (∀ p ∈ pieces offers, IsWhole p.packet ∧ p.taken <+: p.packet) ∧
      (Framed offers ↔ ¬ ∃ p ∈ (pieces offers).tail, p.IsCut ∧ p.Tolerated) := by
  have tidy := reachable.streams.tidy offers connection
  refine ⟨tidy.whole, fun framed => ?_, fun unspoilt => ?_⟩
  · intro given
    rcases given with ⟨p, member, cut, -⟩
    exact framed.last p member cut
  · have uncut : ∀ p ∈ (pieces offers).tail, ¬ p.IsCut :=
      fun p member cut => unspoilt ⟨p, member, cut, tidy.spared p member cut⟩
    refine ⟨?_, uncut⟩
    rw [taken_pieces]
    exact tidy.stream uncut

/-- A client whose message runs out of time after three octets, and that then sends
another. -/
def cutShort : System Script :=
  inSession.takes
    [.outside { takings := { ahead := [.atMost 3, .fail .timeout] } },
      .call (.publish "a/b" [1, 2] .atMostOnce false),
      .call (.publish "c" [3] .atMostOnce false)]

theorem framed_iff_cutShort : ∃ offers ∈ connections cutShort.log, ¬ Framed offers := by
  have connection : connections cutShort.log = [(connections cutShort.log).headD []] := by
    decide +kernel
  have member : (connections cutShort.log).headD [] ∈ connections cutShort.log := by
    rw [connection]
    exact List.mem_singleton.2 rfl
  refine ⟨_, member, fun framed => ?_⟩
  refine (framed_iff (inSession_reachable.takes _) member).2.1 framed
    ⟨⟨[48, 7, 0, 3, 97, 47, 98, 1, 2], [48, 7, 0], false⟩, ?_, ?_, ?_⟩
  · decide +kernel
  · decide
  · exact ⟨⟨.publish, 0, [0, 3, 97, 47, 98, 1, 2]⟩, rfl, Or.inl (by decide)⟩

end Mqtt
