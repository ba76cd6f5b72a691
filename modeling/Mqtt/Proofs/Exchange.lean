import Mathlib.Logic.Relation
import Mqtt.Proofs.Moves

/-!
# A broker at the other end

Between a client and a broker there is a channel for either direction, which keeps the
order of what it carries and may lose any of it.  The broker has an open set of
identifiers that outlasts connections: of the messages at the highest guarantee under
one identifier it forwards the first, until they are released.  `Affair.Stands` says how
the handshakes under one identifier can stand, whatever was lost, sent again or answered
twice.
-/

namespace Mqtt

/-- What a broker heeds of a packet of the handshakes. -/
inductive Heeded where
  | message (m : Packet.Publish)
  | release
  deriving DecidableEq

/-- A packet under way to the broker. -/
structure Parcel where
  id : UInt16
  what : Heeded
  deriving DecidableEq

/-- An answer of the broker. -/
structure Receipt where
  id : UInt16
  kind : AckKind
  deriving DecidableEq

/-- One use of an identifier: a message that was sent for the first time. -/
structure Use where
  message : Packet.Publish
  /-- What the broker forwarded under the identifier since, the latest first. -/
  forwarded : List Packet.Publish := []
  /-- Whether the client raised that the message was published. -/
  published : Bool := false
  deriving DecidableEq

/-- What stands under an identifier. -/
structure Desk where
  /-- Whether the identifier is in the open set of the broker. -/
  held : Bool := false
  /-- The uses of the identifier, the latest first. -/
  uses : List Use := []
  deriving DecidableEq

/-- The answers to a message and to a release. -/
def AckKind.ofSender : List AckKind :=
  [.pubAck, .pubRec, .pubComp]

theorem AckKind.of_ofSender :
    ∀ kind ∈ ofSender, kind.isLocal = true ∧ kind.isRequest = false := by
  decide

theorem AckKind.notMem_ofSender {kind : AckKind} (request : kind.isRequest = true) :
    kind ∉ ofSender := by
  intro ofSender
  rw [(of_ofSender kind ofSender).2] at request
  cases request

theorem AckKind.pubRel_notMem : .pubRel ∉ ofSender := by
  decide

theorem AckKind.of_isRequest {kind : AckKind} (request : kind.isRequest = true) :
    kind.isPublish = false ∧ kind ≠ .pubComp := by
  cases kind <;> first | exact ⟨rfl, AckKind.noConfusion⟩ | cases request

theorem AckKind.isLocal_of_isRequest {kind : AckKind} (request : kind.isRequest = true) :
    kind.isLocal = true := by
  cases kind <;> first | rfl | cases request

theorem AckKind.isLocal_of_isPublish {kind : AckKind} (publish : kind.isPublish = true) :
    kind.isLocal = true := by
  cases kind <;> first | rfl | cases publish

theorem AckKind.ne_pubComp {kind : AckKind} (publish : kind.isPublish = true) :
    kind ≠ .pubComp := by
  rintro rfl
  cases publish

theorem AckKind.mem_ofSender_of_isPublish {kind : AckKind} (publish : kind.isPublish = true) :
    kind ∈ ofSender := by
  cases kind <;> first | decide | cases publish

namespace Inbound

/-- What a broker gets with a packet: a message with an identifier, or a release. -/
def parcel? (p : Inbound) : Option Parcel :=
  (p.publish?.bind fun m => m.packetId.map fun id => ⟨id, .message m⟩).or
    ((p.ack? .pubRel).map fun id => ⟨id, .release⟩)

/-- The answer that a packet is to a message or a release, if it is one. -/
def receipt? (p : Inbound) : Option Receipt :=
  AckKind.ofSender.findSome? fun kind => (p.ack? kind.packetKind).map fun id => ⟨id, kind⟩

theorem kind_of_receipt? {p : Inbound} {r : Receipt} (read : p.receipt? = some r) :
    r.kind ∈ AckKind.ofSender := by
  obtain ⟨kind, ofSender, found⟩ := List.exists_of_findSome?_eq_some read
  obtain ⟨id, -, rfl⟩ := Option.map_eq_some_iff.1 found
  exact ofSender

theorem receipt?_of_ack {p : Inbound} {kind : AckKind} {id : UInt16}
    (ofSender : kind ∈ AckKind.ofSender) (read : p.ack? kind.packetKind = some id) :
    p.receipt? = some ⟨id, kind⟩ := by
  have named : p.kind = kind.packetKind := by
    unfold ack? at read
    split at read
    next named => exact named
    · cases read
  have other {k : Packet.Kind} (apart : k ≠ kind.packetKind) : p.ack? k = none := by
    unfold ack?
    rw [if_neg fun same => apart (same.symm.trans named)]
  unfold receipt? AckKind.ofSender
  simp only [AckKind.ofSender, List.mem_cons, List.not_mem_nil, or_false] at ofSender
  rcases ofSender with rfl | rfl | rfl <;>
    simp only [List.findSome?_cons, AckKind.packetKind] at read other ⊢
  · rw [read]
    rfl
  · rw [other Packet.Kind.noConfusion, read]
    rfl
  · rw [other Packet.Kind.noConfusion, other Packet.Kind.noConfusion, read]
    rfl

/-- Most packets are of no concern to the handshakes of messages. -/
theorem parcel?_eq_none {p : Inbound} (unsent : p.kind ≠ .publish) (kept : p.kind ≠ .pubRel) :
    p.parcel? = none := by
  unfold parcel? publish? ack?
  rw [if_neg unsent, if_neg kept]
  rfl

theorem parcel?_pubRel (id : UInt16) :
    (⟨.pubRel, Packet.Kind.flags .pubRel, Bytes.ofWord id⟩ : Inbound).parcel? =
      some ⟨id, .release⟩ := by
  simp [parcel?, publish?, ack?, Except.toOption]

theorem parcel?_of_put {m : Packet.Publish} {packet : Bytes}
    (written : Packet.encode m.put = .ok packet) :
    ∃ q, Packet.parse? packet = some q ∧
      (m.qos = .atMostOnce → q.parcel? = none) ∧
      (∀ id, m.qos ≠ .atMostOnce → m.packetId = some id → q.parcel? = some ⟨id, .message m⟩) := by
  obtain ⟨sent, flags, body, carried, whole, decoded⟩ := Packet.Publish.parse?_put written
  have read : (⟨.publish, flags, body⟩ : Inbound).publish? = some { m with packetId := sent } := by
    unfold publish?
    rw [if_pos rfl, decoded]
    rfl
  have other : (⟨.publish, flags, body⟩ : Inbound).ack? .pubRel = none :=
    if_neg Packet.Kind.noConfusion
  refine ⟨_, whole, ?_⟩
  unfold parcel?
  rw [read, other]
  rcases Packet.Publish.sentId_cases carried with ⟨lowest, rfl⟩ | ⟨i, higher, given, rfl, -⟩
  · exact ⟨fun _ => rfl, fun id higher => absurd lowest higher⟩
  · refine ⟨fun lowest => absurd lowest higher, fun id _ own => ?_⟩
    have same : { m with packetId := some i } = m := by rw [← given]
    rw [same, Option.bind_some, own]
    rfl

end Inbound

/-! ## The broker -/

namespace Desk

/-- The desk once something was done to the latest use. -/
def touch (k : Desk) (f : Use → Use) : Desk :=
  { k with uses := k.uses.modifyHead f }

/-- The desk once the broker forwarded a message. -/
def forward (k : Desk) (m : Packet.Publish) : Desk :=
  k.touch fun u => { u with forwarded := m :: u.forwarded }

/-- The desk once a message was raised as published. -/
def confirm (k : Desk) : Desk :=
  k.touch fun u => { u with published := true }

/-- The desk once the identifier was put to another use. -/
def engage (k : Desk) (m : Packet.Publish) : Desk :=
  { k with uses := { message := m } :: k.uses }

/-- What the broker does with what it gets, and how it answers. -/
def serve (k : Desk) : Heeded → Desk × AckKind
  | .message m =>
    if m.qos = .exactlyOnce then
      (if k.held then k else { k.forward m with held := true }, .pubRec)
    else (k.forward m, .pubAck)
  | .release => ({ k with held := false }, .pubComp)

/-- Whether the latest use is of a message, but for the mark of being sent before. -/
def Bears (k : Desk) (m : Packet.Publish) : Prop :=
  k.uses.head?.map (fun u => u.message.again) = some m.again

end Desk

/-- What is under way between a client and a broker, the oldest first, and what stands
under each identifier. -/
structure Exchange where
  toBroker : List Parcel := []
  toClient : List Receipt := []
  desk : UInt16 → Desk := fun _ => {}

namespace Exchange

/-- The exchange with the desk of an identifier changed. -/
def alter (x : Exchange) (id : UInt16) (f : Desk → Desk) : Exchange :=
  { x with desk := fun i => if i = id then f (x.desk i) else x.desk i }

/-- The exchange once the broker got a parcel and answered it. -/
def serve (x : Exchange) (d : Parcel) : Exchange :=
  { x.alter d.id fun k => (k.serve d.what).1 with
    toClient := x.toClient ++ [⟨d.id, ((x.desk d.id).serve d.what).2⟩] }

/-- What the broker and the channels do. -/
inductive Moved : Exchange → Exchange → Prop
  | served (x : Exchange) {d : Parcel} {later : List Parcel} : x.toBroker = d :: later →
    Moved x ({ x with toBroker := later }.serve d)
  | lostOut (x : Exchange) (n : Nat) : Moved x { x with toBroker := x.toBroker.eraseIdx n }
  | lostIn (x : Exchange) (n : Nat) : Moved x { x with toClient := x.toClient.eraseIdx n }

/-! ## The client's part -/

/-- Whether nothing that carries an identifier is under way. -/
def isClear (x : Exchange) (id : UInt16) : Bool :=
  x.toBroker.all (·.id != id) && x.toClient.all (·.id != id)

/-- The exchange with one more parcel under way. -/
def carry (x : Exchange) (d : Parcel) : Exchange :=
  { x with toBroker := x.toBroker ++ [d] }

/-- The exchange once a client sent a parcel.  A message without the mark of being sent
before puts its identifier to another use, which is not to happen while anything of an
earlier use is under way. -/
def post (x : Exchange) (d : Parcel) : Option Exchange :=
  match d.what with
  | .message m =>
    if m.dup then some (x.carry d)
    else if x.isClear d.id then some ((x.alter d.id (·.engage m)).carry d)
    else none
  | .release => some (x.carry d)

/-- The exchange once a client read an answer, which only the next one can be. -/
def fetch (x : Exchange) (r : Receipt) : Option Exchange :=
  if x.toClient.head? = some r then some { x with toClient := x.toClient.tail } else none

/-- The exchange once a client sent a packet. -/
def pass (x : Exchange) (p : Inbound) : Option Exchange :=
  p.parcel?.elim (some x) x.post

/-- The exchange once a client wrote an entry to its log: a packet goes out with the last
of its octets, and one of a session comes in when it is read.  The application is not to
give up anything. -/
def follow (x : Exchange) (log : List Entry) : Entry → Option Exchange
  | .sent a => if a.completes then (Packet.parse? a.whole).elim (some x) x.pass else some x
  | .received p => if Entry.isFresh log then some x else p.receipt?.elim (some x) x.fetch
  | .raised (.published _ _ id) _ _ => some (x.alter id Desk.confirm)
  | .raised (.discarded ..) _ _ => none
  | _ => some x

/-- The exchanges that there can be once a client wrote a log, the latest first: whatever
the broker and the channels do comes in between. -/
inductive Beside : List Entry → Exchange → Prop
  | start : Beside [] {}
  | moved {log : List Entry} {x y : Exchange} : Beside log x → x.Moved y → Beside log y
  | wrote {log : List Entry} {e : Entry} {x y : Exchange} : Beside log x →
    x.follow log e = some y → Beside (e :: log) y

end Exchange

/-! ## What is under way under one identifier -/

/-- What is under way under one identifier, and what stands under it. -/
@[ext]
structure Affair where
  outs : List Heeded
  ins : List AckKind
  desk : Desk

/-- What of an exchange is under one identifier. -/
def Exchange.under (x : Exchange) (id : UInt16) : Affair where
  outs := (x.toBroker.filter (·.id == id)).map (·.what)
  ins := (x.toClient.filter (·.id == id)).map (·.kind)
  desk := x.desk id

/-- What the broker and the channels do under one identifier. -/
inductive Affair.Moved : Affair → Affair → Prop
  | served (w : Heeded) (outs : List Heeded) (ins : List AckKind) (desk : Desk) :
    Moved ⟨w :: outs, ins, desk⟩ ⟨outs, ins ++ [(desk.serve w).2], (desk.serve w).1⟩
  | lost {outs outs' : List Heeded} {ins ins' : List AckKind} (desk : Desk) :
    outs'.Sublist outs → ins'.Sublist ins → Moved ⟨outs, ins, desk⟩ ⟨outs', ins', desk⟩

namespace Exchange

variable {x y : Exchange} {id : UInt16} {d : Parcel}

theorem under_alter_self (f : Desk → Desk) :
    (x.alter id f).under id = { x.under id with desk := f (x.desk id) } :=
  Affair.ext rfl rfl (if_pos rfl)

theorem under_alter_other {other : UInt16} (apart : id ≠ other) (f : Desk → Desk) :
    (x.alter other f).under id = x.under id :=
  Affair.ext rfl rfl (if_neg apart)

theorem under_carry_self (own : d.id = id) :
    (x.carry d).under id = { x.under id with outs := (x.under id).outs ++ [d.what] } := by
  refine Affair.ext ?_ rfl rfl
  simp [under, carry, own]

theorem under_carry_other (apart : d.id ≠ id) : (x.carry d).under id = x.under id := by
  refine Affair.ext ?_ rfl rfl
  simp [under, carry, apart]

theorem under_serve_self (own : d.id = id) :
    (x.serve d).under id = { x.under id with
      ins := (x.under id).ins ++ [((x.desk id).serve d.what).2]
      desk := ((x.desk id).serve d.what).1 } := by
  subst own
  refine Affair.ext rfl ?_ (if_pos rfl)
  simp [under, serve]

theorem under_serve_other (apart : d.id ≠ id) : (x.serve d).under id = x.under id := by
  refine Affair.ext rfl ?_ (if_neg (Ne.symm apart))
  simp [under, serve, apart]

theorem under_of_isClear (clear : x.isClear id = true) :
    (x.under id).outs = [] ∧ (x.under id).ins = [] := by
  obtain ⟨outs, ins⟩ := Bool.and_eq_true_iff.1 clear
  simp only [List.all_eq_true, bne_iff_ne] at outs ins
  constructor
  · have none : x.toBroker.filter (·.id == id) = [] := by
      rw [List.filter_eq_nil_iff]
      intro d member
      simpa using outs d member
    rw [under, none]
    rfl
  · have none : x.toClient.filter (·.id == id) = [] := by
      rw [List.filter_eq_nil_iff]
      intro r member
      simpa using ins r member
    rw [under, none]
    rfl

/-- What happens to an exchange happens under each identifier. -/
theorem Moved.under (moved : x.Moved y) (id : UInt16) : (x.under id).Moved (y.under id) := by
  cases moved with
  | @served d later next =>
    by_cases own : d.id = id
    · have outs : x.under id = { ({ x with toBroker := later } : Exchange).under id with
          outs := d.what :: (({ x with toBroker := later } : Exchange).under id).outs } := by
        refine Affair.ext ?_ rfl rfl
        simp [Exchange.under, next, own]
      rw [outs, under_serve_self own]
      exact .served _ _ _ _
    · have outs : x.under id = ({ x with toBroker := later } : Exchange).under id := by
        refine Affair.ext ?_ rfl rfl
        simp [Exchange.under, next, own]
      rw [outs, under_serve_other own]
      exact .lost _ (.refl _) (.refl _)
  | lostOut n => exact .lost _ (((List.eraseIdx_sublist _ n).filter _).map _) (.refl _)
  | lostIn n => exact .lost _ (.refl _) (((List.eraseIdx_sublist _ n).filter _).map _)

theorem pass_of_none {p : Inbound} (plain : p.parcel? = none) : x.pass p = some x := by
  unfold pass
  rw [plain]
  rfl

theorem pass_of_some {p : Inbound} (parcel : p.parcel? = some d) : x.pass p = x.post d := by
  unfold pass
  rw [parcel]
  rfl

/-- A posted parcel is carried.  With another use it finds nothing under way. -/
theorem post_cases (posted : x.post d = some y) :
    y = x.carry d ∧ (∀ m, d.what = .message m → m.dup = true) ∨
      ∃ m, d.what = .message m ∧ m.dup = false ∧ x.isClear d.id = true ∧
        y = (x.alter d.id (·.engage m)).carry d := by
  unfold post at posted
  split at posted
  next m what =>
    split at posted
    next again =>
      refine Or.inl ⟨(Option.some.inj posted).symm, fun m' same => ?_⟩
      rw [what] at same
      cases same
      exact again
    next new =>
      split at posted
      next clear =>
        exact Or.inr ⟨m, what, Bool.eq_false_iff.2 new, clear, (Option.some.inj posted).symm⟩
      · cases posted
  next what =>
    refine Or.inl ⟨(Option.some.inj posted).symm, fun m same => ?_⟩
    rw [what] at same
    cases same

/-- What is read was the next under way. -/
theorem fetch_cases {r : Receipt} (fetched : x.fetch r = some y) :
    x.toClient = r :: y.toClient ∧ y = { x with toClient := y.toClient } := by
  unfold fetch at fetched
  split at fetched
  next next =>
    cases fetched
    obtain ⟨later, split⟩ := List.head?_eq_some_iff.1 next
    refine ⟨?_, rfl⟩
    rw [split]
    rfl
  · cases fetched

theorem under_fetch {r : Receipt} (fetched : x.fetch r = some y) (id : UInt16) :
    (x.under id).outs = (y.under id).outs ∧ (x.under id).desk = (y.under id).desk ∧
      (x.under id).ins = (if r.id = id then [r.kind] else []) ++ (y.under id).ins := by
  obtain ⟨next, rest⟩ := fetch_cases fetched
  refine ⟨by rw [rest]; rfl, by rw [rest]; rfl, ?_⟩
  unfold under
  rw [next]
  by_cases own : r.id = id <;> simp [own]

end Exchange

namespace Exchange.Beside

variable {x y : Exchange} {log : List Entry} {e : Entry}

/-- The last thing that a client wrote, and what happened since. -/
theorem of_cons (beside : Beside (e :: log) y) :
    ∃ x z, Beside log x ∧ x.follow log e = some z ∧ Relation.ReflTransGen Moved z y := by
  generalize written : e :: log = whole at beside
  induction beside with
  | start => cases written
  | moved _ moved ih =>
    obtain ⟨x, z, before, follows, later⟩ := ih written
    exact ⟨x, z, before, follows, later.tail moved⟩
  | wrote before follows =>
    cases written
    exact ⟨_, _, before, follows, .refl⟩

theorem of_nil (beside : Beside [] y) : Relation.ReflTransGen Moved {} y := by
  generalize written : ([] : List Entry) = whole at beside
  induction beside with
  | start => exact .refl
  | moved _ moved ih => exact (ih written).tail moved
  | wrote => cases written

theorem later (beside : Beside log x) (moves : Relation.ReflTransGen Moved x y) :
    Beside log y := by
  induction moves with
  | refl => exact beside
  | tail _ moved ih => exact .moved ih moved

/-- Next to a broker that is waited for nothing is given up. -/
theorem keeps (beside : Beside log x) {awaits : AckKind} {id : UInt16} :
    ¬ Entry.GaveUp log awaits id := by
  intro gaveUp
  rcases gaveUp with ⟨topic, client, told, member⟩
  induction beside with
  | start => cases member
  | moved _ _ ih => exact ih member
  | wrote _ follows ih =>
    rcases List.mem_cons.1 member with rfl | member
    · cases follows
    · exact ih member

end Exchange.Beside

/-! ## A prompt broker -/

namespace Exchange

/-- The exchange once the broker got all that was under way to it. -/
def settle (x : Exchange) : Exchange :=
  x.toBroker.foldl serve { x with toBroker := [] }

/-- The exchange with a broker that answers at once, if a client may write a log next to
it and nothing is lost. -/
def prompt : List Entry → Option Exchange
  | [] => some {}
  | e :: log => (prompt log).bind fun x => (x.follow log e).map settle

theorem settle_moves (x : Exchange) : Relation.ReflTransGen Moved x x.settle := by
  rcases x with ⟨outs, ins, desk⟩
  unfold settle
  induction outs generalizing ins desk with
  | nil => exact .refl
  | cons d later ih =>
    have first : Moved ⟨d :: later, ins, desk⟩ ((⟨later, ins, desk⟩ : Exchange).serve d) :=
      .served _ rfl
    exact .head first (ih _ _)

theorem beside_of_prompt {log : List Entry} {x : Exchange} (answered : prompt log = some x) :
    Beside log x := by
  induction log generalizing x with
  | nil =>
    cases answered
    exact .start
  | cons e log ih =>
    obtain ⟨y, before, after⟩ := Option.bind_eq_some_iff.1 answered
    obtain ⟨z, follows, rfl⟩ := Option.map_eq_some_iff.1 after
    exact Beside.later (.wrote (ih before) follows) z.settle_moves

end Exchange

/-! ## How handshakes can stand -/

/-- What is promised of a use of an identifier. -/
structure Use.Delivered (u : Use) : Prop where
  faithful : ∀ m ∈ u.forwarded, m.again = u.message.again
  once : u.message.qos = .exactlyOnce →
    u.forwarded.length ≤ 1 ∧ (u.published = true → u.forwarded.length = 1)
  reached : u.message.qos = .atLeastOnce → u.published = true → 1 ≤ u.forwarded.length

/-- How far the handshake of a use can be, by the answer that the client waits for. -/
inductive Stage (u : Use) (a : Affair) : Option AckKind → Prop
  /-- The broker got no message of the use. -/
  | unseen : u.message.qos = .exactlyOnce → u.published = false → u.forwarded = [] →
    a.desk.held = false → .release ∉ a.outs → .pubRec ∉ a.ins → .pubComp ∉ a.ins →
    Stage u a (some .pubRec)
  | held : u.message.qos = .exactlyOnce → u.forwarded.length = 1 → a.desk.held = true →
    .release ∉ a.outs → .pubComp ∉ a.ins → Stage u a (some .pubRec)
  /-- The client releases the message.  What it sent of the message goes before. -/
  | releasing : u.message.qos = .exactlyOnce → u.forwarded.length = 1 → a.desk.held = true →
    a.outs.Pairwise (fun w w' => w = .release → w' = .release) → .pubComp ∉ a.ins →
    Stage u a (some .pubComp)
  | released : u.message.qos = .exactlyOnce → u.forwarded.length = 1 → a.desk.held = false →
    (∀ m, .message m ∉ a.outs) → Stage u a (some .pubComp)
  | finished : u.message.qos = .exactlyOnce → u.forwarded.length = 1 → a.desk.held = false →
    (∀ m, .message m ∉ a.outs) → Stage u a none
  | awaited : u.message.qos = .atLeastOnce → u.published = false → a.desk.held = false →
    (.pubAck ∈ a.ins → u.forwarded ≠ []) → Stage u a (some .pubAck)
  | acknowledged : u.message.qos = .atLeastOnce → u.forwarded ≠ [] → a.desk.held = false →
    Stage u a none

/-- How the handshakes under an identifier can stand, by the answer that the client waits
for. -/
inductive Affair.Stands (awaits : Option AckKind) (a : Affair) : Prop
  | unused : awaits = none → a = ⟨[], [], {}⟩ → Stands awaits a
  | used {u : Use} {earlier : List Use} : a.desk.uses = u :: earlier →
    (∀ e ∈ earlier, e.Delivered) → (∀ m ∈ u.forwarded, m.again = u.message.again) →
    (∀ m, .message m ∈ a.outs → m.again = u.message.again) → Stage u a awaits → Stands awaits a

theorem Packet.Publish.qos_of_again {m n : Packet.Publish} (same : m.again = n.again) :
    m.qos = n.qos := by
  have level : m.again.qos = n.again.qos := by rw [same]
  exact level

namespace Desk

variable {k : Desk} {m : Packet.Publish} {u : Use} {earlier : List Use}

theorem serve_first (level : m.qos = .exactlyOnce) (free : k.held = false) :
    k.serve (.message m) = ({ k.forward m with held := true }, .pubRec) := by
  unfold serve
  dsimp only
  rw [if_pos level, free]
  rfl

theorem serve_again (level : m.qos = .exactlyOnce) (held : k.held = true) :
    k.serve (.message m) = (k, .pubRec) := by
  unfold serve
  dsimp only
  rw [if_pos level, if_pos held]

theorem serve_acked (level : m.qos = .atLeastOnce) :
    k.serve (.message m) = (k.forward m, .pubAck) := by
  unfold serve
  dsimp only
  rw [if_neg (by rw [level]; exact Qos.noConfusion)]

theorem touch_uses (uses : k.uses = u :: earlier) (f : Use → Use) :
    (k.touch f).uses = f u :: earlier := by
  unfold touch
  rw [uses]
  rfl

theorem forward_uses (uses : k.uses = u :: earlier) (m : Packet.Publish) :
    (k.forward m).uses = { u with forwarded := m :: u.forwarded } :: earlier :=
  touch_uses uses _

theorem bears_touch {f : Use → Use} (same : ∀ u, (f u).message = u.message) :
    (k.touch f).Bears m ↔ k.Bears m := by
  unfold Bears touch
  cases k.uses with
  | nil => rfl
  | cons u earlier => simp [same]

theorem bears_engage (k : Desk) (m : Packet.Publish) : (k.engage m).Bears m :=
  rfl

/-- The broker does not put an identifier to another use. -/
theorem bears_serve (w : Heeded) : (k.serve w).1.Bears m ↔ k.Bears m := by
  cases w with
  | release => rfl
  | message n =>
    have forwarded : (k.forward n).Bears m ↔ k.Bears m := bears_touch fun u => rfl
    unfold serve
    dsimp only
    split
    · dsimp only
      split
      · rfl
      · exact forwarded
    · exact forwarded

theorem bears_iff (uses : k.uses = u :: earlier) :
    k.Bears m ↔ m.again = u.message.again := by
  unfold Bears
  rw [uses]
  simp [eq_comm]

end Desk

namespace Stage

variable {u : Use} {outs outs' : List Heeded} {ins ins' : List AckKind} {desk : Desk}
  {awaits : Option AckKind}

/-- Losing something leaves a handshake where it is. -/
theorem lost (h : Stage u ⟨outs, ins, desk⟩ awaits) (fewer : outs'.Sublist outs)
    (fewer' : ins'.Sublist ins) : Stage u ⟨outs', ins', desk⟩ awaits := by
  have out {w : Heeded} (absent : w ∉ outs) : w ∉ outs' := fun member => absent (fewer.mem member)
  have in_ {k : AckKind} (absent : k ∉ ins) : k ∉ ins' := fun member => absent (fewer'.mem member)
  cases h with
  | unseen level silent none free unreleased unrec uncomp =>
    exact .unseen level silent none free (out unreleased) (in_ unrec) (in_ uncomp)
  | held level one open_ unreleased uncomp =>
    exact .held level one open_ (out unreleased) (in_ uncomp)
  | releasing level one open_ order uncomp =>
    exact .releasing level one open_ (order.sublist fewer) (in_ uncomp)
  | released level one free gone => exact .released level one free fun m => out (gone m)
  | finished level one free gone => exact .finished level one free fun m => out (gone m)
  | awaited level silent free answered =>
    exact .awaited level silent free fun member => answered (fewer'.mem member)
  | acknowledged level some_ free => exact .acknowledged level some_ free

/-- A release takes the identifier out of the open set. -/
theorem release (h : Stage u ⟨.release :: outs, ins, desk⟩ awaits) :
    Stage u ⟨outs, ins ++ [.pubComp], { desk with held := false }⟩ awaits := by
  have later {w : Heeded} (absent : w ∉ .release :: outs) : w ∉ outs :=
    fun member => absent (List.mem_cons_of_mem _ member)
  cases h with
  | unseen _ _ _ _ unreleased | held _ _ _ unreleased =>
    exact absurd List.mem_cons_self unreleased
  | releasing level one _ order _ =>
    -- No message is behind a release, so the identifier is not taken up again.
    refine .released level one rfl fun m member => ?_
    cases (List.pairwise_cons.1 order).1 _ member rfl
  | released level one _ gone => exact .released level one rfl fun m => later (gone m)
  | finished level one _ gone => exact .finished level one rfl fun m => later (gone m)
  | awaited level silent _ answered =>
    refine .awaited level silent rfl fun member => ?_
    rcases List.mem_append.1 member with before | last
    · exact answered before
    · cases List.mem_singleton.1 last
  | acknowledged level some_ _ => exact .acknowledged level some_ rfl

/-- A message is forwarded, or was before. -/
theorem message {m : Packet.Publish} {earlier : List Use}
    (h : Stage u ⟨.message m :: outs, ins, desk⟩ awaits) (uses : desk.uses = u :: earlier)
    (level : m.qos = u.message.qos) :
    ∃ v, (desk.serve (.message m)).1.uses = v :: earlier ∧
      (v = u ∨ v = { u with forwarded := m :: u.forwarded }) ∧
      Stage v ⟨outs, ins ++ [(desk.serve (.message m)).2], (desk.serve (.message m)).1⟩
        awaits := by
  have later {w : Heeded} (absent : w ∉ .message m :: outs) : w ∉ outs :=
    fun member => absent (List.mem_cons_of_mem _ member)
  have unanswered (absent : .pubComp ∉ ins) : .pubComp ∉ ins ++ [.pubRec] := by simp [absent]
  have forwarded := Desk.forward_uses uses m
  cases h with
  | unseen high silent none free unreleased _ uncomp =>
    rw [Desk.serve_first (level.trans high) free]
    refine ⟨_, forwarded, Or.inr rfl, .held high ?_ rfl (later unreleased) (unanswered uncomp)⟩
    change (m :: u.forwarded).length = 1
    rw [none]
    rfl
  | held high one open_ unreleased uncomp =>
    rw [Desk.serve_again (level.trans high) open_]
    exact ⟨u, uses, Or.inl rfl, .held high one open_ (later unreleased) (unanswered uncomp)⟩
  | releasing high one open_ order uncomp =>
    rw [Desk.serve_again (level.trans high) open_]
    have rest := (List.pairwise_cons.1 order).2
    exact ⟨u, uses, Or.inl rfl, .releasing high one open_ rest (unanswered uncomp)⟩
  | released _ _ _ gone | finished _ _ _ gone => exact absurd List.mem_cons_self (gone m)
  | awaited low silent free _ =>
    rw [Desk.serve_acked (level.trans low)]
    exact ⟨_, forwarded, Or.inr rfl, .awaited low silent free fun _ => List.cons_ne_nil _ _⟩
  | acknowledged low _ free =>
    rw [Desk.serve_acked (level.trans low)]
    exact ⟨_, forwarded, Or.inr rfl, .acknowledged low (List.cons_ne_nil _ _) free⟩

/-- What is promised of a use holds at every stage of its handshake. -/
theorem delivered {a : Affair} (h : Stage u a awaits)
    (faithful : ∀ m ∈ u.forwarded, m.again = u.message.again) : u.Delivered := by
  have higher {p : Prop} (level : u.message.qos = .exactlyOnce)
      (low : u.message.qos = .atLeastOnce) : p := by
    rw [level] at low
    cases low
  cases h with
  | unseen level silent none =>
    refine ⟨faithful, fun _ => ⟨?_, fun told => ?_⟩, fun low => higher level low⟩
    · rw [none]
      exact Nat.zero_le 1
    · rw [silent] at told
      cases told
  | held level one | releasing level one | released level one | finished level one =>
    exact ⟨faithful, fun _ => ⟨Nat.le_of_eq one, fun _ => one⟩, fun low => higher level low⟩
  | awaited level silent =>
    refine ⟨faithful, fun high => higher high level, fun _ told => ?_⟩
    rw [silent] at told
    cases told
  | acknowledged level some_ =>
    exact ⟨faithful, fun high => higher high level, fun _ _ => List.length_pos_iff.2 some_⟩

end Stage

namespace Affair.Stands

variable {a : Affair} {awaits : Option AckKind}

theorem lost {outs outs' : List Heeded} {ins ins' : List AckKind} {desk : Desk}
    (h : Stands awaits ⟨outs, ins, desk⟩) (fewer : outs'.Sublist outs)
    (fewer' : ins'.Sublist ins) : Stands awaits ⟨outs', ins', desk⟩ := by
  cases h with
  | unused idle blank =>
    cases blank
    cases List.sublist_nil.1 fewer
    cases List.sublist_nil.1 fewer'
    exact .unused idle rfl
  | used uses settled faithful carried stage =>
    exact .used uses settled faithful (fun m member => carried m (fewer.mem member))
      (stage.lost fewer fewer')

/-- The broker takes every handshake on, or leaves it where it is. -/
theorem served {w : Heeded} {outs : List Heeded} {ins : List AckKind} {desk : Desk}
    (h : Stands awaits ⟨w :: outs, ins, desk⟩) :
    Stands awaits ⟨outs, ins ++ [(desk.serve w).2], (desk.serve w).1⟩ := by
  cases h with
  | unused idle blank => cases blank
  | @used u earlier uses settled faithful carried stage =>
    have rest (m : Packet.Publish) (member : .message m ∈ outs) : m.again = u.message.again :=
      carried m (List.mem_cons_of_mem _ member)
    cases w with
    | release => exact .used uses settled faithful rest stage.release
    | message m =>
      have same := carried m List.mem_cons_self
      obtain ⟨v, uses', which, further⟩ :=
        stage.message uses (Packet.Publish.qos_of_again same)
      rcases which with rfl | rfl
      · exact .used uses' settled faithful rest further
      · refine .used uses' settled (fun n member => ?_) rest further
        rcases List.mem_cons.1 member with rfl | before
        · exact same
        · exact faithful n before

theorem moved {b : Affair} (h : Stands awaits a) (moved : a.Moved b) : Stands awaits b := by
  cases moved with
  | served => exact h.served
  | lost _ fewer fewer' => exact h.lost fewer fewer'

/-- All uses of an identifier are what is promised. -/
theorem delivered (h : Stands awaits a) : ∀ u ∈ a.desk.uses, u.Delivered := by
  cases h with
  | unused _ blank =>
    subst blank
    intro u member
    cases member
  | used uses settled faithful _ stage =>
    rw [uses]
    intro u member
    rcases List.mem_cons.1 member with rfl | before
    · exact stage.delivered faithful
    · exact settled u before

/-! ## What the client does -/

/-- Only an answer to a message or a release is waited for. -/
theorem awaits_cases {kind : AckKind} (h : Stands (some kind) a) :
    kind = .pubAck ∨ kind = .pubRec ∨ kind = .pubComp := by
  cases h with
  | unused idle => cases idle
  | used _ _ _ _ stage => cases stage <;> simp

/-- A message that waits for its first answer may be sent again. -/
theorem again {kind : AckKind} (h : Stands (some kind) a) (publish : kind.isPublish = true)
    {m : Packet.Publish} (bears : a.desk.Bears m) :
    Stands (some kind) { a with outs := a.outs ++ [.message m] } := by
  cases h with
  | unused idle => cases idle
  | @used u earlier uses settled faithful carried stage =>
    have same := (Desk.bears_iff uses).1 bears
    have carries : ∀ n, .message n ∈ a.outs ++ [.message m] → n.again = u.message.again := by
      intro n member
      rcases List.mem_append.1 member with before | last
      · exact carried n before
      · cases List.mem_singleton.1 last
        exact same
    have unreleased (absent : .release ∉ a.outs) : .release ∉ a.outs ++ [.message m] := by
      simp [absent]
    refine .used uses settled faithful carries ?_
    cases stage with
    | unseen level silent none free absent unrec uncomp =>
      exact .unseen level silent none free (unreleased absent) unrec uncomp
    | held level one open_ absent uncomp =>
      exact .held level one open_ (unreleased absent) uncomp
    | releasing | released => cases publish
    | awaited level silent free answered => exact .awaited level silent free answered

/-- A release may be sent as long as its answer is waited for. -/
theorem release (h : Stands (some .pubComp) a) :
    Stands (some .pubComp) { a with outs := a.outs ++ [.release] } := by
  cases h with
  | unused idle => cases idle
  | @used u earlier uses settled faithful carried stage =>
    have carries : ∀ n, .message n ∈ a.outs ++ [.release] → n.again = u.message.again := by
      intro n member
      rcases List.mem_append.1 member with before | last
      · exact carried n before
      · cases List.mem_singleton.1 last
    refine .used uses settled faithful carries ?_
    cases stage with
    | releasing level one open_ order uncomp =>
      refine .releasing level one open_ ?_ uncomp
      rw [List.pairwise_append]
      refine ⟨order, List.pairwise_singleton _ _, fun w _ w' last _ => ?_⟩
      exact List.mem_singleton.1 last
    | released level one free gone =>
      refine .released level one free fun m member => ?_
      rcases List.mem_append.1 member with before | last
      · exact gone m before
      · cases List.mem_singleton.1 last

/-- An identifier may be put to another use once nothing is waited for or under way. -/
theorem engage (h : Stands none a) (outs : a.outs = []) (ins : a.ins = [])
    {m : Packet.Publish} {kind : AckKind}
    (level : m.qos = .atLeastOnce ∧ kind = .pubAck ∨ m.qos = .exactlyOnce ∧ kind = .pubRec) :
    Stands (some kind) ⟨a.outs ++ [.message m], a.ins, a.desk.engage m⟩ := by
  have free : a.desk.held = false := by
    cases h with
    | unused _ blank => rw [blank]
    | used _ _ _ _ stage => cases stage <;> assumption
  have fresh : Stage { message := m } ⟨[.message m], [], a.desk.engage m⟩ (some kind) := by
    rcases level with ⟨low, rfl⟩ | ⟨high, rfl⟩
    · exact .awaited low rfl free fun member => by cases member
    · exact .unseen high rfl rfl free (by simp) List.not_mem_nil List.not_mem_nil
  have alone : ∀ n, Heeded.message n ∈ [Heeded.message m] → n.again = m.again := by
    intro n member
    cases List.mem_singleton.1 member
    rfl
  rw [outs, ins]
  exact .used rfl h.delivered (fun n none => by cases none) alone fresh

/-- With PUBREC the client goes on to the release. -/
theorem advance (h : Stands (some .pubRec) a) (answered : .pubRec ∈ a.ins) :
    Stands (some .pubComp) a := by
  cases h with
  | unused idle => cases idle
  | used uses settled faithful carried stage =>
    refine .used uses settled faithful carried ?_
    cases stage with
    | unseen _ _ _ _ _ unrec => exact absurd answered unrec
    | held level one open_ unreleased uncomp =>
      refine .releasing level one open_ ?_ uncomp
      exact List.pairwise_of_forall_mem_list fun w member _ _ released =>
        absurd (released ▸ member) unreleased

/-- With the last answer of its handshake a message is published. -/
theorem complete {kind : AckKind} (last : kind = .pubAck ∨ kind = .pubComp)
    (h : Stands (some kind) a) (answered : kind ∈ a.ins) :
    Stands none { a with desk := a.desk.confirm } := by
  cases h with
  | unused idle => cases idle
  | @used u earlier uses settled faithful carried stage =>
    refine .used (Desk.touch_uses uses _) settled faithful carried ?_
    cases stage with
    | unseen | held => rcases last with last | last <;> cases last
    | releasing _ _ _ _ uncomp => exact absurd answered uncomp
    | released level one free gone => exact .finished level one free gone
    | awaited level _ free some_ => exact .acknowledged level (some_ answered) free

end Affair.Stands

end Mqtt
