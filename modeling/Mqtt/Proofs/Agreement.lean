import Mqtt.Proofs.Rolls

/-!
# Agreement with a broker about filters

A broker keeps a map of filters to guarantees.  Between a client and the broker there is a
channel for either direction, which keeps the order of what it carries and loses nothing.
The broker takes the requests about filters as they come, decides on the filters of each
in turn, and answers it.  `Parley.Agrees` says how the ledger of the client stands to the
broker: the answers that were read led to the map that the broker had when it sent the last
of them, those under way lead on to the map that it has now, and the requests that wait are
answered in their order.
-/

namespace Mqtt

/-- A request about filters, as a broker gets it: what answers it, its identifier and its
filters. -/
abbrev Demand :=
  AckKind × UInt16 × List (String × Qos)

/-- What a broker gets of a request. -/
def Petition.demand (p : Petition) : Demand :=
  (p.kind, p.id, p.filters)

/-- The code for what a broker decided on a filter; it is refused if nothing is granted. -/
def Qos.code : Option Qos → UInt8
  | none => Packet.refusedCode
  | some granted => granted.toByte

namespace Roll

/-- The map once a broker decided on filters in turn.  What is granted takes the place of
what was, and what is refused leaves it. -/
def grant (r : Roll) (decided : List ((String × Qos) × Option Qos)) : Roll :=
  decided.foldl
    (fun r (filter, verdict) => verdict.elim r fun granted => r.set filter.1 (some granted)) r

/-- The map once a broker dropped filters. -/
def drop (r : Roll) (filters : List (String × Qos)) : Roll :=
  filters.foldl (fun r filter => r.set filter.1 none) r

end Roll

/-- An answer under way. -/
structure Answer where
  /-- What it answers. -/
  demand : Demand
  codes : Bytes
  /-- The map of the broker when it sent the answer. -/
  roll : Roll

/-- What an answer names. -/
def Answer.key (a : Answer) : AckKind × UInt16 :=
  (a.demand.1, a.demand.2.1)

/-- What is under way between a client and a broker, the oldest first, and the map of the
broker. -/
structure Parley where
  toBroker : List Demand := []
  toClient : List Answer := []
  roll : Roll
  /-- The map that the broker had when it sent the last answer that the client read. -/
  heard : Roll

namespace Parley

/-- The parley once the broker answered the oldest request. -/
def reply (x : Parley) (a : Answer) : Parley :=
  { x with toBroker := x.toBroker.tail, toClient := x.toClient ++ [a], roll := a.roll }

/-- What the broker does. -/
inductive Moved : Parley → Parley → Prop
  | granted (x : Parley) {id : UInt16} {filters : List (String × Qos)} {later : List Demand}
    (verdicts : List (Option Qos)) : x.toBroker = (.subAck, id, filters) :: later →
    filters.length = verdicts.length →
    Moved x (x.reply
      ⟨(.subAck, id, filters), verdicts.map Qos.code, x.roll.grant (filters.zip verdicts)⟩)
  | dropped (x : Parley) {id : UInt16} {filters : List (String × Qos)} {later : List Demand} :
    x.toBroker = (.unsubAck, id, filters) :: later →
    Moved x (x.reply ⟨(.unsubAck, id, filters), [], x.roll.drop filters⟩)

/-- The parley once a client read an answer, which only the next one can be. -/
def fetch (x : Parley) (key : AckKind × UInt16) (codes : Bytes) : Option Parley :=
  match x.toClient with
  | [] => none
  | a :: later =>
    if a.key = key ∧ a.codes = codes then some { x with toClient := later, heard := a.roll }
    else none

/-- The parley once a client wrote an entry to its log: a request goes out with the last of
its octets, and an answer comes in when it is read.  While anything is under way the
connection is not to be another. -/
def follow (x : Parley) (log : List Entry) : Entry → Option Parley
  | .sent a => some { x with toBroker := x.toBroker ++ (Entry.sent a).asks?.toList }
  | .received p =>
    if Entry.isFresh log then some x
    else p.verdict?.elim (some x) fun (key, codes) => x.fetch key codes
  | .opened => if x.toBroker.isEmpty && x.toClient.isEmpty then some x else none
  | _ => some x

/-- The parleys that there can be once a client went on to write a log, the latest first, from
where it had written another and the broker had a map: whatever the broker does comes in
between. -/
inductive Beside (base : List Entry) (start : Roll) : List Entry → Parley → Prop
  | start : Beside base start base { roll := start, heard := start }
  | moved {log : List Entry} {x y : Parley} : Beside base start log x → x.Moved y →
    Beside base start log y
  | wrote {log : List Entry} {e : Entry} {x y : Parley} : Beside base start log x →
    x.follow log e = some y → Beside base start (e :: log) y

end Parley

/-! ## What answers say -/

namespace Petition

variable {p : Petition}

/-- The events that codes call for change a map as the broker changed its own. -/
theorem foldl_granted (kind : p.kind = .subAck) (r : Roll) {verdicts : List (Option Qos)}
    (same : p.filters.length = verdicts.length) :
    (p.verdicts (.answered (verdicts.map Qos.code))).foldl Roll.after r =
      r.grant (p.filters.zip verdicts) := by
  have counted : p.filters.length = (verdicts.map Qos.code).length := by
    rw [List.length_map, same]
  rw [Petition.verdicts, if_pos kind, if_pos counted, List.zip_map_right, List.map_map,
    List.foldl_map]
  unfold Roll.grant
  congr 1
  funext r decided
  obtain ⟨filter, verdict⟩ := decided
  cases verdict with
  | none => rfl
  | some granted => cases granted <;> rfl

theorem foldl_dropped (kind : p.kind = .unsubAck) (r : Roll) (codes : Bytes) :
    (p.verdicts (.answered codes)).foldl Roll.after r = r.drop p.filters := by
  rw [Petition.verdicts, kind, if_neg AckKind.noConfusion, List.foldl_map]
  rfl

end Petition

/-- Whether the events that an answer calls for make the map of the broker out of another. -/
def Answer.Turns (a : Answer) (r : Roll) : Prop :=
  ∀ p : Petition, p.demand = a.demand →
    (p.verdicts (.answered a.codes)).foldl Roll.after r = a.roll

/-- Whether answers lead from one map to another. -/
def Roll.Leads (r : Roll) : List Answer → Roll → Prop
  | [], last => r = last
  | a :: later, last => a.Turns r ∧ Roll.Leads a.roll later last

theorem Roll.Leads.concat {r last : Roll} {answers : List Answer} {a : Answer}
    (leads : r.Leads answers last) (turns : a.Turns last) : r.Leads (answers ++ [a]) a.roll := by
  induction answers generalizing r with
  | nil =>
    cases leads
    exact ⟨turns, rfl⟩
  | cons first later ih => exact ⟨leads.1, ih leads.2⟩

/-! ## Ledgers and parleys -/

namespace Ledger

/-- The requests that ended, and the one whose answer was read last. -/
def settled (l : Ledger) : List (Petition × Ending) :=
  (l.hand.map fun (p, codes) => (p, Ending.answered codes)).toList ++ l.ended

/-- The requests of which no answer was read. -/
def unheard (l : Ledger) : List Petition :=
  l.hand.elim l.waiting fun (p, _) => l.waiting.erase p

/-- Whether no request expired or was given up since. -/
def Patient (before now : Ledger) : Prop :=
  ∀ ended ∈ now.ended, ended ∉ before.ended → ended.2 ≠ .expired ∧ ended.2 ≠ .discarded

instance (before now : Ledger) : Decidable (Patient before now) :=
  inferInstanceAs (Decidable (∀ ended ∈ now.ended, _))

variable {l : Ledger} {p : Petition}

theorem settled_of_idle (nothing : l.hand = none) : l.settled = l.ended := by
  rw [settled, nothing]
  rfl

theorem unheard_of_idle (nothing : l.hand = none) : l.unheard = l.waiting := by
  rw [unheard, nothing]
  rfl

/-- An answer to the request that waits longest settles it. -/
theorem hear_oldest (distinct : (l.waiting.map Petition.id).Nodup) {others : List Petition}
    (oldest : l.waiting.reverse = p :: others) {q : Inbound} {codes : Bytes}
    (verdict : q.verdict? = some (p.key, codes)) :
    (l.hear q).settled = (p, .answered codes) :: l.ended ∧
      (l.hear q).unheard.reverse = others := by
  have all : l.waiting = others.reverse ++ [p] := by
    rw [← List.reverse_cons, ← oldest, List.reverse_reverse]
  have waits : p ∈ l.waiting := all ▸ List.mem_append_right _ List.mem_cons_self
  have hand : (l.hear q).hand = some (p, codes) := by
    rw [hear, verdict]
    exact congrArg (Option.map (·, codes)) (find?_key distinct waits)
  have left : l.waiting.erase p = others.reverse := by
    have once := List.Nodup.of_map _ distinct
    rw [all] at once ⊢
    have apart : p ∉ others.reverse := fun member =>
      (List.nodup_append.1 once).2.2 p member p List.mem_cons_self rfl
    rw [List.erase_append_right _ apart, List.erase_cons_head, List.append_nil]
  constructor
  · rw [settled, hand]
    rfl
  · rw [unheard, hand]
    exact (congrArg List.reverse left).trans (List.reverse_reverse others)

/-- A request that waits can only be answered. -/
theorem Patient.answered {l' : Ledger} {ending : Ending} (patient : Patient l l')
    (sound : l.Sound) (waits : p ∈ l.waiting) (ended : (p, ending) ∈ l'.ended) :
    ending ≠ .expired ∧ ending ≠ .discarded :=
  patient _ ended (sound.not_ended waits ending)

theorem Patient.earlier {before now later : Ledger} (patient : Patient before later)
    (kept : now.ended ⊆ later.ended) : Patient before now :=
  fun ended member => patient ended (kept member)

theorem Patient.since {before now later : Ledger} (patient : Patient before later)
    (kept : before.ended ⊆ now.ended) : Patient now later :=
  fun ended member new => patient ended member (mt (@kept ended) new)

theorem giveUp_patient (sound : l.Sound) {key : AckKind × UInt16}
    (patient : Patient l (l.giveUp key)) : l.giveUp key = l := by
  unfold giveUp at patient ⊢
  cases found : l.find? key with
  | none => rfl
  | some p =>
    rw [found] at patient
    have waits := (mem_of_find? found).1
    exact absurd rfl (patient.answered sound waits List.mem_cons_self).2

/-- Events settle no more than the answer that was read. -/
theorem tell_patient (sound : l.Sound) {event : Event} (patient : Patient l (l.tell event)) :
    (l.tell event).settled = l.settled ∧ (l.tell event).unheard = l.unheard := by
  unfold tell at patient ⊢
  split
  · exact ⟨rfl, rfl⟩
  next p codes _ held =>
    unfold settled unheard
    rw [held]
    exact ⟨rfl, rfl⟩
  next owed nothing =>
    cases found : l.waiting.find? fun p => (p.verdicts .expired).head? == some event with
    | none => exact ⟨rfl, rfl⟩
    | some p =>
      have waits := List.mem_of_find?_eq_some found
      rw [owed, nothing] at patient
      dsimp only at patient
      rw [found] at patient
      exact absurd rfl (patient.answered sound waits List.mem_cons_self).1

end Ledger

namespace Parley

/-- How a ledger and a broker stand to each other. -/
structure Agrees (l : Ledger) (x : Parley) : Prop where
  heard : x.heard = (Ledger.due l.settled).foldl Roll.after fun _ => none
  leads : x.heard.Leads x.toClient x.roll
  waits : l.unheard.reverse.map Petition.demand = x.toClient.map Answer.demand ++ x.toBroker

variable {l l' : Ledger} {x y : Parley}

theorem fetch_cases {key : AckKind × UInt16} {codes : Bytes}
    (fetched : x.fetch key codes = some y) :
    ∃ a : Answer, x.toClient = a :: y.toClient ∧ a.key = key ∧ a.codes = codes ∧
      y = { x with toClient := y.toClient, heard := a.roll } := by
  unfold fetch at fetched
  split at fetched
  · cases fetched
  next a later next_ =>
    split at fetched
    next same =>
      cases fetched
      exact ⟨a, next_, same.1, same.2, rfl⟩
    · cases fetched

namespace Agrees

theorem of_same (h : Agrees l x) (settled : l'.settled = l.settled)
    (unheard : l'.unheard = l.unheard) : Agrees l' x :=
  ⟨settled ▸ h.heard, h.leads, unheard ▸ h.waits⟩

/-- The broker answers a request. -/
theorem reply (h : Agrees l x) {a : Answer} {later : List Demand}
    (next : x.toBroker = a.demand :: later) (turns : a.Turns x.roll) : Agrees l (x.reply a) := by
  refine ⟨h.heard, h.leads.concat turns, ?_⟩
  rw [h.waits, next]
  simp [Parley.reply, next]

theorem moved (h : Agrees l x) (moved : x.Moved y) : Agrees l y := by
  cases moved with
  | @granted id filters later verdicts next same =>
    refine h.reply next fun p asked => ?_
    cases p
    cases asked
    exact Petition.foldl_granted rfl x.roll same
  | dropped next =>
    refine h.reply next fun p asked => ?_
    cases p
    cases asked
    exact Petition.foldl_dropped rfl x.roll []

/-- A request goes out. -/
theorem make (h : Agrees l x) (sound : l.Sound) (demand : Demand) :
    Agrees (l.make demand.1 demand.2.1 demand.2.2)
      { x with toBroker := x.toBroker ++ [demand] } := by
  obtain ⟨kind, id, filters⟩ := demand
  have more : (l.make kind id filters).unheard = ⟨l.made, kind, id, filters⟩ :: l.unheard := by
    unfold Ledger.unheard
    change Option.elim l.hand _ _ = _
    cases held : l.hand with
    | none => rfl
    | some answer =>
      obtain ⟨p, codes⟩ := answer
      have old := sound.below p (List.mem_append_left _ (sound.hand p codes held))
      refine List.erase_cons_tail fun same => ?_
      have serial : l.made = p.serial := congrArg Petition.serial (beq_iff_eq.1 same)
      omega
  refine ⟨h.heard, h.leads, ?_⟩
  rw [more, List.reverse_cons, List.map_append, h.waits, List.append_assoc]
  rfl

theorem sent {log : List Entry} (h : Agrees (Ledger.read log) x) (a : Transport.Attempt) :
    Agrees (Ledger.read (.sent a :: log))
      { x with toBroker := x.toBroker ++ (Entry.sent a).asks?.toList } := by
  cases asks : (Entry.sent a).asks? with
  | none =>
    have same : Ledger.read (.sent a :: log) = Ledger.read log :=
      (Entry.inert_of_unasked asks).2 _ _
    rw [same, Option.toList_none, List.append_nil]
    exact h
  | some demand =>
    have made : Ledger.read (.sent a :: log) =
        (Ledger.read log).make demand.1 demand.2.1 demand.2.2 := by
      change (Ledger.read log).enter log (.sent a) = _
      unfold Ledger.enter
      rw [asks]
    rw [made]
    exact h.make (Ledger.read_sound log) demand

/-- The next answer is for the request that waits longest. -/
theorem hear (h : Agrees l x) (distinct : (l.waiting.map Petition.id).Nodup)
    (nothing : l.hand = none) {p : Inbound} {key : AckKind × UInt16} {codes : Bytes}
    (verdict : p.verdict? = some (key, codes)) (fetched : x.fetch key codes = some y) :
    Agrees (l.hear p) y := by
  obtain ⟨a, next, own, said, rest⟩ := fetch_cases fetched
  have waits := h.waits
  rw [Ledger.unheard_of_idle nothing, next] at waits
  obtain ⟨q, others, oldest, asked, waits⟩ := List.map_eq_cons_iff.1 waits
  have named : key = q.key := by rw [← own, Answer.key, ← asked]; rfl
  obtain ⟨settled, unheard⟩ := Ledger.hear_oldest distinct oldest (named ▸ verdict)
  have leads := h.leads
  rw [next] at leads
  rw [rest]
  refine ⟨?_, leads.2, ?_⟩
  · have turned : (q.verdicts (.answered a.codes)).foldl Roll.after x.heard = a.roll :=
      leads.1 q asked
    rw [settled, Ledger.due_cons, List.foldl_append, ← Ledger.settled_of_idle nothing, ← h.heard,
      ← said]
    exact turned.symm
  · rw [unheard]
    exact waits

theorem received {log : List Entry} {p : Inbound} (h : Agrees (Ledger.read log) x)
    (follows : x.follow log (.received p) = some y)
    (orderly : Ledger.Orderly (.received p :: log)) :
    Agrees (Ledger.read (.received p :: log)) y := by
  change (if Entry.isFresh log then some x
    else p.verdict?.elim (some x) fun (key, codes) => x.fetch key codes) = some y at follows
  split at follows
  next fresh =>
    cases follows
    have same : Ledger.read (.received p :: log) = Ledger.read log := if_pos fresh
    exact same ▸ h
  next stale =>
    have nothing := orderly.2.2 p rfl (Bool.eq_false_iff.2 stale)
    have read : Ledger.read (.received p :: log) = (Ledger.read log).hear p := if_neg stale
    rw [read]
    cases verdict : p.verdict? with
    | none =>
      rw [verdict] at follows
      cases follows
      have same : (Ledger.read log).hear p = Ledger.read log := by
        rw [Ledger.hear, verdict, Option.bind_none, ← nothing]
      exact same ▸ h
    | some answer =>
      obtain ⟨key, codes⟩ := answer
      rw [verdict] at follows
      exact h.hear orderly.1.nodup nothing verdict follows

theorem raised {log : List Entry} {event : Event} {client : Client} {told : Bool}
    (h : Agrees (Ledger.read log) x)
    (patient : Ledger.Patient (Ledger.read log)
      (Ledger.read (.raised event client told :: log))) :
    Agrees (Ledger.read (.raised event client told :: log)) x := by
  have sound := Ledger.read_sound log
  cases outcome : event.isOutcome with
  | true =>
    rw [Ledger.read_told outcome] at patient ⊢
    obtain ⟨settled, unheard⟩ := Ledger.tell_patient sound patient
    exact h.of_same settled unheard
  | false =>
    cases event with
    | discarded kind id topic =>
      have same : Ledger.read (.raised (.discarded kind id topic) client told :: log) =
        Ledger.read log := Ledger.giveUp_patient sound patient
      exact same ▸ h
    | _ => first | exact h | cases outcome

/-- What a client writes to its log leaves its ledger and the broker in agreement, if no
request expires with it or is given up. -/
theorem follows {log : List Entry} {e : Entry} (h : Agrees (Ledger.read log) x)
    (follows : x.follow log e = some y) (orderly : Ledger.Orderly (e :: log))
    (patient : Ledger.Patient (Ledger.read log) (Ledger.read (e :: log))) :
    Agrees (Ledger.read (e :: log)) y := by
  cases e with
  | sent a =>
    cases follows
    exact h.sent a
  | received p => exact h.received follows orderly
  | raised event client told =>
    cases follows
    exact h.raised patient
  | opened =>
    change (if x.toBroker.isEmpty && x.toClient.isEmpty then some x else none) = some y at follows
    split at follows
    · cases follows
      exact h
    · cases follows
  | _ =>
    cases follows
    exact h

end Agrees

/-! ## All runs -/

namespace Beside

variable {base log : List Entry} {start : Roll}

theorem suffix (beside : Beside base start log x) : base <:+ log := by
  induction beside with
  | start => exact List.suffix_refl base
  | moved _ _ ih => exact ih
  | wrote _ _ ih => exact ih.trans (List.suffix_cons _ _)

/-- A client and a broker that agreed when nothing was under way go on to agree. -/
theorem agrees (beside : Beside base start log x) (rested : (Ledger.read base).waiting = [])
    (began : start = (Ledger.read base).verdicts.foldl Roll.after fun _ => none)
    (orderly : Ledger.Orderly log)
    (patient : Ledger.Patient (Ledger.read base) (Ledger.read log)) :
    Agrees (Ledger.read log) x := by
  induction beside with
  | start =>
    have nothing : (Ledger.read base).hand = none := by
      cases held : (Ledger.read base).hand with
      | none => rfl
      | some answer =>
        have waits := (Ledger.read_sound base).hand answer.1 answer.2 held
        rw [rested] at waits
        cases waits
    refine ⟨?_, rfl, ?_⟩
    · rw [Ledger.settled_of_idle nothing]
      exact began
    · rw [Ledger.unheard_of_idle nothing, rested]
      rfl
  | moved _ moved ih => exact (ih orderly patient).moved moved
  | @wrote log e _ _ before follows ih =>
    have kept : (Ledger.read log).ended ⊆ (Ledger.read (e :: log)).ended :=
      Ledger.ended_later (List.suffix_cons e log)
    exact (ih orderly.1 (patient.earlier kept)).follows follows orderly
      (patient.since (Ledger.ended_later before.suffix))

end Beside

end Parley

section

variable {σ : Type} [Environment σ] {s₀ s : System σ}

/-- The granted filters of a client at rest are what its requests were answered. -/
theorem Reachable.granted (reachable : Reachable s) (here : s.client.place ≠ .exited) :
    s.client.subscriptions.Rolls
      ((Ledger.read s.log).verdicts.foldl Roll.after fun _ => none) := by
  have booked := reachable.kept.booked here
  have told : Entry.outcomes s.log = (Ledger.read s.log).verdicts :=
    (List.append_nil _).symm.trans booked.told
  rw [← told, ← Entry.roll_eq]
  exact reachable.enrolled here

/-- **Agreement about filters.**  Let a client have no request under way and the broker the
client's map of granted filters, as before the first connection.  However requests then
overlap, whatever the broker decides on each of their filters and however its answers
come in between: while no request expires or is given up, each filter that the client has
as granted is granted once, and together they are the map that the broker had when it
sent the last answer that the client read.  With nothing under way that is the map that
the broker has. -/
theorem subscriptions_agree (begun : Reachable s₀) (present : s₀.client.place ≠ .exited)
    (rested : (Ledger.read s₀.log).waiting = []) (reachable : Reachable s)
    (here : s.client.place ≠ .exited) {x : Parley}
    (beside : Parley.Beside s₀.log s₀.client.subscriptions.roll s.log x)
    (patient : Ledger.Patient (Ledger.read s₀.log) (Ledger.read s.log)) :
    (s.client.subscriptions.granted.map Prod.fst).Nodup ∧
      s.client.subscriptions.roll = x.heard ∧
      (x.toBroker = [] → x.toClient = [] → s.client.subscriptions.roll = x.roll) := by
  have booked := reachable.kept.booked here
  have granted := reachable.granted here
  have agrees := beside.agrees rested (begun.granted present).roll booked.orderly patient
  have heard : s.client.subscriptions.roll = x.heard := by
    rw [granted.roll, agrees.heard, Ledger.settled_of_idle booked.hand]
    rfl
  refine ⟨granted.once, heard, fun _ answered => ?_⟩
  have leads := agrees.leads
  rw [answered] at leads
  exact heard.trans leads

end

/-! ## A prompt broker -/

namespace Parley

/-- The parley once the broker answered the oldest request by a choice for each filter. -/
def serve? (choose : UInt16 → String × Qos → Option Qos) (x : Parley) : Option Parley :=
  match x.toBroker with
  | (.subAck, id, filters) :: _ =>
    let verdicts := filters.map (choose id)
    some (x.reply
      ⟨(.subAck, id, filters), verdicts.map Qos.code, x.roll.grant (filters.zip verdicts)⟩)
  | (.unsubAck, id, filters) :: _ =>
    some (x.reply ⟨(.unsubAck, id, filters), [], x.roll.drop filters⟩)
  | _ => none

/-- The parley once the broker answered so many requests. -/
def settle (choose : UInt16 → String × Qos → Option Qos) : Nat → Parley → Parley
  | 0, x => x
  | count + 1, x => (x.serve? choose).elim x (settle choose count)

/-- The parley with a broker that answers at once, if a client may write a log next to it. -/
def prompt (choose : UInt16 → String × Qos → Option Qos) : List Entry → Option Parley
  | [] => some { roll := fun _ => none, heard := fun _ => none }
  | e :: log =>
    (prompt choose log).bind fun x =>
      (x.follow log e).map fun y => y.settle choose y.toBroker.length

variable {choose : UInt16 → String × Qos → Option Qos} {x y : Parley}

theorem moved_of_serve? (served : x.serve? choose = some y) : x.Moved y := by
  unfold serve? at served
  split at served
  next id filters later next =>
    cases served
    exact .granted x (filters.map (choose id)) next (List.length_map _).symm
  next id filters later next =>
    cases served
    exact .dropped x next
  · cases served

theorem Beside.settle {base log : List Entry} {start : Roll} (beside : Beside base start log x)
    (count : Nat) : Beside base start log (x.settle choose count) := by
  induction count generalizing x with
  | zero => exact beside
  | succ count ih =>
    unfold Parley.settle
    cases served : x.serve? choose with
    | none => exact beside
    | some y => exact ih (.moved beside (moved_of_serve? served))

theorem beside_of_prompt {log : List Entry} (answered : prompt choose log = some x) :
    Beside [] (fun _ => none) log x := by
  induction log generalizing x with
  | nil =>
    cases answered
    exact .start
  | cons e log ih =>
    obtain ⟨y, before, after⟩ := Option.bind_eq_some_iff.1 answered
    obtain ⟨z, follows, rfl⟩ := Option.map_eq_some_iff.1 after
    exact Beside.settle (.wrote (ih before) follows) _

end Parley

/-- A client that asked for one filter twice in one request and for another, and to drop the
first, with both requests under way, and read both answers. -/
def agreed : System Script :=
  inSession.takes
    [.call (.subscribeAll [("a/b", .exactlyOnce), ("a/b", .atMostOnce), ("c", .atLeastOnce)]),
      .call (.unsubscribe "a/b"), .heard (.ok [0x90, 5]) 0, .heard (.ok [0, 1, 2, 0x80, 1]) 0,
      .turn, .heard (.ok [0xB0, 2]) 0, .heard (.ok [0, 2]) 0]

/-- It agrees with a broker that grants what is asked for, but no filter at the lowest
guarantee. -/
theorem subscriptions_agree_agreed :
    agreed.client.subscriptions.granted = [("c", .atLeastOnce)] ∧
      ∃ x, Parley.Beside [] (fun _ => none) agreed.log x ∧ x.toBroker = [] ∧ x.toClient = [] ∧
        agreed.client.subscriptions.roll = x.roll := by
  let choose (_ : UInt16) (filter : String × Qos) : Option Qos :=
    if filter.2 = .atMostOnce then none else some filter.2
  have granted : agreed.client.subscriptions.granted = [("c", .atLeastOnce)] := by decide +kernel
  have played : (Parley.prompt choose agreed.log).map
      (fun x => (x.toBroker.length, x.toClient.length)) = some (0, 0) := by decide +kernel
  obtain ⟨x, answered, same⟩ := Option.map_eq_some_iff.1 played
  have beside := Parley.beside_of_prompt answered
  have idle : x.toBroker = [] := List.length_eq_zero_iff.1 (congrArg Prod.fst same)
  have silent : x.toClient = [] := List.length_eq_zero_iff.1 (congrArg Prod.snd same)
  have made : Client.create { host := "broker", clientId := "dev" } = .ok (Client.fresh _) := rfl
  have begun : Reachable (σ := Script) ⟨Client.fresh _, {}, []⟩ := .created _ made
  have reachable : Reachable agreed := inSession_reachable.takes _
  have agree := subscriptions_agree begun Place.noConfusion rfl reachable (by decide +kernel)
    beside (by decide +kernel)
  exact ⟨granted, x, beside, idle, silent, agree.2.2 idle silent⟩

end Mqtt
