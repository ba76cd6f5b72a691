import Mathlib.Data.List.Nodup
import Mqtt.Proofs.Moves

/-!
# Requests about filters, as a log tells of them

The log alone says which requests about filters were made and how they ended
(`Ledger.read`).  A request waits from the packet that makes it to the first event that
says what became of a filter, or to the event that the application gave it up; the other
events of its filters are owed from then on.  No request is lost and none ends twice
(`Ledger.Grows`).
-/

namespace Mqtt

/-- A request about filters, as its packet says. -/
structure Petition where
  /-- The number of requests made before. -/
  serial : Nat
  /-- What answers it. -/
  kind : AckKind
  id : UInt16
  filters : List (String × Qos)
  deriving DecidableEq

/-- How a request about filters ended. -/
inductive Ending where
  /-- An UNSUBACK has no codes. -/
  | answered (codes : Bytes)
  | expired
  | discarded
  deriving DecidableEq

namespace Petition

/-- What an answer to a request has to name. -/
def key (p : Petition) : AckKind × UInt16 :=
  (p.kind, p.id)

/-- The entries of a request in the list of filters. -/
def entries (p : Petition) : List Subject :=
  p.filters.map fun (topic, qos) => .asked topic qos p.id

/-- The event that a filter of a request failed. -/
def failure (p : Petition) (topic : String) : Event :=
  if p.kind = .subAck then .subscribeFailed topic p.id else .unsubscribeFailed topic p.id

/-- The event that a code calls for. -/
def verdict (p : Petition) (topic : String) (code : UInt8) : Event :=
  match Qos.ofByte? code with
  | none => .subscribeFailed topic p.id
  | some qos => .subscribed topic qos p.id

/-- The events that an ending calls for, one for each filter unless the application gave
the request up. -/
def verdicts (p : Petition) : Ending → List Event
  | .discarded => []
  | .expired => p.filters.map fun filter => p.failure filter.1
  | .answered codes =>
    if p.kind = .subAck then
      if p.filters.length = codes.length then
        (p.filters.zip codes).map fun (filter, code) => p.verdict filter.1 code
      else p.filters.map fun filter => .subscribeFailed filter.1 p.id
    else p.filters.map fun filter => .unsubscribed filter.1 p.id

end Petition

/-! ## Entries -/

namespace Inbound

/-- The request about filters that a packet makes: what answers it, its identifier and its
filters. -/
def asks? (p : Inbound) : Option (AckKind × UInt16 × List (String × Qos)) :=
  match p.kind with
  | .subscribe =>
    (Packet.Subscribe.decode p.body).toOption.map fun s => (.subAck, s.packetId, s.filters)
  | .unsubscribe =>
    (Packet.Unsubscribe.decode p.body).toOption.map fun u =>
      (.unsubAck, u.packetId, u.filters.map fun filter => (filter, .atMostOnce))
  | _ => none

/-- What a packet answers if it answers a request about filters, with its codes. -/
def verdict? (p : Inbound) : Option ((AckKind × UInt16) × Bytes) :=
  match p.kind with
  | .subAck =>
    (Packet.SubAck.decode p.body).toOption.map fun a => ((.subAck, a.packetId), a.codes)
  | .unsubAck => (Packet.decodeAck p.body).toOption.map fun id => ((.unsubAck, id), [])
  | _ => none

end Inbound

namespace Entry

/-- The request about filters that goes out with an entry, the entry being the offer that
completes the packet. -/
def asks? : Entry → Option (AckKind × UInt16 × List (String × Qos))
  | .sent a => if a.completes then (Packet.parse? a.whole).bind Inbound.asks? else none
  | _ => none

/-- The event of an entry that says what became of a filter. -/
def outcome? : Entry → Option Event
  | .raised e _ _ => if e.isOutcome then some e else none
  | _ => none

/-- The events of a log that say what became of filters, the first one first. -/
def outcomes : List Entry → List Event
  | [] => []
  | e :: earlier => outcomes earlier ++ e.outcome?.toList

theorem outcomes_told {event : Event} (outcome : event.isOutcome = true) {client : Client}
    {told : Bool} {log : List Entry} :
    outcomes (.raised event client told :: log) = outcomes log ++ [event] := by
  rw [outcomes, outcome?, if_pos outcome]
  rfl

end Entry

/-! ## The ledger -/

/-- What a log tells of requests about filters. -/
structure Ledger where
  /-- How many requests were made. -/
  made : Nat := 0
  /-- The requests that wait, the latest first. -/
  waiting : List Petition := []
  /-- The requests that ended and how, the latest first. -/
  ended : List (Petition × Ending) := []
  /-- The request that waits whose answer was read last, with the codes of the answer. -/
  hand : Option (Petition × Bytes) := none
  /-- The events that are still owed to a request that ended, the first one first. -/
  owed : List Event := []
  deriving DecidableEq

namespace Ledger

variable (l : Ledger)

/-- The request that waits for an answer. -/
def find? (key : AckKind × UInt16) : Option Petition :=
  l.waiting.find? (·.key == key)

def make (kind : AckKind) (id : UInt16) (filters : List (String × Qos)) : Ledger :=
  { l with made := l.made + 1, waiting := ⟨l.made, kind, id, filters⟩ :: l.waiting }

def close (p : Petition) (ending : Ending) : Ledger :=
  { l with waiting := l.waiting.erase p, ended := (p, ending) :: l.ended }

/-- A packet is read. -/
def hear (p : Inbound) : Ledger :=
  { l with hand := p.verdict?.bind fun (key, codes) => (l.find? key).map (·, codes) }

/-- The application gives up the request that waits for an answer. -/
def giveUp (key : AckKind × UInt16) : Ledger :=
  match l.find? key with
  | none => l
  | some p => { l.close p .discarded with hand := l.hand.filter (·.1 != p) }

/-- A request ends with the first of the events that its ending calls for. -/
def conclude (p : Petition) (ending : Ending) : Ledger :=
  { l.close p ending with hand := none, owed := (p.verdicts ending).tail }

/-- An event says what became of a filter: it is owed, or else a request ends with it, the
one whose answer was read or else one that it says has failed. -/
def tell (e : Event) : Ledger :=
  match l.owed, l.hand with
  | _ :: rest, _ => { l with owed := rest }
  | [], some (p, codes) => l.conclude p (.answered codes)
  | [], none =>
    match l.waiting.find? fun p => (p.verdicts .expired).head? == some e with
    | none => l
    | some p => l.conclude p .expired

/-- The ledger with an entry more, after others. -/
def enter (earlier : List Entry) (e : Entry) : Ledger :=
  match e.asks? with
  | some (kind, id, filters) => l.make kind id filters
  | none =>
    match e with
    | .received p => if Entry.isFresh earlier then l else l.hear p
    | .raised (.discarded kind id _) _ _ => l.giveUp (kind, id)
    | _ => e.outcome?.elim l l.tell

/-- What a log tells of requests about filters. -/
def read : List Entry → Ledger
  | [] => {}
  | e :: earlier => (read earlier).enter earlier e

/-- The events that some endings, the latest first, call for in turn. -/
def due (ended : List (Petition × Ending)) : List Event :=
  ended.reverse.flatMap fun (p, ending) => p.verdicts ending

/-- The events that all endings together call for, the first one first. -/
def verdicts : List Event :=
  due l.ended

end Ledger

namespace Ledger

/-! ## What an entry does to a ledger -/

/-- What an entry can do to the requests: nothing, or one is made, or one that waits
ends. -/
inductive Grows (l l' : Ledger) : Prop
  | kept : l'.made = l.made → l'.waiting = l.waiting → l'.ended = l.ended → Grows l l'
  | made {kind : AckKind} {id : UInt16} {filters : List (String × Qos)} :
    l'.made = l.made + 1 → l'.waiting = ⟨l.made, kind, id, filters⟩ :: l.waiting →
    l'.ended = l.ended → Grows l l'
  | closed {p : Petition} {ending : Ending} : p ∈ l.waiting → l'.made = l.made →
    l'.waiting = l.waiting.erase p → l'.ended = (p, ending) :: l.ended → Grows l l'

/-- What always holds of a ledger. -/
structure Sound (l : Ledger) : Prop where
  /-- Only of a request that waits an answer is in hand. -/
  hand : ∀ p codes, l.hand = some (p, codes) → p ∈ l.waiting
  below : ∀ p ∈ l.waiting ++ l.ended.map Prod.fst, p.serial < l.made
  once : ((l.waiting ++ l.ended.map Prod.fst).map Petition.serial).Nodup

variable {l l' : Ledger} {log log' earlier : List Entry} {e : Entry} {p : Petition}

theorem mem_of_find? {key : AckKind × UInt16} (found : l.find? key = some p) :
    p ∈ l.waiting ∧ p.key = key :=
  ⟨List.mem_of_find?_eq_some found, by simpa using List.find?_some found⟩

/-- Of requests under identifiers of their own each is the one that its answer is for. -/
theorem find?_key (distinct : (l.waiting.map Petition.id).Nodup) (waits : p ∈ l.waiting) :
    l.find? p.key = some p := by
  have some_ : (l.find? p.key).isSome := List.find?_isSome.2 ⟨p, waits, beq_self_eq_true p.key⟩
  obtain ⟨q, found⟩ := Option.isSome_iff_exists.1 some_
  obtain ⟨among, same⟩ := mem_of_find? found
  have one : q = p := List.inj_on_of_nodup_map distinct among waits (congrArg Prod.snd same)
  exact one ▸ found

theorem due_append (newer older : List (Petition × Ending)) :
    due (newer ++ older) = due older ++ due newer := by
  rw [due, List.reverse_append, List.flatMap_append]
  rfl

theorem due_cons (p : Petition) (ending : Ending) (older : List (Petition × Ending)) :
    due ((p, ending) :: older) = due older ++ p.verdicts ending :=
  (due_append [(p, ending)] older).trans (congrArg _ (List.append_nil _))

theorem verdicts_close (l : Ledger) (p : Petition) (ending : Ending) :
    (l.close p ending).verdicts = l.verdicts ++ p.verdicts ending :=
  due_cons p ending l.ended

/-- What an entry does to a ledger. -/
inductive Entered (earlier : List Entry) (l : Ledger) : Entry → Ledger → Prop
  | made {e : Entry} {kind : AckKind} {id : UInt16} {filters : List (String × Qos)} :
    e.asks? = some (kind, id, filters) → Entered earlier l e (l.make kind id filters)
  | heard {p : Inbound} : Entry.isFresh earlier = false →
    Entered earlier l (.received p) (l.hear p)
  | gaveUp {kind : AckKind} {id : UInt16} {topic : String} {client : Client} {told : Bool} :
    Entered earlier l (.raised (.discarded kind id topic) client told) (l.giveUp (kind, id))
  | told {e : Entry} {event : Event} : e.outcome? = some event →
    Entered earlier l e (l.tell event)
  | idle {e : Entry} : Entered earlier l e l

theorem entered (earlier : List Entry) (l : Ledger) (e : Entry) :
    Entered earlier l e (l.enter earlier e) := by
  unfold enter
  split
  next asks => exact .made asks
  · split
    · split
      · exact .idle
      next stale => exact .heard (Bool.eq_false_iff.2 stale)
    · exact .gaveUp
    · cases outcome : e.outcome? with
      | none => exact .idle
      | some event => exact .told outcome

theorem grows_giveUp (l : Ledger) (key : AckKind × UInt16) : Grows l (l.giveUp key) := by
  unfold giveUp
  cases found : l.find? key with
  | none => exact .kept rfl rfl rfl
  | some p => exact .closed (mem_of_find? found).1 rfl rfl rfl

theorem grows_tell (sound : l.Sound) (event : Event) : Grows l (l.tell event) := by
  unfold tell
  split
  · exact .kept rfl rfl rfl
  next p codes _ held => exact .closed (sound.hand p codes held) rfl rfl rfl
  · split
    · exact .kept rfl rfl rfl
    next p found => exact .closed (List.mem_of_find?_eq_some found) rfl rfl rfl

theorem Entered.grows (entered : Entered earlier l e l') (sound : l.Sound) : Grows l l' := by
  cases entered with
  | made => exact .made rfl rfl rfl
  | heard | idle => exact .kept rfl rfl rfl
  | gaveUp => exact grows_giveUp l _
  | told => exact grows_tell sound _

theorem hand_giveUp (sound : l.Sound) (key : AckKind × UInt16) {codes : Bytes}
    (held : (l.giveUp key).hand = some (p, codes)) : p ∈ (l.giveUp key).waiting := by
  unfold giveUp at held ⊢
  split at held
  · exact sound.hand p codes held
  · obtain ⟨held, apart⟩ := Option.filter_eq_some_iff.1 held
    exact (List.mem_erase_of_ne (by simpa using apart)).2 (sound.hand p codes held)

theorem hand_tell (sound : l.Sound) (event : Event) {codes : Bytes}
    (held : (l.tell event).hand = some (p, codes)) : p ∈ (l.tell event).waiting := by
  unfold tell at held ⊢
  split at held
  · exact sound.hand p codes held
  · cases held
  next nothing =>
    split at held
    · cases nothing.symm.trans held
    · cases held

theorem Entered.hand (entered : Entered earlier l e l') (sound : l.Sound) {codes : Bytes}
    (held : l'.hand = some (p, codes)) : p ∈ l'.waiting := by
  cases entered with
  | made => exact List.mem_cons_of_mem _ (sound.hand p codes held)
  | @heard q =>
    obtain ⟨⟨key, codes'⟩, -, found⟩ := Option.bind_eq_some_iff.1 held
    obtain ⟨q, waits, same⟩ := Option.map_eq_some_iff.1 found
    cases same
    exact (mem_of_find? waits).1
  | gaveUp => exact hand_giveUp sound _ held
  | told => exact hand_tell sound _ held
  | idle => exact sound.hand p codes held

namespace Grows

/-- The requests that there are, whether they wait or have ended. -/
theorem perm (grows : Grows l l') :
    l'.made = l.made ∧ (l'.waiting ++ l'.ended.map Prod.fst).Perm
      (l.waiting ++ l.ended.map Prod.fst) ∨
    ∃ p : Petition, p.serial = l.made ∧ l'.made = l.made + 1 ∧
      l'.waiting ++ l'.ended.map Prod.fst = p :: (l.waiting ++ l.ended.map Prod.fst) := by
  cases grows with
  | kept made waiting ended => exact Or.inl ⟨made, by rw [waiting, ended]⟩
  | made made waiting ended => exact Or.inr ⟨_, rfl, made, by rw [waiting, ended]; rfl⟩
  | @closed p ending member made waiting ended =>
    refine Or.inl ⟨made, ?_⟩
    rw [waiting, ended, List.map_cons]
    exact List.perm_middle.trans ((List.perm_cons_erase member).symm.append_right _)

theorem below (grows : Grows l l') (sound : l.Sound) :
    ∀ p ∈ l'.waiting ++ l'.ended.map Prod.fst, p.serial < l'.made := by
  intro p member
  rcases grows.perm with ⟨made, same⟩ | ⟨new, serial, made, all⟩
  · rw [made]
    exact sound.below p (same.mem_iff.1 member)
  · rw [all] at member
    rcases List.mem_cons.1 member with rfl | old
    · omega
    · have := sound.below p old
      omega

theorem once (grows : Grows l l') (sound : l.Sound) :
    ((l'.waiting ++ l'.ended.map Prod.fst).map Petition.serial).Nodup := by
  rcases grows.perm with ⟨-, same⟩ | ⟨new, serial, -, all⟩
  · exact (same.map _).nodup_iff.2 sound.once
  · rw [all, List.map_cons, List.nodup_cons]
    refine ⟨fun member => ?_, sound.once⟩
    obtain ⟨p, old, same⟩ := List.mem_map.1 member
    have := sound.below p old
    omega

theorem ended_suffix (grows : Grows l l') : l.ended <:+ l'.ended := by
  cases grows with
  | kept _ _ ended | made _ _ ended => exact ended ▸ List.suffix_refl _
  | closed _ _ _ ended => exact ended ▸ List.suffix_cons _ _

/-- A request that waits goes on to wait until it ends. -/
theorem waits_or_ended (grows : Grows l l') (waits : p ∈ l.waiting) :
    p ∈ l'.waiting ∨ ∃ ending, (p, ending) ∈ l'.ended := by
  cases grows with
  | kept _ waiting => exact Or.inl (waiting ▸ waits)
  | made _ waiting => exact Or.inl (waiting ▸ List.mem_cons_of_mem _ waits)
  | @closed q ending _ _ waiting ended =>
    by_cases same : p = q
    · subst same
      exact Or.inr ⟨ending, ended ▸ List.mem_cons_self⟩
    · exact Or.inl (waiting ▸ (List.mem_erase_of_ne same).2 waits)

end Grows

theorem read_told {event : Event} (outcome : event.isOutcome = true) (client : Client)
    (told : Bool) (log : List Entry) :
    read (.raised event client told :: log) = (read log).tell event := by
  cases event <;> first | rfl | cases outcome

theorem read_sound (log : List Entry) : (read log).Sound := by
  induction log with
  | nil =>
    exact ⟨fun _ _ none => (by cases none), fun _ none => (by cases none), List.nodup_nil⟩
  | cons e earlier ih =>
    have entered := entered earlier (read earlier) e
    have grows := entered.grows ih
    exact ⟨fun _ _ => entered.hand ih, grows.below ih, grows.once ih⟩

theorem read_grows (e : Entry) (log : List Entry) : Grows (read log) (read (e :: log)) :=
  (entered log (read log) e).grows (read_sound log)

/-! ## Logs in order -/

/-- Whether no two requests ever waited under one identifier, and no packet of a session was
read with an answer still in hand. -/
def Orderly : List Entry → Prop
  | [] => True
  | e :: earlier => Orderly earlier ∧ ((read (e :: earlier)).waiting.map Petition.id).Nodup ∧
      ∀ p, e = .received p → Entry.isFresh earlier = false → (read earlier).hand = none

theorem Orderly.nodup (h : Orderly log) : ((read log).waiting.map Petition.id).Nodup := by
  cases log with
  | nil => exact List.nodup_nil
  | cons e earlier => exact h.2.1

theorem Orderly.of_suffix (h : Orderly log') (earlier : log <:+ log') : Orderly log := by
  obtain ⟨new, rfl⟩ := earlier
  induction new with
  | nil => exact h
  | cons e new ih => exact ih h.1

/-- What is asked for is a new request. -/
theorem Orderly.ne_of_asks (h : Orderly (e :: log)) {kind : AckKind} {id : UInt16}
    {filters : List (String × Qos)} (asks : e.asks? = some (kind, id, filters)) :
    ∀ p ∈ (read log).waiting, p.id ≠ id := by
  have made : read (e :: log) = (read log).make kind id filters := by
    change (read log).enter log e = _
    unfold enter
    rw [asks]
  have once := h.nodup
  rw [made] at once
  intro p waits same
  exact (List.nodup_cons.1 once).1 (List.mem_map.2 ⟨p, waits, same⟩)

/-! ## What a ledger says for good -/

/-- A request that waited waits still or has ended. -/
theorem waits_later (later : log <:+ log') (waits : p ∈ (read log).waiting) :
    p ∈ (read log').waiting ∨ ∃ ending, (p, ending) ∈ (read log').ended := by
  obtain ⟨new, rfl⟩ := later
  induction new with
  | nil => exact Or.inl waits
  | cons e new ih =>
    have grows := read_grows e (new ++ log)
    rcases ih with waits | ⟨ending, ended⟩
    · exact grows.waits_or_ended waits
    · exact Or.inr ⟨ending, grows.ended_suffix.subset ended⟩

/-- Requests end one after the other. -/
theorem ended_suffix (later : log <:+ log') : (read log).ended <:+ (read log').ended := by
  obtain ⟨new, rfl⟩ := later
  induction new with
  | nil => exact List.suffix_refl _
  | cons e new ih => exact ih.trans (read_grows e (new ++ log)).ended_suffix

/-- A request that ended has ended for good. -/
theorem ended_later (later : log <:+ log') : (read log).ended ⊆ (read log').ended :=
  (ended_suffix later).subset

namespace Sound

/-- A request that waits has not ended. -/
theorem not_ended (sound : l.Sound) (waits : p ∈ l.waiting) (ending : Ending) :
    (p, ending) ∉ l.ended := by
  intro ended
  have once := sound.once
  rw [List.map_append, List.nodup_append] at once
  exact once.2.2 _ (List.mem_map_of_mem waits) _
    (List.mem_map_of_mem (List.mem_map_of_mem ended)) rfl

/-- No request ends twice. -/
theorem nodup_ended (sound : l.Sound) : l.ended.Nodup :=
  ((List.nodup_append.1 (List.map_append ▸ sound.once)).2.1.of_map _).of_map _

end Sound

end Ledger

end Mqtt
