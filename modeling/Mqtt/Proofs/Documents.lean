import Mqtt.Proofs.Reader

/-!
# Settings and the documents that give them

A setting stands under one name, so settings are known by what stands under each name
(`Config.get`, `Config.ext_get`), and to set those that are not as by default makes them what they
are (`Config.get_setAll`).  By the laws of readers a document gives what its entries set, one after
the other (`Document.Lawful.spell`), so what is read from it does not depend on its layout
(`Config.ofJson_spell`).
-/

namespace Mqtt.Config

open Document

variable {c d : Config} {f : Field} {s : Setting} {settings : List Setting}
  {reader : String → Option Given}

/-! ## Settings by name -/

/-- To replace a setting changes what stands under its name and nothing else. -/
theorem get_set (c : Config) (s : Setting) (f : Field) :
    (c.set s).get f = if s.field = f then s else c.get f := by
  cases s <;> cases f <;> rfl

/-- Settings with the same under each name are the same. -/
theorem ext_get (same : ∀ f, c.get f = d.get f) : c = d := by
  cases c
  cases d
  rw [Config.mk.injEq]
  exact ⟨Setting.host.inj (same .host), Setting.tcpPort.inj (same .tcpPort),
    Setting.clientId.inj (same .clientId), Setting.username.inj (same .username),
    Setting.password.inj (same .password), Setting.keepAlive.inj (same .keepAlive),
    Setting.cleanSession.inj (same .cleanSession), Setting.autoReconnect.inj (same .autoReconnect),
    Setting.commandTimeout.inj (same .commandTimeout), Setting.readTimeout.inj (same .readTimeout),
    Setting.connectTimeout.inj (same .connectTimeout),
    Setting.reconnectInterval.inj (same .reconnectInterval),
    Setting.ackTimeout.inj (same .ackTimeout), Setting.pendingWarning.inj (same .pendingWarning),
    Setting.retryWarning.inj (same .retryWarning), Setting.maxPacketSize.inj (same .maxPacketSize)⟩

/-- Where all that is set agrees with some settings, so does what stands under a name that is set
or agreed before. -/
theorem get_setAll (agree : ∀ s ∈ settings, c.get s.field = s)
    (known : d.get f = c.get f ∨ ∃ s ∈ settings, s.field = f) :
    (d.setAll settings).get f = c.get f := by
  induction settings generalizing d with
  | nil =>
    rcases known with same | ⟨s, member, -⟩
    · exact same
    · cases member
  | cons s settings ih =>
    rw [List.forall_mem_cons] at agree
    apply ih agree.2
    rw [get_set]
    by_cases here : s.field = f
    · rw [if_pos here, ← here]
      exact Or.inl agree.1.symm
    · rw [if_neg here]
      rcases known with same | ⟨s', member, there⟩
      · exact Or.inl same
      · rcases List.mem_cons.1 member with rfl | member
        · exact absurd there here
        · exact Or.inr ⟨s', member, there⟩

/-! ## What a document gives -/

theorem ofGiven_set (g : Given) (s : Setting) : ofGiven (g.set s) = (ofGiven g).set s := by
  cases s <;> rfl

/-- To set what is given one after the other is to replace settings in turn, the last first. -/
theorem ofGiven_foldr (settings : List Setting) :
    ofGiven (settings.foldr (fun s g => g.set s) {}) = setAll {} settings.reverse := by
  rw [setAll, List.foldl_reverse]
  induction settings with
  | nil => rfl
  | cons s settings ih => rw [List.foldr_cons, ofGiven_set, ih, List.foldr_cons]

/-- What sets nothing is written as `null`, and is as by default. -/
theorem get_of_null (null : (c.get f).given? = none) :
    (c.get f).spell = "null".toList ∧ c.get f = get {} f := by
  cases f with
  | username =>
    cases name : c.username with
    | none => exact ⟨by rw [get, name]; rfl, congrArg Setting.username name⟩
    | some => rw [get, name] at null; cases null
  | password =>
    cases word : c.password with
    | none => exact ⟨by rw [get, word]; rfl, congrArg Setting.password word⟩
    | some => rw [get, word] at null; cases null
  | _ => cases null

theorem eq_of_given? {s' : Setting} (given : s.given? = some s') : s' = s := by
  unfold Setting.given? at given
  split at given
  · cases given
  · cases given
  · exact (Option.some.inj given).symm

namespace Document

theorem spell_bare_null (null : (c.get f).given? = none) (rest : List Content) :
    (Layout.bare (.given f :: rest)).spell c = (Layout.bare (.null f :: rest)).spell c := by
  simp only [Layout.bare, Layout.spell, List.map_cons, Item.spell, Content.key, Content.value,
    (get_of_null null).1]

/-- Without anything between its tokens a document gives what its entries set. -/
theorem Lawful.spell_bare (lawful : Lawful reader) (legible : c.Legible) {contents : List Content}
    (once : Once contents) :
    reader ((Layout.bare contents).spell c) =
      some ((contents.filterMap (Content.set? c)).foldr (fun s g => g.set s) {}) := by
  induction contents with
  | nil => exact lawful.empty
  | cons content rest ih =>
    have others := ih (once_of_cons once)
    cases content with
    | given f =>
      cases sets : (c.get f).given? with
      | none =>
        have nothing : Content.set? c (.given f) = none := sets
        rw [spell_bare_null sets, lawful.null legible once, others,
          List.filterMap_cons_none nothing]
      | some s =>
        have one : Content.set? c (.given f) = some s := sets
        rw [lawful.given legible once sets, others, List.filterMap_cons_some one]
        rfl
    | null f =>
      have nothing : Content.set? c (.null f) = none := rfl
      rw [lawful.null legible once, others, List.filterMap_cons_none nothing]
    | extra key value enclosed unknown formed =>
      have nothing : Content.set? c (.extra key value enclosed unknown formed) = none := rfl
      rw [lawful.extra enclosed unknown formed legible (once_of_cons once), others,
        List.filterMap_cons_none nothing]

/-- A document gives what its entries set. -/
theorem Lawful.spell (lawful : Lawful reader) (legible : c.Legible) {l : Layout}
    (once : Once l.contents) :
    reader (l.spell c) =
      some ((l.contents.filterMap (Content.set? c)).foldr (fun s g => g.set s) {}) := by
  rw [lawful.spaced legible once (contents_bare l.contents).symm]
  exact lawful.spell_bare legible once

/-- Whether a document gives settings: no setting is named twice, and those that are not given
are the default ones. -/
structure Layout.Gives (l : Layout) (c : Config) : Prop where
  once : Once l.contents
  default : ∀ f, .given f ∉ l.contents → c.get f = get {} f

/-- A document sets all that is not as by default. -/
theorem Layout.Gives.setAll {l : Layout} (gives : l.Gives c) :
    Config.setAll {} (l.contents.filterMap (Content.set? c)).reverse = c := by
  apply ext_get
  intro f
  apply get_setAll
  · intro s member
    obtain ⟨content, -, sets⟩ := List.mem_filterMap.1 (List.mem_reverse.1 member)
    cases content with
    | given f =>
      rw [eq_of_given? sets, field_get]
    | null | extra => cases sets
  · by_cases said : .given f ∈ l.contents
    · cases written : (c.get f).given? with
      | none => exact Or.inl (get_of_null written).2.symm
      | some s =>
        refine Or.inr ⟨s, List.mem_reverse.2 (List.mem_filterMap.2 ⟨_, said, written⟩), ?_⟩
        rw [eq_of_given? written, field_get]
    · exact Or.inl (gives.default f said).symm

end Document

/-- **Settings as documents.**  By a lawful reader sound and legible settings are read from each of
their documents: in any order, without any that are the default ones, with any characters between
tokens, and with any unknown keys, whatever their values.  Whatever is read from a text, by
whatever reader, is sound. -/
theorem ofJson_spell :
    (∀ {reader : String → Option Given}, Lawful reader → ∀ (c : Config) (l : Layout),
      c.validate = .ok () → c.Legible → l.Gives c → ofJson reader (l.spell c) = .ok c) ∧
    ∀ (reader : String → Option Given) (document : String) (c : Config),
      ofJson reader document = .ok c → c.validate = .ok () := by
  constructor
  · intro reader lawful c l valid legible gives
    unfold ofJson
    rw [lawful.spell legible gives.once]
    dsimp only
    rw [ofGiven_foldr, gives.setAll, valid]
  · intro reader document c read
    unfold ofJson at read
    split at read
    · cases read
    · dsimp only at read
      split at read
      · cases read
      next valid =>
        cases read
        exact valid

/-- One space between tokens. -/
def space : Gap :=
  ⟨[' '], List.all_eq_true.1 rfl⟩

/-- One end of a line between tokens. -/
def lineEnd : Gap :=
  ⟨['\n'], List.all_eq_true.1 rfl⟩

/-- Settings some of which are not the default ones. -/
def sample : Config :=
  { host := "b", username := some "u", keepAlive := 0 }

/-- A document with settings out of their order and with a key whose value looks like more of
them. -/
def sampleLayout : Layout where
  items := [
    { content := .given .keepAlive, spacing := { beforeValue := space, after := lineEnd } },
    { content := .extra "x".toList _ (Unescaped.enclosed (by decide)) (by decide)
        (.list (.elements tight space
          (.text (t := ['}', '\\', '"', ','])
            (.plain (by decide) (by decide)
              (.escaped (.plain (by decide) (by decide) .nil))))
          (.element space tight (.object (.entry {} (v := ['-', '1'])
            (Unescaped.enclosed (s := "host") (by decide))
            (.plain (by decide) (List.all_eq_true.1 rfl))))))),
      spacing := { before := space } },
    { content := .given .username },
    { content := .null .tcpPort },
    { content := .given .host }]
  inside := space
  after := lineEnd

theorem legible_sample : sample.Legible := by
  intro f
  cases f <;> decide

theorem sampleLayout_gives : sampleLayout.Gives sample where
  once := by unfold Once; decide
  default f absent := by
    cases f with
    | keepAlive => exact absurd (.head _) absent
    | username => exact absurd (.tail _ (.tail _ (.head _))) absent
    | host => exact absurd (.tail _ (.tail _ (.tail _ (.tail _ (.head _))))) absent
    | _ => rfl

theorem ofJson_spell_sample :
    sampleLayout.spell sample =
      "\x7b\"keep_alive_secs\": 0\n, \"x\":[\"\x7d\\\",\" , \x7b\"host\":-1\x7d]," ++
        "\"username\":\"u\",\"port\":null,\"host\":\"b\" \x7d\n" ∧
      Lawful Json.given? ∧ ofJson Json.given? (sampleLayout.spell sample) = .ok sample ∧
      sample.validate = .ok () := by
  have lawful := given?_lawful
  have read : ofJson Json.given? (sampleLayout.spell sample) = .ok sample :=
    ofJson_spell.1 lawful sample sampleLayout rfl legible_sample sampleLayout_gives
  exact ⟨by decide, lawful, read, ofJson_spell.2 _ _ _ read⟩

end Mqtt.Config
