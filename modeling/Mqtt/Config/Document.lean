import Mqtt.Config

/-!
# Documents of settings

Settings are written as one JSON object, with one entry for each setting that is not
left out.  `Document.Formed` is the grammar of JSON values with the characters between
their tokens, and a `Document.Layout` is all that is free in a document of given
settings.  The reader of documents is no part of the client: `Document.Lawful` is what
is relied on of it.
-/

namespace Mqtt.Config

/-! ## Settings as they are written -/

/-- The name of a setting. -/
def Setting.field : Setting → Field
  | .host _ => .host
  | .tcpPort _ => .tcpPort
  | .clientId _ => .clientId
  | .username _ => .username
  | .password _ => .password
  | .keepAlive _ => .keepAlive
  | .cleanSession _ => .cleanSession
  | .autoReconnect _ => .autoReconnect
  | .commandTimeout _ => .commandTimeout
  | .readTimeout _ => .readTimeout
  | .connectTimeout _ => .connectTimeout
  | .reconnectInterval _ => .reconnectInterval
  | .ackTimeout _ => .ackTimeout
  | .pendingWarning _ => .pendingWarning
  | .retryWarning _ => .retryWarning
  | .maxPacketSize _ => .maxPacketSize

/-- The setting under a name. -/
def get (c : Config) : Field → Setting
  | .host => .host c.host
  | .tcpPort => .tcpPort c.tcpPort
  | .clientId => .clientId c.clientId
  | .username => .username c.username
  | .password => .password c.password
  | .keepAlive => .keepAlive c.keepAlive
  | .cleanSession => .cleanSession c.cleanSession
  | .autoReconnect => .autoReconnect c.autoReconnect
  | .commandTimeout => .commandTimeout c.commandTimeout
  | .readTimeout => .readTimeout c.readTimeout
  | .connectTimeout => .connectTimeout c.connectTimeout
  | .reconnectInterval => .reconnectInterval c.reconnectInterval
  | .ackTimeout => .ackTimeout c.ackTimeout
  | .pendingWarning => .pendingWarning c.pendingWarning
  | .retryWarning => .retryWarning c.retryWarning
  | .maxPacketSize => .maxPacketSize c.maxPacketSize

/-- A text between quotes, as it stands. -/
def quote (s : String) : List Char :=
  '"' :: s.toList ++ ['"']

/-- A setting as it is written. -/
def Setting.spell : Setting → List Char
  | .host value | .clientId value => quote value
  | .username value | .password value => value.elim "null".toList quote
  | .tcpPort value | .keepAlive value => Nat.toDigits 10 value.toNat
  | .cleanSession value | .autoReconnect value => (toString value).toList
  | .commandTimeout value | .readTimeout value | .connectTimeout value
  | .reconnectInterval value | .ackTimeout value | .retryWarning value =>
    Nat.toDigits 10 value.toNat
  | .pendingWarning value | .maxPacketSize value => Nat.toDigits 10 value

/-- What is set by a setting as it is written: nothing by `null`. -/
def Setting.given? : Setting → Option Setting
  | .username none | .password none => none
  | s => some s

/-- Whether a text stands for itself between quotes. -/
def Unescaped (s : String) : Prop :=
  ∀ ch ∈ s.toList, ch ≠ '"' ∧ ch ≠ '\\'

instance (s : String) : Decidable (Unescaped s) :=
  List.decidableBAll _ _

/-- Whether a setting is read as it is written: its text stands for itself, and its count is one
of 64 bits. -/
def Setting.Legible : Setting → Prop
  | .host value | .clientId value => Unescaped value
  | .username value | .password value => ∀ s ∈ value, Unescaped s
  | .pendingWarning value | .maxPacketSize value => value < UInt64.size
  | _ => True

instance : DecidablePred Setting.Legible
  | .host value | .clientId value => inferInstanceAs (Decidable (Unescaped value))
  | .username value | .password value => inferInstanceAs (Decidable (∀ s ∈ value, Unescaped s))
  | .pendingWarning value | .maxPacketSize value => inferInstanceAs (Decidable (value < UInt64.size))
  | .tcpPort _ | .keepAlive _ | .cleanSession _ | .autoReconnect _ | .commandTimeout _
  | .readTimeout _ | .connectTimeout _ | .reconnectInterval _ | .ackTimeout _
  | .retryWarning _ => isTrue trivial

/-- Whether all settings are read as they are written. -/
def Legible (c : Config) : Prop :=
  ∀ f, (c.get f).Legible

namespace Document

/-! ## The grammar -/

/-- Whether a character may stand between tokens. -/
def isBlank (c : Char) : Bool :=
  c == ' ' || c == '\t' || c == '\n' || c == '\r'

/-- Characters between tokens. -/
abbrev Gap := { cs : List Char // ∀ c ∈ cs, isBlank c = true }

/-- Nothing between tokens. -/
def tight : Gap :=
  ⟨[], nofun⟩

/-- What may stand between two quotes: a quote or a backslash only behind a backslash. -/
inductive Enclosed : List Char → Prop
  | nil : Enclosed []
  | plain {c : Char} {cs : List Char} : c ≠ '"' → c ≠ '\\' → Enclosed cs → Enclosed (c :: cs)
  | escaped {c : Char} {cs : List Char} : Enclosed cs → Enclosed ('\\' :: c :: cs)

/-- The characters between the tokens of an entry. -/
structure Spacing where
  before : Gap := tight
  afterKey : Gap := tight
  beforeValue : Gap := tight
  after : Gap := tight

/-- An entry of an object. -/
def Spacing.entry (s : Spacing) (key value : List Char) : List Char :=
  s.before ++ '"' :: key ++ '"' :: s.afterKey ++ ':' :: s.beforeValue ++ value ++ s.after

/-- Whether a character can be part of a number, `true`, `false` or `null`. -/
def isPlain (c : Char) : Bool :=
  c.isAlphanum || c == '-' || c == '+' || c == '.'

/-- What stands between other tokens: a value, the entries of an object or the elements of a
list. -/
inductive Part where
  | value
  | entries
  | elements

/-- The grammar of JSON, a little wider than JSON has it in its escapes and numbers. -/
inductive Formed : Part → List Char → Prop
  | plain {cs : List Char} : cs ≠ [] → (∀ c ∈ cs, isPlain c = true) → Formed .value cs
  | text {t : List Char} : Enclosed t → Formed .value ('"' :: t ++ ['"'])
  | emptyObject (gap : Gap) : Formed .value ('{' :: gap ++ ['}'])
  | object {es : List Char} : Formed .entries es → Formed .value ('{' :: es ++ ['}'])
  | emptyList (gap : Gap) : Formed .value ('[' :: gap ++ [']'])
  | list {es : List Char} : Formed .elements es → Formed .value ('[' :: es ++ [']'])
  | entry (s : Spacing) {key v : List Char} : Enclosed key → Formed .value v →
    Formed .entries (s.entry key v)
  | entries (s : Spacing) {key v es : List Char} : Enclosed key → Formed .value v →
    Formed .entries es → Formed .entries (s.entry key v ++ ',' :: es)
  | element (before after : Gap) {v : List Char} : Formed .value v →
    Formed .elements (before ++ v ++ after)
  | elements (before after : Gap) {v es : List Char} : Formed .value v → Formed .elements es →
    Formed .elements (before ++ v ++ after ++ ',' :: es)

/-! ## Documents -/

/-- What stands in an entry of a document. -/
inductive Content where
  /-- A setting as it stands. -/
  | given (field : Field)
  /-- The name of a setting that is left alone. -/
  | null (field : Field)
  /-- A key that is no name of a setting, and any value. -/
  | extra (key value : List Char) (enclosed : Enclosed key)
    (unknown : Field.ofKey? (String.ofList key) = none) (formed : Formed .value value)

namespace Content

/-- The setting that an entry names. -/
def field? : Content → Option Field
  | given f | null f => some f
  | extra .. => none

def key : Content → List Char
  | given f | null f => f.key.toList
  | extra key .. => key

def value (c : Config) : Content → List Char
  | given f => (c.get f).spell
  | null _ => "null".toList
  | extra _ value .. => value

/-- What is set by an entry. -/
def set? (c : Config) : Content → Option Setting
  | given f => (c.get f).given?
  | null _ | extra .. => none

end Content

/-- Whether no setting is named twice. -/
def Once (contents : List Content) : Prop :=
  (contents.filterMap Content.field?).Nodup

/-- An entry with the characters between its tokens. -/
structure Item where
  content : Content
  spacing : Spacing := {}

def Item.spell (c : Config) (i : Item) : List Char :=
  i.spacing.entry i.content.key (i.content.value c)

/-- All that is free in how settings are written. -/
structure Layout where
  before : Gap := tight
  items : List Item
  inside : Gap := tight
  after : Gap := tight

namespace Layout

def contents (l : Layout) : List Content :=
  l.items.map Item.content

/-- Entries with nothing between their tokens. -/
def bare (contents : List Content) : Layout :=
  { items := contents.map fun content => { content } }

/-- The document of some settings. -/
def spell (l : Layout) (c : Config) : String :=
  String.ofList (l.before ++ '{' :: [','].intercalate (l.items.map (Item.spell c)) ++ l.inside ++
    '}' :: l.after)

end Layout

/-! ## Readers -/

/-- What is relied on of a reader of documents: what it says of one entry of a document in which
no setting is named twice. -/
structure Lawful (reader : String → Option Given) : Prop where
  /-- What stands between the tokens makes no difference. -/
  spaced : ∀ {c : Config} {l l' : Layout}, c.Legible → Once l.contents →
    l.contents = l'.contents → reader (l.spell c) = reader (l'.spell c)
  /-- The object without entries gives nothing. -/
  empty : reader "\x7b\x7d" = some {}
  /-- An entry is passed over, with its value, if its key names no setting. -/
  extra : ∀ {c : Config} {rest : List Content} {key value : List Char} (enclosed : Enclosed key)
    (unknown : Field.ofKey? (String.ofList key) = none) (formed : Formed .value value),
    c.Legible → Once rest →
    reader ((Layout.bare (.extra key value enclosed unknown formed :: rest)).spell c) =
      reader ((Layout.bare rest).spell c)
  /-- A setting is left alone by `null`. -/
  null : ∀ {c : Config} {f : Field} {rest : List Content}, c.Legible → Once (.null f :: rest) →
    reader ((Layout.bare (.null f :: rest)).spell c) = reader ((Layout.bare rest).spell c)
  /-- A setting is given by its text between quotes, not unescaped, by its digits or by its
  truth value. -/
  given : ∀ {c : Config} {f : Field} {s : Setting} {rest : List Content}, c.Legible →
    Once (.given f :: rest) → (c.get f).given? = some s →
    reader ((Layout.bare (.given f :: rest)).spell c) =
      (reader ((Layout.bare rest).spell c)).map (·.set s)

end Document

end Mqtt.Config
