import Mqtt.Config.Document

/-!
# A reader of settings

Settings are written as one JSON object, and any reader of JSON may read them
(`Config.ofJson`).  This one is lenient where JSON is strict and strict where it
matters: texts are taken as they stand between their quotes, unknown keys are
passed over with their values, and a known key may stand once, with `null` for a
setting left alone.

Each reader takes what it reads off the front of a list of characters and hands
back the rest, or `none` where the text does not follow the grammar.
-/

namespace Mqtt.Config.Json

open Document

/-- Passes over the characters that may stand between tokens. -/
def skipBlanks (cs : List Char) : List Char :=
  cs.dropWhile isBlank

/-- Passes over a given word. -/
def word : (expected : List Char) → List Char → Option (List Char)
  | [], rest => some rest
  | e :: expected, c :: rest => if c = e then word expected rest else none
  | _ :: _, [] => none

/-- Takes the characters up to a closing quote, in front of which stands an even
number of backslashes.  `escaped` says that an odd number stands here, and
`taken` holds the characters so far, last first. -/
def quoted : (escaped : Bool) → (taken : List Char) → List Char → Option (List Char × List Char)
  | _, _, [] => none
  | escaped, taken, c :: rest =>
    if c = '"' ∧ escaped = false then some (taken.reverse, rest)
    else quoted (c == '\\' && !escaped) (c :: taken) rest

/-- Takes a text between quotes, as it stands. -/
def text : List Char → Option (String × List Char)
  | '"' :: rest => (quoted false [] rest).map fun (taken, rest) => (String.ofList taken, rest)
  | _ => none

/-- Takes the digits of a number of at most `max`.  `value` is the number that
the digits before them stand for. -/
def digits (max : Nat) : (value : Nat) → List Char → Option (Nat × List Char)
  | value, [] => some (value, [])
  | value, c :: rest =>
    if c.isDigit then
      let value := 10 * value + (c.toNat - '0'.toNat)
      if max < value then none else digits max value rest
    else some (value, c :: rest)

/-- Takes a number of at most `max`.  After a leading zero no further digit is
taken. -/
def number (max : Nat) (cs : List Char) : Option (Nat × List Char) :=
  match cs with
  | [] => none
  | '0' :: rest => some (0, rest)
  | c :: _ => if c.isDigit then digits max 0 cs else none

/-- Takes a truth value. -/
def flag (cs : List Char) : Option (Bool × List Char) :=
  match word "true".toList cs with
  | some rest => some (true, rest)
  | none => (word "false".toList cs).map fun rest => (false, rest)

/-- Takes `null`, for a setting left alone, or what `reader` takes. -/
def value {α : Type} (reader : List Char → Option (α × List Char)) (toSetting : α → Setting)
    (cs : List Char) : Option (Option Setting × List Char) :=
  match cs with
  | 'n' :: _ => (word "null".toList cs).map fun rest => (none, rest)
  | cs => (reader cs).map fun (a, rest) => (some (toSetting a), rest)

/-- Takes the value of a setting. -/
def setting : Field → List Char → Option (Option Setting × List Char)
  | .host => value text .host
  | .tcpPort => value (number 65535) fun n => .tcpPort n.toUInt16
  | .clientId => value text .clientId
  | .username => value text fun s => .username (some s)
  | .password => value text fun s => .password (some s)
  | .keepAlive => value (number 65535) fun n => .keepAlive n.toUInt16
  | .cleanSession => value flag .cleanSession
  | .autoReconnect => value flag .autoReconnect
  | .commandTimeout => value (number 4294967295) fun n => .commandTimeout n.toUInt32
  | .readTimeout => value (number 4294967295) fun n => .readTimeout n.toUInt32
  | .connectTimeout => value (number 4294967295) fun n => .connectTimeout n.toUInt32
  | .reconnectInterval => value (number 4294967295) fun n => .reconnectInterval n.toUInt32
  | .ackTimeout => value (number 4294967295) fun n => .ackTimeout n.toUInt32
  | .pendingWarning => value (number 18446744073709551615) .pendingWarning
  | .retryWarning => value (number 4294967295) fun n => .retryWarning n.toUInt32
  | .maxPacketSize => value (number 18446744073709551615) .maxPacketSize

/-- Takes a key and its colon, at the start of an entry. -/
def keyColon (cs : List Char) : Option (String × List Char) :=
  match text (skipBlanks cs) with
  | none => none
  | some (key, rest) =>
    match skipBlanks rest with
    | ':' :: rest => some (key, skipBlanks rest)
    | _ => none

/-- Takes what opens the next entry of an object up to its value, or the end of
the object.  Every entry but the first is parted from the one before by one comma. -/
def nextKey (first : Bool) (cs : List Char) : Option (Option String × List Char) :=
  match first, skipBlanks cs with
  | _, '}' :: rest => some (none, rest)
  | false, ',' :: rest => (keyColon rest).map fun (key, rest) => (some key, rest)
  | true, rest => (keyColon rest).map fun (key, rest) => (some key, rest)
  | false, _ => none

/-- Takes what stands in front of the next element of a list, or the end of the
list.  A comma may stand in front of every element, but not before the end; one
element of a list may stand without.  `spare` says that none has done so yet, and
is handed on for the elements after this one. -/
def nextElement (spare : Bool) (cs : List Char) : Option (Option Bool × List Char) :=
  match spare, skipBlanks cs with
  | _, ']' :: rest => some (none, rest)
  | spare, ',' :: rest =>
    match skipBlanks rest with
    | ']' :: _ => none
    | rest => some (some spare, rest)
  | true, rest => some (some false, rest)
  | false, _ => none

/-- Whether a character ends a value that is neither text, object nor list. -/
def endsValue (c : Char) : Bool :=
  c == ',' || c == '}' || c == ']'

/-- Passes over a value that is neither text, object nor list: all characters up
to the next that ends a value, at least one. -/
def skipPlain (cs : List Char) : Option (List Char) :=
  match cs with
  | [] => none
  | c :: _ =>
    if endsValue c then none
    else match cs.dropWhile fun c => !endsValue c with
      | [] => none
      | rest => some rest

mutual

/-- Passes over a value.  `fuel` bounds how often a value, an entry or an
element may begin. -/
def skipValue : (fuel : Nat) → List Char → Option (List Char)
  | 0, _ => none
  | fuel + 1, cs =>
    match skipBlanks cs with
    | '"' :: rest => (quoted false [] rest).map fun (_, rest) => rest
    | '{' :: rest => skipEntries fuel true rest
    | '[' :: rest => skipElements fuel true rest
    | rest => skipPlain rest

/-- Passes over the entries of an object and its end. -/
def skipEntries : (fuel : Nat) → (first : Bool) → List Char → Option (List Char)
  | 0, _, _ => none
  | fuel + 1, first, cs =>
    match nextKey first cs with
    | none => none
    | some (none, rest) => some rest
    | some (some _, rest) =>
      match skipValue fuel rest with
      | none => none
      | some rest => skipEntries fuel false rest

/-- Passes over the elements of a list and its end. -/
def skipElements : (fuel : Nat) → (spare : Bool) → List Char → Option (List Char)
  | 0, _, _ => none
  | fuel + 1, spare, cs =>
    match nextElement spare cs with
    | none => none
    | some (none, rest) => some rest
    | some (some spare, rest) =>
      match skipValue fuel rest with
      | none => none
      | some rest => skipElements fuel spare rest

end

/-- Takes the entries of the object of settings and its end: the settings given,
in their order.  `seen` holds the known keys so far. -/
def entries : (fuel : Nat) → (first : Bool) → (seen : List Field) → List Char →
    Option (List Setting × List Char)
  | 0, _, _, _ => none
  | fuel + 1, first, seen, cs =>
    match nextKey first cs with
    | none => none
    | some (none, rest) => some ([], rest)
    | some (some key, rest) =>
      match Field.ofKey? key with
      | none =>
        match skipValue fuel rest with
        | none => none
        | some rest => entries fuel false seen rest
      | some field =>
        if field ∈ seen then none
        else match setting field rest with
          | none => none
          | some (given, rest) =>
            (entries fuel false (field :: seen) rest).map fun (settings, rest) =>
              (given.toList ++ settings, rest)

/-- The settings that a text gives.  A value needs at most two beginnings for
each of its characters, so the length of the text bounds the fuel. -/
def settings? (document : String) : Option (List Setting) :=
  match skipBlanks document.toList with
  | '{' :: rest =>
    match entries (2 * document.toList.length) true [] rest with
    | some (settings, rest) => if (skipBlanks rest).isEmpty then some settings else none
    | none => none
  | _ => none

/-- What a text gives of the settings. -/
def given? (document : String) : Option Given :=
  (settings? document).map (List.foldr (fun s g => g.set s) {})

end Mqtt.Config.Json
