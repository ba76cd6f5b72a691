/-!
# Topics

A topic name is a path of levels parted by slashes.  A topic filter is such a
path in which a level may be `+`, standing for one level, and the last may be
`#`, standing for all that follow, or for none.
-/

namespace Mqtt.Topic

/-- What is wrong with a topic name or a topic filter. -/
inductive Fault where
  | empty
  | tooLong
  | nul
  /-- A `#` stands before the last level. -/
  | hashNotLast
  /-- A wildcard stands beside other characters of its level. -/
  | wildcardInLevel
  /-- A name holds a wildcard. -/
  | wildcardInName
  deriving DecidableEq

/-- The wording of a fault. -/
def Fault.message : Fault → String
  | empty => "topic is empty"
  | tooLong => "topic is longer than 65535 bytes"
  | nul => "topic contains NUL"
  | hashNotLast => "'#' must be the last level"
  | wildcardInLevel => "wildcards must occupy a whole level"
  | wildcardInName => "topic names cannot contain wildcards"

/-- The levels of a path; a path has one more than it has slashes. -/
def levelsOf (path : List Char) : List (List Char) :=
  path.foldr (fun c levels =>
    if c = '/' then [] :: levels
    else match levels with
      | [] => [[c]]
      | level :: rest => (c :: level) :: rest) [[]]

/-- The levels of a topic name or filter. -/
def levels (topic : String) : List (List Char) :=
  levelsOf topic.toList

/-- Whether the levels of a name match the levels of a filter. -/
def matchLevels : (names filters : List (List Char)) → Bool
  | _, ['#'] :: _ => true
  | _ :: names, ['+'] :: filters => matchLevels names filters
  | name :: names, filter :: filters => filter == name && matchLevels names filters
  | [], [] => true
  | _, _ => false

/-- Whether a character is a wildcard. -/
def isWildcard (c : Char) : Bool :=
  c == '+' || c == '#'

/-- The first character of a path, given by its levels; none if it opens with a
slash or is empty. -/
def opening (levels : List (List Char)) : Option Char :=
  levels.head?.bind List.head?

/-- Whether the levels of a name are reached by the levels of a filter.  A filter
that opens with a wildcard reaches none of the broker's own names. -/
def reaches (name filter : List (List Char)) : Bool :=
  !(opening name == some '$' && (opening filter).any isWildcard) && matchLevels name filter

/-- Whether a topic name matches a topic filter. -/
def isMatch (name filter : String) : Bool :=
  reaches (levels name) (levels filter)

/-- The demands that names and filters share. -/
def checkText (topic : String) : Except Fault Unit :=
  if topic.isEmpty then .error .empty
  else if topic.utf8ByteSize > 65535 then .error .tooLong
  else if topic.toList.contains '\x00' then .error .nul
  else .ok ()

/-- The demands on the levels of a filter, from left to right. -/
def checkLevels : List (List Char) → Except Fault Unit
  | [] => .ok ()
  | ['+'] :: rest => checkLevels rest
  | ['#'] :: rest => if rest.isEmpty then .ok () else .error .hashNotLast
  | level :: rest => if level.any isWildcard then .error .wildcardInLevel else checkLevels rest

/-- Whether a topic filter may be sent. -/
def checkFilter (filter : String) : Except Fault Unit := do
  checkText filter
  checkLevels (levels filter)

/-- Whether a topic name may be sent. -/
def checkName (name : String) : Except Fault Unit := do
  checkText name
  if name.toList.any isWildcard then throw .wildcardInName

end Mqtt.Topic
