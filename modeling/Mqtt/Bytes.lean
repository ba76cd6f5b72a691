/-!
# Octets

A packet is a list of octets.  Two-octet words stand most significant octet
first, and text stands as its UTF-8 form.
-/

namespace Mqtt

/-- A string of octets. -/
abbrev Bytes := List UInt8

namespace Bytes

/-- The two octets of a word, most significant first. -/
def ofWord (w : UInt16) : Bytes :=
  [(w >>> 8).toUInt8, w.toUInt8]

/-- The word written as the octets `hi`, `lo`. -/
def word (hi lo : UInt8) : UInt16 :=
  hi.toUInt16 <<< 8 ||| lo.toUInt16

/-- The UTF-8 form of a text. -/
def ofText (s : String) : Bytes :=
  s.toUTF8.data.toList

/-- The text whose UTF-8 form is `bs`, if there is one. -/
def text? (bs : Bytes) : Option String :=
  String.fromUTF8? bs.toByteArray

end Bytes

end Mqtt
