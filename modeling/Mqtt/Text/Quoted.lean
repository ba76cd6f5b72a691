import Mqtt.Text.Shapeless

/-!
# Quoted texts

A text in quotes shows every character by its shape, or by an escape if it has
none or would be taken for a part of the quoting.
-/

namespace Mqtt.Text

/-- The digits of a number in base sixteen, in lower case. -/
def hexText (n : Nat) : String :=
  String.ofList (Nat.toDigits 16 n)

/-- A character as it stands between quotes. -/
def quoteChar (c : Char) : String :=
  match c with
  | '"' => "\\\""
  | '\\' => "\\\\"
  | '\t' => "\\t"
  | '\r' => "\\r"
  | '\n' => "\\n"
  | '\x00' => "\\0"
  | c => if isShapeless c then "\\u\x7b" ++ hexText c.toNat ++ "\x7d" else c.toString

/-- A text in quotes. -/
def quote (s : String) : String :=
  "\"" ++ String.join (s.toList.map quoteChar) ++ "\""

end Mqtt.Text
