import SlotServer.Text.Graphic

/-!
# Quoted text

A text between double quotes. The quote and the backslash carry a backslash, five controls have short names, and
every other character that is not graphic is written as its code point in hexadecimal.
-/

namespace SlotServer.Text

/-- One character inside quotes. -/
def quoteChar (c : Char) : String :=
  match c with
  | '\x00' => "\\0"
  | '\t' => "\\t"
  | '\n' => "\\n"
  | '\r' => "\\r"
  | '"' => "\\\""
  | '\\' => "\\\\"
  | c =>
    if isGraphic c then c.toString
    else "\\u\x7b" ++ String.ofList (Nat.toDigits 16 c.toNat) ++ "\x7d"

/-- A text between double quotes. -/
def quote (s : String) : String :=
  "\"" ++ String.join (s.toList.map quoteChar) ++ "\""

end SlotServer.Text
