import VhdlOutline.Text.Extending
import VhdlOutline.Text.Printable

/-!
# Escaped texts

A text as it is quoted in a message: control characters, quotes, backslashes and whatever cannot be
shown are written as escapes. A character that would be drawn onto its predecessor is escaped only
where it starts the text.
-/

namespace VhdlOutline.Text

/-- The code point of a character as a hexadecimal number in braces after `u`. -/
def escapeCode (c : Char) : List Char :=
  ['\x5c', 'u', '\x7b'] ++ Nat.toDigits 16 c.toNat ++ ['\x7d']

/-- The escaped form of a character inside a text. -/
def escapeChar (c : Char) : List Char :=
  if c = '\x00' then ['\x5c', '0']
  else if c = '\t' then ['\x5c', 't']
  else if c = '\r' then ['\x5c', 'r']
  else if c = '\n' then ['\x5c', 'n']
  else if c = '\x5c' || c = '\x22' || c = '\x27' then ['\x5c', c]
  else if isPrintable c then [c]
  else escapeCode c

/-- The escaped form of a text. -/
def escape (s : String) : String :=
  match s.toList with
  | [] => ""
  | c :: cs =>
    String.ofList ((if isExtending c then escapeCode c else escapeChar c) ++ cs.flatMap escapeChar)

end VhdlOutline.Text
