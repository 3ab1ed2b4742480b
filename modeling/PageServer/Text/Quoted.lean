import PageServer.Text.Unprintable

/-! # Quoted texts

A quoted text stands between double quotes. Quotes and backslashes follow a backslash, the usual
control characters have a letter, and other characters that cannot be shown are spelled `\u{…}` with
the fewest hexadecimal digits.
-/

namespace PageServer.Text

/-- The hexadecimal digits of a number, in lower case. -/
def hexadecimal (n : Nat) : String :=
  String.ofList (Nat.toDigits 16 n)

/-- The spelling of one character between quotes. -/
def escape (c : Char) : String :=
  if c = '\x00' then "\\0"
  else if c = '\t' then "\\t"
  else if c = '\r' then "\\r"
  else if c = '\n' then "\\n"
  else if c = '"' then "\\\""
  else if c = '\\' then "\\\\"
  else if isUnprintable c then "\\u\x7b" ++ hexadecimal c.toNat ++ "\x7d"
  else c.toString

/-- The text between double quotes, with everything else escaped. -/
def quoted (text : String) : String :=
  "\"" ++ String.join (text.toList.map escape) ++ "\""

end PageServer.Text
