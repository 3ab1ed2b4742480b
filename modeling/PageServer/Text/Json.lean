import PageServer.Text.Quoted

/-! # Texts in JSON

A string of JSON stands between double quotes. Quotes, backslashes and the control characters below
the space are escaped, with the short form where there is one; all else stands as it is.
-/

namespace PageServer.Text

def jsonEscape (c : Char) : String :=
  if c = '"' then "\\\""
  else if c = '\\' then "\\\\"
  else if c = '\n' then "\\n"
  else if c = '\r' then "\\r"
  else if c = '\t' then "\\t"
  else if c = '\x08' then "\\b"
  else if c = '\x0c' then "\\f"
  else if c.toNat < 0x20 then
    let digits := hexadecimal c.toNat
    "\\u" ++ String.ofList (List.replicate (4 - digits.length) '0') ++ digits
  else c.toString

def jsonString (text : String) : String :=
  "\"" ++ String.join (text.toList.map jsonEscape) ++ "\""

def jsonArray (items : List String) : String :=
  "[" ++ ",".intercalate items ++ "]"

end PageServer.Text
