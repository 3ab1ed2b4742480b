import PageServer.Config.Toml.Token
import PageServer.Number.Decimal

/-! # The values of TOML

A value is read off the front of a list of tokens. `fuel` bounds how deep values stand in one another
and how many stand side by side; the number of tokens is enough for both.
-/

namespace PageServer.Toml

inductive Value
  | string (text : String)
  | integer (n : Int)
  | float (x : Float)
  | boolean (b : Bool)
  /-- A date or a time, as it is written. -/
  | date (text : String)
  | array (items : List Value)
  /-- Keys and values in order. A table that dotted keys made can be added to by others. -/
  | table (isDotted : Bool) (entries : List (String × Value))

/-- The entries of a table, in order. A key may stand in it more than once. -/
abbrev Entries := List (String × Value)

/-- Puts a value under a dotted key. While entries are read, the last one stands first, and so it is in
the tables that dotted keys made. Only such a table takes another entry, and of several entries with
one key it is the first one read that counts. -/
def Entries.put : List String → Value → Entries → Option Entries
  | [], _, _ => none
  | [key], value, entries => some ((key, value) :: entries)
  | key :: rest, value, entries =>
    match entries.reverse.span (·.1 ≠ key) with
    | (before, (_, .table true inner) :: after) =>
      (Entries.put rest value inner).map fun inner =>
        (before ++ (key, .table true inner) :: after).reverse
    | (_, _ :: _) => none
    | (_, []) => (Entries.put rest value []).map fun inner => (key, .table true inner) :: entries

mutual

/-- A value with the entries of the tables that dotted keys made in order. -/
def Value.settle : Value → Value
  | .table true entries => .table true (settleEntries [] entries)
  | value => value

/-- The entries that were read, in order, in front of those that are in order already. -/
def settleEntries (done : Entries) : List (String × Value) → Entries
  | [] => done
  | (key, value) :: rest => settleEntries ((key, value.settle) :: done) rest

end

/-- The entries that were read, in order. -/
def Entries.settle (entries : Entries) : Entries :=
  settleEntries [] entries

/-- The digits of a word to a base, without the single underscores between them, and what follows
them. -/
def readDigits? (base : Nat) (leadingZeros : Bool) (word : List Char) :
    Option (List Nat × List Char) :=
  let digit? (c : Char) := (hexDigit? c).filter (· < base)
  let run := word.takeWhile fun c => (digit? c).isSome || c == '_'
  let parts := Text.divide (· == '_') run
  let ds := run.filterMap digit?
  if parts.contains [] || (!leadingZeros && ds.head? == some 0 && 1 < ds.length) then none
  else some (ds, word.drop run.length)

/-- An optional minus sign and what follows it. -/
def minus : List Char → Bool × List Char
  | '-' :: rest => (true, rest)
  | rest => (false, rest)

/-- An integer of 64 bits. -/
def integer? (negative : Bool) (n : Nat) : Option Value :=
  let n : Int := if negative then -n else n
  if Int64.minValue.toInt ≤ n ∧ n ≤ Int64.maxValue.toInt then some (.integer n) else none

/-- The integer that a whole word spells. -/
def readInteger? (base : Nat) (leadingZeros negative : Bool) (word : List Char) : Option Value :=
  match readDigits? base leadingZeros word with
  | some (ds, []) => integer? negative (Digits.toNat base ds)
  | _ => none

def float? (negative : Bool) (whole fraction : List Nat) (exponent : Int) : Option Value :=
  let x := Decimal.toFloat
    ⟨negative, Digits.toNat 10 (whole ++ fraction), exponent - fraction.length⟩
  if x.isFinite then some (.float x) else none

/-- The exponent that follows the digits of a double, and the tokens after it. A plus sign in it is a
token of its own. -/
def readExponent? (suffix : List Char) (tokens : List Token) : Option (Int × List Token) :=
  match suffix with
  | [] => some (0, tokens)
  | mark :: digits =>
    if mark ≠ 'e' ∧ mark ≠ 'E' then none
    else if digits = [] then
      let tokens := match tokens with
        | .plus :: rest => rest
        | tokens => tokens
      match tokens with
      | .bare word :: rest =>
        match readDigits? 10 true word with
        | some (ds, []) => some (Decimal.exponentOf false ds, rest)
        | _ => none
      | _ => none
    else
      let (negative, digits) := minus digits
      match readDigits? 10 true digits with
      | some (ds, []) => some (Decimal.exponentOf negative ds, tokens)
      | _ => none

/-- The double that starts with a word and ends with an exponent. -/
def readFloat? (word : List Char) (tokens : List Token) : Option (Value × List Token) := do
  let (negative, body) := minus word
  let (whole, suffix) ← readDigits? 10 false body
  let (exponent, tokens) ← readExponent? suffix tokens
  let x ← float? negative whole [] exponent
  some (x, tokens)

/-- The double whose whole part is a word and whose fraction follows a point. -/
def readFraction? (word after : List Char) (tokens : List Token) : Option (Value × List Token) := do
  let (negative, body) := minus word
  let (whole, suffix) ← readDigits? 10 false body
  let (fraction, tail) ← readDigits? 10 true after
  let (exponent, tokens) ← readExponent? tail tokens
  let x ← float? negative whole fraction exponent
  if suffix = [] then some (x, tokens) else none

/-- The number that starts with a word. -/
def readNumber? (word : List Char) (tokens : List Token) : Option (Value × List Token) :=
  let whole (v : Option Value) := v.map fun v => (v, tokens)
  match word with
  | '0' :: 'x' :: ds => whole (readInteger? 16 true false ds)
  | '0' :: 'o' :: ds => whole (readInteger? 8 true false ds)
  | '0' :: 'b' :: ds => whole (readInteger? 2 true false ds)
  | _ =>
    if word.any fun c => c == 'e' || c == 'E' then readFloat? word tokens
    else
      match tokens with
      | .period :: .bare after :: rest => readFraction? word after rest
      | .period :: _ => none
      | _ =>
        let (negative, body) := minus word
        if body = "inf".toList then
          whole (some (.float (Binary64.toFloat negative Binary64.infinity)))
        else if body = "nan".toList then whole (some (.float (0.0 / 0.0)))
        else whole (readInteger? 10 false negative body)

/-- Whether a word belongs to a date or a time even if no colon follows. -/
def isDateWord (word : List Char) : Bool :=
  word.any (fun c => c == 'T' || c == 't') ||
    ((word.drop 1).contains '-' && (Text.breakOn "e-".toList word).isNone &&
      (Text.breakOn "E-".toList word).isNone)

/-- The characters of a token that can stand in a date. -/
def Token.dateText : Token → List Char
  | .bare word => word
  | .blanks text => text
  | .colon => [':']
  | .period => ['.']
  | .plus => ['+']
  | _ => []

/-- Reads a mark and a word, if the mark is there. The mark cannot stand alone. -/
def readMarked? (mark : Token) : List Token → Option (List Char × List Token)
  | first :: rest =>
    if first = mark then
      match rest with
      | .bare word :: rest => some (mark.dateText ++ word, rest)
      | _ => none
    else some ([], first :: rest)
  | [] => some ([], [])

/-- Reads the minutes, seconds, fraction and offset of a time. -/
def readClock? : List Token → Option (List Char × List Token)
  | .bare minutes :: .colon :: .bare seconds :: rest => do
    let (fraction, rest) ← readMarked? .period rest
    let (offset, rest) ← readMarked? .plus rest
    let (offsetMinutes, rest) ← readMarked? .colon rest
    some (minutes ++ ':' :: seconds ++ fraction ++ offset ++ offsetMinutes, rest)
  | _ => none

/-- Reads a date on behind its first word and, if it was read, the colon that follows it. A single
blank may stand before the time. -/
def readDateTail? (colonRead : Bool) (tokens : List Token) : Option (List Char × List Token) :=
  let (hours, tokens) := match tokens with
    | .blanks [' '] :: .bare hours :: rest => (' ' :: hours, rest)
    | tokens => ([], tokens)
  if colonRead then (readClock? tokens).map fun (clock, rest) => (hours ++ clock, rest)
  else
    match tokens with
    | .colon :: rest => (readClock? rest).map fun (clock, rest) => (hours ++ ':' :: clock, rest)
    | _ => some (hours, tokens)

/-- The date that starts with a word. -/
def readDate? (word : List Char) (colonRead : Bool) (tokens : List Token) :
    Option (Value × List Token) :=
  (readDateTail? colonRead tokens).map fun (tail, rest) =>
    let start := if colonRead then word ++ [':'] else word
    (.date (String.ofList (start ++ tail)), rest)

def readWord? (word : List Char) (tokens : List Token) : Option (Value × List Token) :=
  let startsNumber := match word with
    | c :: _ => c == '-' || c.isDigit
    | [] => false
  if word = "true".toList then some (.boolean true, tokens)
  else if word = "false".toList then some (.boolean false, tokens)
  else if startsNumber || word == "inf".toList || word == "nan".toList then
    if isDateWord word then readDate? word false tokens
    else
      match tokens with
      | .colon :: rest => readDate? word true rest
      | _ => readNumber? word tokens
  else none

/-- The tokens without blanks at the front. -/
def skipBlanks : List Token → List Token
  | .blanks _ :: rest => rest
  | tokens => tokens

def readKey? : List Token → Option (String × List Token)
  | .bare word :: rest => some (String.ofList word, rest)
  | .quoted text false :: rest => some (String.ofList text, rest)
  | _ => none

/-- Reads keys with points between them, and blanks around the points. -/
def readKeys? : Nat → List Token → Option (List String × List Token)
  | 0, _ => none
  | fuel + 1, tokens => do
    let (key, rest) ← readKey? tokens
    match skipBlanks rest with
    | .period :: rest =>
      let (keys, rest) ← readKeys? fuel (skipBlanks rest)
      some (key :: keys, rest)
    | rest => some ([key], rest)

/-- The tokens behind the end of a line, which a comment may precede. The end of the document ends a
line too. -/
def skipLineEnd : List Token → Option (List Token)
  | .newline :: rest => some rest
  | .comment :: .newline :: rest => some rest
  | [.comment] => some []
  | [] => some []
  | _ => none

/-- The tokens behind blanks, line ends and comments. A comment has to end its line. -/
def skipLines : List Token → Option (List Token)
  | .blanks _ :: rest => skipLines rest
  | .newline :: rest => skipLines rest
  | .comment :: .newline :: rest => skipLines rest
  | [.comment] => some []
  | .comment :: _ => none
  | tokens => some tokens

/-- Reads a key, an equals sign and a value. -/
def readPair? (fuel : Nat) (value? : List Token → Option (Value × List Token))
    (tokens : List Token) : Option ((List String × Value) × List Token) := do
  let (keys, rest) ← readKeys? fuel tokens
  match rest with
  | .equals :: rest =>
    let (value, rest) ← value? (skipBlanks rest)
    some ((keys, value), skipBlanks rest)
  | _ => none

mutual

def readValue? : Nat → List Token → Option (Value × List Token)
  | 0, _ => none
  | fuel + 1, tokens =>
    match tokens with
    | .quoted text _ :: rest => some (.string (String.ofList text), rest)
    | .bare word :: rest => readWord? word rest
    | .plus :: .bare word :: rest => readNumber? word rest
    | .leftBracket :: rest => (readItems? fuel rest).map fun (items, rest) => (.array items, rest)
    | .leftBrace :: rest =>
      match skipBlanks rest with
      | .rightBrace :: rest => some (.table false [], rest)
      | rest => (readInline? fuel [] rest).map fun (entries, rest) => (.table false entries, rest)
    | _ => none

/-- Reads the items of an array up to its closing bracket. Lines may end between them, and a comma
may follow the last one. -/
def readItems? : Nat → List Token → Option (List Value × List Token)
  | 0, _ => none
  | fuel + 1, tokens => do
    match ← skipLines tokens with
    | .rightBracket :: rest => some ([], rest)
    | rest =>
      let (item, rest) ← readValue? fuel rest
      match ← skipLines rest with
      | .comma :: rest =>
        let (items, rest) ← readItems? fuel rest
        some (item :: items, rest)
      | .rightBracket :: rest => some ([item], rest)
      | _ => none

/-- Reads the pairs of a table in braces up to the closing brace. `done` holds those that were read
before, the last one first. -/
def readInline? : Nat → Entries → List Token → Option (Entries × List Token)
  | 0, _, _ => none
  | fuel + 1, done, tokens => do
    let ((keys, value), rest) ← readPair? fuel (readValue? fuel) tokens
    let done ← Entries.put keys value done
    match rest with
    | .rightBrace :: rest => some (done.settle, rest)
    | .comma :: rest => readInline? fuel done (skipBlanks rest)
    | _ => none

end

end PageServer.Toml
