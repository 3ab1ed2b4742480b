import PageServer.Text.Split

/-! # The tokens of TOML

A document is a sequence of marks, bare words, quoted texts, blanks, comments and line ends. A
carriage return counts only as part of a line end, and a byte order mark may stand first.
-/

namespace PageServer.Toml

inductive Token
  | blanks (text : List Char)
  | newline
  | comment
  | equals
  | period
  | comma
  | colon
  | plus
  | leftBrace
  | rightBrace
  | leftBracket
  | rightBracket
  /-- A word of letters, digits, dashes and underscores. -/
  | bare (word : List Char)
  /-- A quoted text, with one quote on each side or with three. -/
  | quoted (text : List Char) (multiline : Bool)
deriving DecidableEq, Repr

/-- Whether a character can stand in a bare word. -/
def isBare (c : Char) : Bool :=
  c.isAlphanum || c == '-' || c == '_'

/-- Whether a character can stand in a quoted text as itself. -/
def isPlain (c : Char) : Bool :=
  c == '\t' || (0x20 ≤ c.toNat && c.toNat ≠ 0x7F)

/-- Line ends of two characters, folded into one. -/
def foldLineEnds : List Char → List Char
  | '\r' :: '\n' :: rest => '\n' :: foldLineEnds rest
  | c :: rest => c :: foldLineEnds rest
  | [] => []

def hexDigit? (c : Char) : Option Nat :=
  if c.isDigit then some (c.toNat - 48)
  else if 'a' ≤ c ∧ c ≤ 'f' then some (c.toNat - 87)
  else if 'A' ≤ c ∧ c ≤ 'F' then some (c.toNat - 55)
  else none

/-- The character with the number that the first `width` hexadecimal digits spell. -/
def codePoint? (width : Nat) (text : List Char) : Option Char := do
  let ds ← (text.take width).mapM hexDigit?
  let n := ds.foldl (fun n d => 16 * n + d) 0
  if ds.length = width ∧ n.isValidChar then some (Char.ofNat n) else none

/-- The character that a letter stands for behind a backslash. -/
def escaped? (c : Char) : Option Char :=
  [('"', '"'), ('\\', '\\'), ('b', '\x08'), ('f', '\x0c'), ('n', '\n'), ('r', '\r'),
    ('t', '\t')].lookup c

/-- What a backslash at the end of a line skips: the rest of the line, which has to be blank, and all
blanks and line ends after it. -/
def skipLineEnd? (text : List Char) : Option (List Char) :=
  match text.dropWhile fun c => c == ' ' || c == '\t' with
  | '\n' :: rest => some (rest.dropWhile fun c => c == ' ' || c == '\t' || c == '\n')
  | _ => none

/-- The character that an escape stands for, if it stands for one, and what follows the escape. The
text starts behind the backslash. -/
def readEscape? (multiline : Bool) : List Char → Option (Option Char × List Char)
  | [] => none
  | c :: rest =>
    match escaped? c with
    | some d => some (some d, rest)
    | none =>
      if c = 'u' then (codePoint? 4 rest).map fun d => (some d, rest.drop 4)
      else if c = 'U' then (codePoint? 8 rest).map fun d => (some d, rest.drop 8)
      else if multiline then (skipLineEnd? (c :: rest)).map fun rest => (none, rest)
      else none

/-- The text up to its closing quotes, and what follows them. `fuel` bounds the length of the text. A
text in three quotes may end with up to two quotes of its own. -/
def readQuoted? (quote : Char) (multiline : Bool) :
    Nat → List Char → List Char → Option (List Char × List Char)
  | 0, _, _ => none
  | _, _, [] => none
  | fuel + 1, done, c :: rest =>
    if c = quote then
      if multiline then
        let run := (c :: rest).takeWhile (· == quote)
        let after := (c :: rest).drop run.length
        if run.length < 3 then readQuoted? quote multiline fuel (run ++ done) after
        else
          let own := min (run.length - 3) 2
          some ((List.replicate own quote ++ done).reverse, (c :: rest).drop (own + 3))
      else some (done.reverse, rest)
    else if c = '\n' then
      if multiline then readQuoted? quote multiline fuel (c :: done) rest else none
    else if c = '\\' ∧ quote = '"' then
      match readEscape? multiline rest with
      | none => none
      | some (some d, rest) => readQuoted? quote multiline fuel (d :: done) rest
      | some (none, rest) => readQuoted? quote multiline fuel done rest
    else if isPlain c then readQuoted? quote multiline fuel (c :: done) rest
    else none

/-- Reads a quoted text behind its first quote. A line end right behind three quotes is dropped. -/
def readText? (fuel : Nat) (quote : Char) (rest : List Char) : Option (Token × List Char) :=
  let read (multiline : Bool) (rest : List Char) :=
    (readQuoted? quote multiline fuel [] rest).map fun (text, rest) =>
      (Token.quoted text multiline, rest)
  match rest with
  | c :: d :: rest' =>
    if c = quote ∧ d = quote then
      match rest' with
      | '\n' :: rest' => read true rest'
      | _ => read true rest'
    else if c = quote then some (.quoted [] false, d :: rest')
    else read false rest
  | _ => read false rest

/-- Whether a comment goes on at a character. -/
def isCommentary (c : Char) : Bool :=
  c == '\t' || 0x20 ≤ c.toNat

def mark? (c : Char) : Option Token :=
  [('\n', Token.newline), ('=', .equals), ('.', .period), (',', .comma), (':', .colon), ('+', .plus),
    ('{', .leftBrace), ('}', .rightBrace), ('[', .leftBracket), (']', .rightBracket)].lookup c

/-- Reads a token off the front of a text. `fuel` bounds the length of a quoted text. -/
def readToken? (fuel : Nat) : List Char → Option (Token × List Char)
  | [] => none
  | c :: rest =>
    match mark? c with
    | some mark => some (mark, rest)
    | none =>
      if c = ' ' ∨ c = '\t' then
        let isBlank := fun c : Char => c == ' ' || c == '\t'
        some (.blanks ((c :: rest).takeWhile isBlank), rest.dropWhile isBlank)
      else if c = '#' then some (.comment, rest.dropWhile isCommentary)
      else if c = '"' ∨ c = '\'' then readText? fuel c rest
      else if isBare c then some (.bare ((c :: rest).takeWhile isBare), rest.dropWhile isBare)
      else none

/-- Reads tokens until the text is used up. `fuel` is at least the length of the text. -/
def readTokens? : Nat → List Char → Option (List Token)
  | _, [] => some []
  | 0, _ => none
  | fuel + 1, text => do
    let (token, rest) ← readToken? (fuel + 1) text
    let tokens ← readTokens? fuel rest
    some (token :: tokens)

def tokens? (document : List Char) : Option (List Token) :=
  let text := foldLineEnds (match document with
    | '\uFEFF' :: rest => rest
    | text => text)
  readTokens? text.length text

end PageServer.Toml
