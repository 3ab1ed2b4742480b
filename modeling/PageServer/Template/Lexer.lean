import PageServer.Template.Document
import PageServer.Number.Decimal
import PageServer.Text.Alphanumeric
import PageServer.Text.Blank
import PageServer.Error

/-! # The pieces of a template source

A source is a sequence of texts and of tags between `<%` and `%>`. A tag that starts with an equals
sign is an echo, and every other tag is a sequence of words: the header of a loop or its end.
-/

namespace PageServer.Template

inductive Piece
  | text (content : String)
  | echo (elements : List Element)
  | opening (header : LoopHeader)
  | closing
deriving DecidableEq, Repr

/-- The character that stands for `c` after a backslash. -/
def unescape (c : Char) : Char :=
  if c = 'n' then '\n' else if c = 't' then '\t' else c

/-- The content of a string literal, from behind its opening quote, and what follows it. -/
def readString : List Char → Except ScriptError (List Char × List Char)
  | [] => .error (.parse "unterminated string literal")
  | '"' :: rest => .ok ([], rest)
  | '\\' :: [] => .error (.parse "dangling escape in string")
  | '\\' :: c :: rest => do
    let (content, rest) ← readString rest
    .ok (unescape c :: content, rest)
  | c :: rest => do
    let (content, rest) ← readString rest
    .ok (c :: content, rest)

/-- A string literal takes at least its closing quote. -/
theorem length_lt_of_readString {source content rest : List Char}
    (read : readString source = .ok (content, rest)) : rest.length < source.length := by
  fun_induction readString source generalizing content rest with
  | case1 => contradiction
  | case2 tail =>
    simp only [Except.ok.injEq, Prod.mk.injEq] at read
    simp [← read.2]
  | case3 => contradiction
  | case4 c tail ih =>
    match inner : readString tail with
    | .error e => simp [inner, bind, Except.bind] at read
    | .ok (more, after) =>
      simp only [inner, bind, Except.bind, Except.ok.injEq, Prod.mk.injEq] at read
      have shorter := ih inner
      simp only [← read.2, List.length_cons]
      omega
  | case5 c tail _ _ _ ih =>
    match inner : readString tail with
    | .error e => simp [inner, bind, Except.bind] at read
    | .ok (more, after) =>
      simp only [inner, bind, Except.bind, Except.ok.injEq, Prod.mk.injEq] at read
      have shorter := ih inner
      simp only [← read.2, List.length_cons]
      omega

/-- Whether a word has the form of a number: a digit or a point stands first, after at most one sign,
there is a digit, and the word can be read as a double. -/
def looksNumeric (word : List Char) : Bool :=
  let body := (Decimal.sign word).2
  (match body with
    | c :: _ => c.isDigit || c == '.'
    | [] => false) &&
    body.any Char.isDigit && (Decimal.readFloat? word).isSome

def isNameChar (c : Char) : Bool :=
  Text.isAlphanumeric c || c == '_'

def classify (word : List Char) : Element :=
  match word with
  | '$' :: name => .reference (String.ofList name)
  | _ =>
    if looksNumeric word then .literal (String.ofList word)
    else if word.all fun c => !isNameChar c then .operator (String.ofList word)
    else .function (String.ofList word)

/-- The elements of an echo. Words end at blanks, and a string literal starts at a quote that begins a
word. -/
def readElements (source : List Char) : Except ScriptError (List Element) :=
  match source with
  | [] => .ok []
  | c :: rest =>
    if Text.isBlank c then readElements rest
    else if c = '"' then
      match _read : readString rest with
      | .error e => .error e
      | .ok (content, after) => do
        let elements ← readElements after
        .ok (.literal (String.ofList content) :: elements)
    else do
      let tail := rest.dropWhile fun c => !Text.isBlank c
      let elements ← readElements tail
      .ok (classify (c :: rest.takeWhile fun c => !Text.isBlank c) :: elements)
termination_by source.length
decreasing_by
  · simp
  · have shorter := length_lt_of_readString _read
    simp only [List.length_cons]
    omega
  · have shorter := (List.dropWhile_sublist (l := rest) fun c => !Text.isBlank c).length_le
    simp only [List.length_cons]
    omega

def readOperand (word : String) : Operand :=
  match word.toList with
  | '$' :: name => .reference (String.ofList name)
  | chars => .literal (String.ofList (Text.unquote chars))

/-- The name of a loop variable. A dollar sign before it is dropped. -/
def readCounter? (word : String) : Option String :=
  let name := match word.toList with
    | '$' :: name => name
    | chars => chars
  if name ≠ [] ∧ name.all isNameChar then some (String.ofList name) else none

/-- The header that the words of a tag spell: `for VAR = START to STOP`, and `step STEP` or nothing. -/
def readHeader? (words : List String) : Option LoopHeader :=
  match words with
  | ["for", counter, "=", start, "to", stop] =>
    (readCounter? counter).map fun c => ⟨c, readOperand start, readOperand stop, none⟩
  | ["for", counter, "=", start, "to", stop, "step", step] =>
    (readCounter? counter).map fun c =>
      ⟨c, readOperand start, readOperand stop, some (readOperand step)⟩
  | _ => none

/-- A loop header that is not one. -/
def malformedHeader (words : List String) : ScriptError :=
  .parse ("malformed loop header '" ++ " ".intercalate words ++ "'")

def readTag (content : List Char) : Except ScriptError Piece :=
  match content with
  | '=' :: source => (readElements source).map .echo
  | _ =>
    match (Text.words content).map String.ofList with
    | [] => .error (.parse "empty '<% %>' tag")
    | ["end"] => .ok .closing
    | word :: rest =>
      if word = "for" then
        match readHeader? (word :: rest) with
        | some header => .ok (.opening header)
        | none => .error (malformedHeader (word :: rest))
      else .error (.parse s!"unknown directive '{word}'")

/-- A text, unless it is empty. -/
def textPiece (content : List Char) : List (Except ScriptError Piece) :=
  if content = [] then [] else [.ok (.text (String.ofList content))]

/-- The pieces of a source, in order. A tag that cannot be read stands in its place as an error, and
one that is not closed is the last. -/
def pieces (source : List Char) : List (Except ScriptError Piece) :=
  match _opens : Text.breakOn "<%".toList source with
  | none => textPiece source
  | some (before, tagged) =>
    textPiece before ++
      match _closes : Text.breakOn "%>".toList tagged with
      | none => [.error (.parse "unterminated '<%' tag")]
      | some (content, rest) => readTag content :: pieces rest
termination_by source.length
decreasing_by
  have first := Text.length_after_of_breakOn _opens
  have second := Text.length_after_of_breakOn _closes
  simp only [show "<%".toList.length = 2 from rfl, show "%>".toList.length = 2 from rfl]
    at first second
  omega

end PageServer.Template
