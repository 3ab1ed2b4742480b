import PageServer.Http.Request
import PageServer.Proofs.Http.ScannedLines

/-! # Heads as clients write them

A head can be written in many ways: its lines end with or without a carriage return, a blank line may
stand before it, blanks may stand before a value, and a value may go on over several lines. A
`WrittenHead` is a head together with such choices, and carries what makes it well-formed. The scanner
and the parser find its lines each in their own way; `parse_readHead_written` says that together they
give back what was meant, whatever follows the head and however it is delivered.
-/

namespace PageServer.Http

/-- How a line ends: with a line feed alone, or with a carriage return before it. -/
inductive LineEnd
  | bare
  | returned
deriving DecidableEq, Repr

/-- What stands between the content of a line and its line feed. -/
def LineEnd.returns : LineEnd → List Char
  | .bare => []
  | .returned => ['\r']

/-- Whether a text stays within a line. -/
def OneLine (text : List Char) : Prop :=
  '\r' ∉ text ∧ '\n' ∉ text

instance (text : List Char) : Decidable (OneLine text) :=
  inferInstanceAs (Decidable (_ ∧ _))

theorem OneLine.append {first second : List Char} (left : OneLine first) (right : OneLine second) :
    OneLine (first ++ second) := by
  simp only [OneLine, List.mem_append, not_or]
  exact ⟨⟨left.1, right.1⟩, left.2, right.2⟩

theorem OneLine.cons {c : Char} {text : List Char} (noReturn : c ≠ '\r') (noFeed : c ≠ '\n')
    (inside : OneLine text) : OneLine (c :: text) := by
  simp only [OneLine, List.mem_cons, not_or]
  exact ⟨⟨noReturn.symm, inside.1⟩, noFeed.symm, inside.2⟩

/-- A line as it is written. -/
structure Line where
  content : List Char
  ending : LineEnd
  inside : OneLine content

namespace Line

def body (line : Line) : List Char :=
  line.content ++ line.ending.returns

/-- The line with its end. -/
def chars (line : Line) : List Char :=
  line.body ++ ['\n']

def blank (ending : LineEnd) : Line :=
  ⟨[], ending, List.not_mem_nil, List.not_mem_nil⟩

theorem newline_not_mem_body (line : Line) : '\n' ∉ line.body := by
  obtain ⟨content, ending, -, inside⟩ := line
  cases ending <;> simp [body, LineEnd.returns, inside]

theorem stripReturn_body (line : Line) : RequestHead.stripReturn line.body = line.content := by
  obtain ⟨content, ending, inside, -⟩ := line
  cases ending with
  | bare =>
    have kept : content.getLast? ≠ some '\r' := fun last => inside (List.mem_of_getLast? last)
    simp only [body, LineEnd.returns, List.append_nil, RequestHead.stripReturn, if_neg kept]
  | returned =>
    simp [body, LineEnd.returns, RequestHead.stripReturn]

/-- The parser finds the contents of written lines, and behind them one line more. -/
theorem divide_lines (lines : List Line) :
    (Text.divide (· == '\n') (lines.flatMap chars)).map RequestHead.stripReturn =
      lines.map content ++ [[]] := by
  induction lines with
  | nil => rfl
  | cons line lines ih =>
    have unmarked : ∀ c ∈ line.body, (c == '\n') = false :=
      Text.unmarked_of_not_mem line.newline_not_mem_body
    rw [List.flatMap_cons, chars, List.append_assoc, List.singleton_append,
      Text.divide_append_cons unmarked (beq_self_eq_true '\n'), List.map_cons, ih,
      line.stripReturn_body, List.map_cons, List.cons_append]

def bytes (line : Line) : Bytes :=
  Text.encode (String.ofList line.chars)

theorem bytes_eq (line : Line) :
    line.bytes = Text.encode (String.ofList line.body) ++ [lineFeed] := by
  rw [bytes, chars, String.ofList_append, Text.encode_append, encode_newline]

theorem encode_lines (lines : List Line) :
    Text.encode (String.ofList (lines.flatMap chars)) = lines.flatMap bytes := by
  have codes : bytes = fun line => line.chars.flatMap String.utf8EncodeChar :=
    funext fun line => Text.encode_ofList line.chars
  rw [Text.encode_ofList, List.flatMap_assoc, codes]

/-- A line with content does not end a head. -/
theorem feed_bytes {line : Line} (filled : line.content ≠ []) (lines : Nat) :
    (⟨0, lines⟩ : HeadScanner).feed line.bytes = (⟨0, lines + 1⟩, none) := by
  have notBlank : ¬ IsBlankLine line.body := by
    intro blank
    obtain ⟨c, rest, shape⟩ := List.exists_cons_of_ne_nil filled
    have inContent : c ∈ line.content := by rw [shape]; exact List.mem_cons_self
    have isReturn := blank c (List.mem_append_left _ inContent)
    exact line.inside.1 (isReturn ▸ inContent)
  rw [bytes_eq]
  exact feed_line line.newline_not_mem_body notBlank lines

theorem feed_lines {lines : List Line} (filled : ∀ line ∈ lines, line.content ≠ []) (before : Nat) :
    (⟨0, before⟩ : HeadScanner).feed (lines.flatMap bytes) = (⟨0, before + lines.length⟩, none) := by
  induction lines generalizing before with
  | nil => rfl
  | cons line lines ih =>
    obtain ⟨filledFirst, filledRest⟩ := List.forall_mem_cons.mp filled
    have first := feed_bytes filledFirst before
    rw [List.flatMap_cons, HeadScanner.feed_append_of_none (by rw [first]), first, ih filledRest]
    simp only [Option.map_none, List.length_cons, Nat.add_comm 1, Nat.add_assoc]

/-- The first line does not end a head, even if it is blank. -/
theorem feed_blank_first (ending : LineEnd) :
    ({} : HeadScanner).feed (blank ending).bytes = (⟨0, 1⟩, none) := by
  cases ending <;> decide

/-- A later blank line ends it. -/
theorem feed_blank (ending : LineEnd) (before : Nat) (rest : Bytes) :
    ((⟨0, before + 1⟩ : HeadScanner).feed ((blank ending).bytes ++ rest)).2 =
      some (blank ending).bytes.length := by
  refine HeadScanner.feed_append_of_some ?_ rest
  cases ending with
  | bare =>
    have bytes : (blank .bare).bytes = [lineFeed] := by decide
    rw [bytes]
    rfl
  | returned =>
    have bytes : (blank .returned).bytes = [carriageReturn, lineFeed] := by decide
    rw [bytes]
    rfl

end Line

/-- A text within a line that has no blanks around it. It can be empty. -/
structure Piece where
  text : String
  inside : OneLine text.toList
  trimmed : Text.trim text.toList = text.toList

/-- Whether a character is one that sets values off: a space or a tab. -/
def IsGap (c : Char) : Prop :=
  c = ' ' ∨ c = '\t'

theorem IsGap.isBlank {c : Char} (gap : IsGap c) : Text.isBlank c = true := by
  rcases gap with rfl | rfl <;> rfl

theorem IsGap.oneLine {gap : List Char} (gaps : ∀ c ∈ gap, IsGap c) : OneLine gap := by
  constructor
  · intro member
    rcases gaps _ member with same | same <;> contradiction
  · intro member
    rcases gaps _ member with same | same <;> contradiction

/-- A line that continues a value. -/
structure Fold where
  lead : Char
  isGap : IsGap lead
  piece : Piece
  ending : LineEnd

/-- A header as it is written. Its value is made of the pieces on its lines. -/
structure WrittenHeader where
  name : Piece
  plain : ':' ∉ name.text.toList
  gap : List Char
  gaps : ∀ c ∈ gap, IsGap c
  first : Piece
  ending : LineEnd
  folds : List Fold

def Fold.line (fold : Fold) : Line where
  content := fold.lead :: fold.piece.text.toList
  ending := fold.ending
  inside := by
    rcases fold.isGap with lead | lead <;> rw [lead] <;>
      exact fold.piece.inside.cons (by decide) (by decide)

namespace WrittenHeader

def nameLine (header : WrittenHeader) : Line where
  content := header.name.text.toList ++ ':' :: (header.gap ++ header.first.text.toList)
  ending := header.ending
  inside := header.name.inside.append <|
    .cons (by decide) (by decide) ((IsGap.oneLine header.gaps).append header.first.inside)

def lines (header : WrittenHeader) : List Line :=
  header.nameLine :: header.folds.map Fold.line

/-- What the header says: its name, and its pieces with a space between each two. -/
def field (header : WrittenHeader) : String × String :=
  (header.name.text,
    " ".intercalate (header.first.text :: header.folds.map fun fold => fold.piece.text))

end WrittenHeader

structure WrittenHead where
  /-- The end of the blank line before the head, if there is one. -/
  leading : Option LineEnd := none
  target : String
  isPath : target.toList.head? = some '/'
  noSpace : ' ' ∉ target.toList
  inside : OneLine target.toList
  version : String
  known : version = "HTTP/1.0" ∨ version = "HTTP/1.1"
  ending : LineEnd
  headers : List WrittenHeader
  /-- The end of the blank line behind the head. -/
  trailing : LineEnd

namespace WrittenHead

def requestLine (head : WrittenHead) : Line where
  content := "GET".toList ++ ' ' :: (head.target.toList ++ ' ' :: head.version.toList)
  ending := head.ending
  inside := by
    have get : OneLine "GET".toList := ⟨by decide, by decide⟩
    refine get.append (.cons (by decide) (by decide) (head.inside.append ?_))
    rcases head.known with same | same <;> rw [same] <;> exact ⟨by decide, by decide⟩

/-- The lines that have content. -/
def filledLines (head : WrittenHead) : List Line :=
  head.requestLine :: head.headers.flatMap WrittenHeader.lines

def lines (head : WrittenHead) : List Line :=
  head.leading.toList.map Line.blank ++ (head.filledLines ++ [Line.blank head.trailing])

/-- The bytes in which a head is sent. -/
def wire (head : WrittenHead) : Bytes :=
  Text.encode (String.ofList (head.lines.flatMap Line.chars))

/-- What the head says. -/
def meaning (head : WrittenHead) : RequestHead :=
  ⟨"GET", head.target, head.version, head.headers.map WrittenHeader.field⟩

theorem filledLines_ne_nil (head : WrittenHead) : ∀ line ∈ head.filledLines, line.content ≠ [] := by
  intro line member
  rcases List.mem_cons.mp member with rfl | later
  · exact List.append_ne_nil_of_right_ne_nil _ (List.cons_ne_nil _ _)
  · obtain ⟨header, -, inHeader⟩ := List.mem_flatMap.mp later
    rcases List.mem_cons.mp inHeader with rfl | inFolds
    · exact List.append_ne_nil_of_right_ne_nil _ (List.cons_ne_nil _ _)
    · obtain ⟨fold, -, rfl⟩ := List.mem_map.mp inFolds
      exact List.cons_ne_nil _ _

/-- The lines before the last one leave the scanner at the start of a line that is not the first. -/
theorem feed_front (head : WrittenHead) : ∃ before, ({} : HeadScanner).feed
    ((head.leading.toList.map Line.blank ++ head.filledLines).flatMap Line.bytes) =
      (⟨0, before + 1⟩, none) := by
  have filled := head.filledLines_ne_nil
  cases head.leading with
  | none =>
    refine ⟨(head.headers.flatMap WrittenHeader.lines).length, ?_⟩
    have fed := Line.feed_lines filled 0
    rwa [Nat.zero_add] at fed
  | some ending =>
    refine ⟨head.filledLines.length, ?_⟩
    have first := Line.feed_blank_first ending
    rw [Option.toList_some, List.map_singleton, List.flatMap_append, List.flatMap_singleton,
      HeadScanner.feed_append_of_none (by rw [first]), first, Line.feed_lines filled 1, Nat.add_comm]
    rfl

theorem headEnd?_wire (head : WrittenHead) (rest : Bytes) :
    headEnd? (head.wire ++ rest) = some head.wire.length := by
  obtain ⟨before, front⟩ := head.feed_front
  rw [wire, Line.encode_lines, lines, ← List.append_assoc, List.flatMap_append,
    List.flatMap_singleton, List.append_assoc, ← HeadScanner.feed_eq_headEnd?,
    HeadScanner.feed_append_of_none (by rw [front]), front]
  simp only [Line.feed_blank, Option.map_some, List.length_append, Nat.add_comm]

end WrittenHead

theorem Fold.readHeaders_line (fold : Fold) (name value : String) (done : List (String × String))
    (rest : List (List Char)) :
    RequestHead.readHeaders ((name, value) :: done) (fold.line.content :: rest) =
      RequestHead.readHeaders ((name, value ++ " " ++ fold.piece.text) :: done) rest := by
  have continues : RequestHead.continues fold.line.content = true := by
    rcases fold.isGap with lead | lead <;> simp [Fold.line, RequestHead.continues, lead]
  have piece : Text.trim fold.line.content = fold.piece.text.toList :=
    (Text.trim_cons_of_blank fold.isGap.isBlank _).trans fold.piece.trimmed
  have filled : fold.line.content ≠ [] := List.cons_ne_nil _ _
  rw [RequestHead.readHeaders, if_neg filled, if_pos continues, piece, String.ofList_toList]

theorem readHeaders_folds (folds : List Fold) (name value : String) (done : List (String × String))
    (rest : List (List Char)) :
    RequestHead.readHeaders ((name, value) :: done)
        (folds.map (fun fold => fold.line.content) ++ rest) =
      RequestHead.readHeaders ((name,
        " ".intercalate (value :: folds.map fun fold => fold.piece.text)) :: done) rest := by
  induction folds generalizing value with
  | nil => rfl
  | cons fold folds ih =>
    rw [List.map_cons, List.cons_append, fold.readHeaders_line, ih]
    rfl

namespace WrittenHeader

theorem continues_nameLine (header : WrittenHeader) :
    RequestHead.continues header.nameLine.content = false := by
  cases shape : header.name.text.toList with
  | nil => simp [nameLine, shape, RequestHead.continues]
  | cons c rest =>
    have trimmed := header.name.trimmed
    rw [shape] at trimmed
    have solid := Text.isBlank_head_of_trimmed trimmed
    have noGap : ¬ IsGap c := fun gap => by
      rw [gap.isBlank] at solid
      contradiction
    rw [IsGap, not_or] at noGap
    simp [nameLine, shape, RequestHead.continues, noGap]

theorem readHeaders_nameLine (header : WrittenHeader) (done : List (String × String))
    (rest : List (List Char)) :
    RequestHead.readHeaders done (header.nameLine.content :: rest) =
      RequestHead.readHeaders ((header.name.text, header.first.text) :: done) rest := by
  have filled : header.nameLine.content ≠ [] :=
    List.append_ne_nil_of_right_ne_nil _ (List.cons_ne_nil _ _)
  have cut : Text.cut ':' header.nameLine.content =
      some (header.name.text.toList, header.gap ++ header.first.text.toList) :=
    Text.cut_append_cons header.plain _
  have value : Text.trim (header.gap ++ header.first.text.toList) = header.first.text.toList :=
    (Text.trim_append_of_blank (fun c member => (header.gaps c member).isBlank) _).trans
      header.first.trimmed
  rw [RequestHead.readHeaders.eq_def]
  simp only [filled, ↓reduceIte, header.continues_nameLine, Bool.false_eq_true, cut, value,
    header.name.trimmed, String.ofList_toList]

theorem readHeaders_lines (header : WrittenHeader) (done : List (String × String))
    (rest : List (List Char)) :
    RequestHead.readHeaders done (header.lines.map Line.content ++ rest) =
      RequestHead.readHeaders (header.field :: done) rest := by
  rw [lines, List.map_cons, List.cons_append, header.readHeaders_nameLine, List.map_map]
  exact readHeaders_folds header.folds header.name.text header.first.text done rest

end WrittenHeader

theorem readHeaders_headers (headers : List WrittenHeader) (done : List (String × String))
    (rest : List (List Char)) :
    RequestHead.readHeaders done
        ((headers.flatMap WrittenHeader.lines).map Line.content ++ [] :: rest) =
      .ok (done.reverse ++ headers.map WrittenHeader.field) := by
  induction headers generalizing done with
  | nil => simp [RequestHead.readHeaders]
  | cons header headers ih =>
    rw [List.flatMap_cons, List.map_append, List.append_assoc, header.readHeaders_lines, ih]
    simp only [List.reverse_cons, List.append_assoc, List.singleton_append, List.map_cons]

namespace WrittenHead

theorem readRequestLine_requestLine (head : WrittenHead) :
    RequestHead.readRequestLine head.requestLine.content =
      .ok ("GET", head.target, head.version) := by
  have version : ' ' ∉ head.version.toList := by
    rcases head.known with same | same <;> rw [same] <;> decide
  have parts : Text.divide (· == ' ') head.requestLine.content =
      ["GET".toList, head.target.toList, head.version.toList] := by
    rw [requestLine,
      Text.divide_append_cons (Text.unmarked_of_not_mem (by decide)) (beq_self_eq_true ' '),
      Text.divide_append_cons (Text.unmarked_of_not_mem head.noSpace) (beq_self_eq_true ' '),
      Text.divide_eq_singleton (Text.unmarked_of_not_mem version)]
  rw [RequestHead.readRequestLine]
  simp only [parts, String.ofList_toList]
  rcases head.known with known | known <;> simp [known, head.isPath]

/-- The lines from the request line on are those that were written, with an empty one at the end. -/
theorem lines_text (head : WrittenHead) : RequestHead.lines (head.lines.flatMap Line.chars) =
    head.requestLine.content ::
      ((head.headers.flatMap WrittenHeader.lines).map Line.content ++ [[], []]) := by
  have filled : head.requestLine.content ≠ [] :=
    List.append_ne_nil_of_right_ne_nil _ (List.cons_ne_nil _ _)
  rw [RequestHead.lines, Line.divide_lines, lines, filledLines]
  cases head.leading <;> simp [Line.blank, filled]

theorem parse_wire (head : WrittenHead) : RequestHead.parse head.wire = .ok head.meaning := by
  rw [RequestHead.parse, wire, Text.decode?_encode]
  simp only [String.toList_ofList, lines_text, RequestHead.ofLines, readRequestLine_requestLine,
    readHeaders_headers, bind, Except.bind]
  rfl

end WrittenHead

/-- A written head that is not too long is read back as what it says, in whatever portions it arrives
and whatever follows it. -/
theorem parse_readHead_written (head : WrittenHead) (body : Bytes) (portions : List Bytes)
    (filled : ∀ portion ∈ portions, portion ≠ []) (whole : portions.flatten = head.wire ++ body)
    (later : Stream) (limit : Nat) (short : head.wire.length ≤ limit) :
    (readHead limit (portions.map .bytes ++ later) >>= RequestHead.parse) = .ok head.meaning := by
  have arrives : delivered (portions.map .bytes ++ later) = head.wire ++ (body ++ delivered later) := by
    rw [delivered_portions filled, whole, List.append_assoc]
  have read : readHead limit (portions.map .bytes ++ later) = .ok head.wire := by
    have ends : headEnd? (delivered (portions.map .bytes ++ later)) = some head.wire.length := by
      rw [arrives, head.headEnd?_wire]
    rw [readHead_of_end ends, if_pos short, arrives, List.take_left]
  rw [read]
  simp only [bind, Except.bind, head.parse_wire]

/-- A head behind a blank line, with a value that is folded around an empty piece. -/
def foldedHead : WrittenHead where
  leading := some .returned
  target := "/a?b"
  isPath := by decide
  noSpace := by decide
  inside := ⟨by decide, by decide⟩
  version := "HTTP/1.0"
  known := .inl rfl
  ending := .bare
  headers := [{
    name := ⟨"é", ⟨by decide, by decide⟩, by decide⟩
    plain := by decide
    gap := ['\t']
    gaps := by simp [IsGap]
    first := ⟨"x", ⟨by decide, by decide⟩, by decide⟩
    ending := .returned
    folds := [
      ⟨' ', .inl rfl, ⟨"", ⟨by decide, by decide⟩, by decide⟩, .bare⟩,
      ⟨'\t', .inr rfl, ⟨"y", ⟨by decide, by decide⟩, by decide⟩, .returned⟩] }]
  trailing := .returned

/-- The portions part within the last line end, and what follows is no UTF-8. -/
theorem parse_readHead_foldedHead :
    let portions := [foldedHead.wire.dropLast, [lineFeed, 0xFF]]
    ((∀ portion ∈ portions, portion ≠ []) ∧ portions.flatten = foldedHead.wire ++ [0xFF] ∧
      foldedHead.wire.length ≤ 35) ∧
      (readHead 35 (portions.map .bytes ++ [.failure "reset"]) >>= RequestHead.parse) =
        .ok ⟨"GET", "/a?b", "HTTP/1.0", [("é", "x  y")]⟩ :=
  ⟨⟨by decide, by decide, by decide⟩,
    parse_readHead_written foldedHead [0xFF] _ (by decide) (by decide) _ 35 (by decide)⟩

end PageServer.Http
