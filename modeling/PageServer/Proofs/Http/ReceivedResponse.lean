import PageServer.Proofs.Http.HeaderBlock

/-! # Responses as clients read them

A client that reads a response as the server reads a request finds the header block up to its first blank line,
and takes what stands behind it for the body. If no line of the block has a line feed in it, these are the
lines that were written and the body that was sent (`received?_block`). Only one field of a head gives a line
that states a length (`ResponseHead.contentLength_of_isLengthLine`), and only its cookies give lines that set
cookies (`ResponseHead.cookieLines_eq`).
-/

namespace PageServer.Http

/-- The lines of the header block of a response, with the empty ones at its end, and the bytes behind it. -/
def received? (response : Bytes) : Option (List (List Char) × Bytes) :=
  (headEnd? response).bind fun e =>
    (Text.decode? (response.take e)).map fun text =>
      ((Text.divide (· == '\n') text.toList).map RequestHead.stripReturn, response.drop e)

def block (lines : List String) : String :=
  String.join (lines.map (· ++ "\r\n")) ++ "\r\n"

theorem toList_block (lines : List String) :
    (block lines).toList = broken (lines.map (fun line => line.toList ++ ['\r']) ++ [['\r']]) := by
  have joined : (String.join (lines.map (· ++ "\r\n"))).toList =
      broken (lines.map fun line => line.toList ++ ['\r']) := by
    induction lines with
    | nil => rfl
    | cons line lines ih =>
      have ends : "\r\n".toList = ['\r'] ++ ['\n'] := by decide
      rw [List.map_cons, String.join_cons, String.toList_append, ih, List.map_cons, broken, broken,
        List.flatMap_cons, String.toList_append, ends, ← List.append_assoc line.toList]
  rw [block, String.toList_append, joined, broken_append]
  rfl

theorem stripReturn_concat (line : List Char) : RequestHead.stripReturn (line ++ ['\r']) = line := by
  rw [RequestHead.stripReturn, List.getLast?_concat, if_pos rfl, List.dropLast_concat]

/-- Lines that are not blank and hold no line feed are found again, before the body that was sent. -/
theorem received?_block (lines : List String) (nonempty : lines ≠ [])
    (unbroken : ∀ line ∈ lines, '\n' ∉ line.toList)
    (filled : ∀ line ∈ lines, ¬ IsBlankLine line.toList) (body : Bytes) :
    received? (Text.encode (block lines) ++ body) = some (lines.map String.toList ++ [[], []], body) := by
  let written := lines.map fun line => line.toList ++ ['\r']
  have whole : block lines = String.ofList (broken (written ++ [['\r']])) := by
    rw [← toList_block, String.ofList_toList]
  have unbrokenWritten : ∀ line ∈ written, '\n' ∉ line := List.forall_mem_map.mpr fun line member => by
    simpa using unbroken line member
  have filledWritten : ∀ line ∈ written, ¬ IsBlankLine line := List.forall_mem_map.mpr
    fun line member blank => filled line member fun c inside => blank c (List.mem_append_left _ inside)
  have blank : IsBlankLine ['\r'] := fun c member => List.mem_singleton.mp member
  have ends : headEnd? (Text.encode (block lines) ++ body) = some (Text.encode (block lines)).length := by
    obtain ⟨first, middle, shape⟩ := List.exists_cons_of_ne_nil (l := written) (by simpa [written])
    rw [shape] at whole unbrokenWritten filledWritten
    rw [whole]
    exact headEnd?_broken unbrokenWritten filledWritten blank body
  have divided : (Text.divide (· == '\n') (block lines).toList).map RequestHead.stripReturn =
      lines.map String.toList ++ [[], []] := by
    have unbrokenAll : ∀ line ∈ written ++ [['\r']], '\n' ∉ line :=
      List.forall_mem_append.mpr ⟨unbrokenWritten, List.forall_mem_singleton.mpr (by decide)⟩
    have parts := Text.divide_flatMap_append unbrokenAll []
    rw [List.append_nil] at parts
    rw [toList_block, broken, parts, List.map_append, List.map_append, List.map_map]
    have contents : lines.map (RequestHead.stripReturn ∘ fun line => line.toList ++ ['\r']) =
        lines.map String.toList := List.map_congr_left fun line _ => stripReturn_concat line.toList
    rw [contents, List.append_assoc]
    rfl
  rw [received?, ends, Option.bind_some, List.take_left, Text.decode?_encode, Option.map_some, divided,
    List.drop_left]

/-- Whether a line belongs to a field. The name of the field, which is given with its colon, can be in any
case. -/
def isFieldLine (field : String) (line : List Char) : Bool :=
  Text.sameIgnoringCase (line.take field.toList.length) field.toList

def isLengthLine (line : List Char) : Bool :=
  isFieldLine "Content-Length:" line

def isCookieLine (line : List Char) : Bool :=
  isFieldLine "Set-Cookie:" line

section FieldLines

variable {field start : String}

theorem getElem?_of_isFieldLine {text : List Char} (belongs : isFieldLine field text = true) {i : Nat}
    (inside : i < field.toList.length) : text[i]?.map Char.toLower = (Text.lower field.toList)[i]? := by
  have same := Text.sameIgnoringCase_iff.mp belongs
  rw [← same, Text.lower, List.getElem?_map, List.getElem?_take_of_lt inside]

/-- A line that differs from the name of the field at some place does not belong to the field. -/
theorem isFieldLine_append_of_ne (i : Nat) {c : Char} (found : start.toList[i]? = some c)
    (inside : i < field.toList.length) (other : some c.toLower ≠ (Text.lower field.toList)[i]?)
    (rest : String) : isFieldLine field (start ++ rest).toList = false := by
  refine Bool.eq_false_iff.mpr fun belongs => other ?_
  have whole : (start ++ rest).toList[i]? = some c := by
    rw [String.toList_append, List.getElem?_append_left (List.getElem?_eq_some_iff.mp found).1, found]
  rw [← getElem?_of_isFieldLine belongs inside, whole, Option.map_some]

theorem isFieldLine_append (long : field.toList.length ≤ start.toList.length) (rest : String) :
    isFieldLine field (start ++ rest).toList = isFieldLine field start.toList := by
  rw [isFieldLine, isFieldLine, String.toList_append, List.take_append_of_le_length long]

end FieldLines

namespace ResponseHead

variable {head : ResponseHead} {line : String}

theorem render_eq_block (head : ResponseHead) : head.render = block head.lines := rfl

/-- A line of a head that states a length states the one that the head declares. -/
theorem contentLength_of_isLengthLine (member : line ∈ head.lines) (states : isLengthLine line.toList = true) :
    ∃ n, head.contentLength = some n ∧ line = s!"Content-Length: {n}" := by
  rw [isLengthLine] at states
  rcases mem_lines_cases member with rfl | rfl | length | ⟨c, -, rfl⟩
  · have first : "HTTP/1.1 ".toList[0]? = some 'H' := by decide
    rw [isFieldLine_append_of_ne 0 first (by decide) (by decide)] at states
    contradiction
  · have ninth : "Content-Type: ".toList[8]? = some 'T' := by decide
    rw [isFieldLine_append_of_ne 8 ninth (by decide) (by decide)] at states
    contradiction
  · exact length
  · have first : "Set-Cookie: ".toList[0]? = some 'S' := by decide
    rw [isFieldLine_append_of_ne 0 first (by decide) (by decide)] at states
    contradiction

def cookieLines (head : ResponseHead) : List String :=
  head.lines.filter fun line => isCookieLine line.toList

/-- The lines that set cookies are those of the cookies, and no others. -/
theorem cookieLines_eq (head : ResponseHead) :
    head.cookieLines = head.cookies.map fun c => "Set-Cookie: " ++ c.render := by
  have status : isCookieLine (s!"HTTP/1.1 {head.status} {head.reason}").toList = false := by
    have first : "HTTP/1.1 ".toList[0]? = some 'H' := by decide
    rw [statusLine_eq]
    exact isFieldLine_append_of_ne 0 first (by decide) (by decide) _
  have type : isCookieLine ("Content-Type: " ++ head.contentType).toList = false := by
    have first : "Content-Type: ".toList[0]? = some 'C' := by decide
    exact isFieldLine_append_of_ne 0 first (by decide) (by decide) _
  have length (n : Nat) : isCookieLine (s!"Content-Length: {n}").toList = false := by
    have whole : s!"Content-Length: {n}" = "Content-Length: " ++ toString n := rfl
    have first : "Content-Length: ".toList[0]? = some 'C' := by decide
    rw [whole]
    exact isFieldLine_append_of_ne 0 first (by decide) (by decide) _
  have cookies : ∀ line ∈ head.cookies.map (fun c => "Set-Cookie: " ++ c.render),
      isCookieLine line.toList = true := by
    refine List.forall_mem_map.mpr fun c _ => ?_
    have named : isFieldLine "Set-Cookie:" "Set-Cookie: ".toList = true := by decide
    rw [isCookieLine, isFieldLine_append (by decide), named]
  rw [cookieLines, lines, List.filter_append, List.filter_append, List.filter_eq_self.mpr cookies]
  cases head.contentLength with
  | none =>
    simp only [Option.map_none, Option.toList_none, List.filter_cons, List.filter_nil, status, type,
      Bool.false_eq_true, ↓reduceIte, List.nil_append]
  | some n =>
    simp only [Option.map_some, Option.toList_some, List.filter_cons, List.filter_nil, status, type, length,
      Bool.false_eq_true, ↓reduceIte, List.nil_append]

end ResponseHead

variable {head : ResponseHead}

/-- A response whose lines hold no line feeds is received as it was written. -/
theorem received?_render (unbroken : ∀ line ∈ head.lines, '\n' ∉ line.toList) (body : Bytes) :
    received? (Text.encode head.render ++ body) = some (head.lines.map String.toList ++ [[], []], body) := by
  have nonempty : head.lines ≠ [] := by simp [ResponseHead.lines]
  rw [ResponseHead.render_eq_block]
  exact received?_block head.lines nonempty unbroken (fun _ => ResponseHead.not_isBlankLine_of_mem_lines) body

/-- A client that reads the response finds these lines that set cookies, and no others. -/
def SetsCookies (response : Bytes) (lines : List String) : Prop :=
  ∃ received body, received? response = some (received, body) ∧
    received.filter isCookieLine = lines.map String.toList

theorem setsCookies_render (unbroken : ∀ line ∈ head.lines, '\n' ∉ line.toList) (body : Bytes) :
    SetsCookies (Text.encode head.render ++ body) head.cookieLines := by
  refine ⟨_, body, received?_render unbroken body, ?_⟩
  have ends : [[], []].filter isCookieLine = [] := by decide
  rw [List.filter_append, ends, List.append_nil, List.filter_map, ResponseHead.cookieLines]
  rfl

/-- Each line of the header block that states a length states the one of what stands behind the block. -/
def DeclaresTruly (response : Bytes) : Prop :=
  ∃ lines body, received? response = some (lines, body) ∧
    ∀ line ∈ lines, isLengthLine line = true → line = (s!"Content-Length: {body.length}").toList

theorem declaresTruly_badRequest : DeclaresTruly (Text.encode badRequest) := by
  let lines := ["HTTP/1.1 400 Bad request", "Content-Length: 0", "Connection: close"]
  have whole : badRequest = block lines := by decide
  have read := received?_block lines (by decide) (by decide) (by decide) []
  rw [List.append_nil, ← whole] at read
  exact ⟨_, _, read, by decide⟩

/-- A response whose head declares no other length than the true one, and whose lines hold no line feeds. -/
theorem declaresTruly_render {body : Bytes} (unbroken : ∀ line ∈ head.lines, '\n' ∉ line.toList)
    (declared : ∀ n, head.contentLength = some n → n = body.length) :
    DeclaresTruly (Text.encode head.render ++ body) := by
  refine ⟨_, body, received?_render unbroken body, ?_⟩
  intro line member states
  rcases List.mem_append.mp member with among | empty
  · obtain ⟨text, present, rfl⟩ := List.mem_map.mp among
    obtain ⟨n, given, rfl⟩ := ResponseHead.contentLength_of_isLengthLine present states
    rw [declared n given]
  · -- an empty line states nothing
    have blank : line = [] := by simpa using empty
    rw [blank] at states
    exact absurd states (by decide)

end PageServer.Http
