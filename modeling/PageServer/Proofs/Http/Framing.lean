import PageServer.Proofs.Http.HeaderBlock

/-! # Where a header block ends, and what it says

A header block whose texts stay within their lines consists of lines with content and a blank line. A scanner
that is fed the block and a body in portions stops just behind the blank line, whatever the body starts with
(`findEnd_render`). The lines are found again when the block is taken apart, and each field in its line, so
that blocks are equal only if they say the same (`findEnd_render_and_fields_of_render`).
-/

namespace PageServer.Http

namespace HeadScanner

/-- The first end that a scanner reports in the portions that it is fed, counted from the start of the first
portion. -/
def findEnd (s : HeadScanner) : List Bytes → Option Nat
  | [] => none
  | portion :: rest =>
    match s.feed portion with
    | (_, some offset) => some offset
    | (next, none) => (next.findEnd rest).map (· + portion.length)

/-- It does not matter how the bytes were cut into portions. -/
theorem findEnd_eq_feed_flatten (s : HeadScanner) (portions : List Bytes) :
    s.findEnd portions = (s.feed portions.flatten).2 := by
  induction portions generalizing s with
  | nil => rfl
  | cons portion rest ih =>
    rw [List.flatten_cons, findEnd]
    rcases fed : s.feed portion with ⟨next, _ | offset⟩
    · have unseen : (s.feed portion).2 = none := by rw [fed]
      rw [feed_append_of_none unseen, fed]
      simp only [ih next]
    · have found : (s.feed portion).2 = some offset := by rw [fed]
      rw [feed_append_of_some found]

end HeadScanner

theorem oneLine_join {texts : List String} (inside : ∀ text ∈ texts, OneLine text.toList) :
    OneLine (String.join texts).toList := by
  simp only [OneLine, String.toList_join, List.mem_flatMap, not_exists, not_and]
  exact ⟨fun text member => (inside text member).1, fun text member => (inside text member).2⟩

theorem oneLine_toString_int (n : Int) : OneLine (toString n).toList := by
  cases n with
  | ofNat n => exact oneLine_toString n
  | negSucc n =>
    have negative : (toString (Int.negSucc n)).toList = '-' :: (toString (n + 1)).toList := by
      simp [toString, Int.repr]
    rw [negative]
    exact (oneLine_toString (n + 1)).cons (by decide) (by decide)

namespace Cookie

/-- The texts of a cookie stay within a line. -/
structure Tidy (c : Cookie) : Prop where
  name : OneLine c.name.toList
  value : OneLine c.value.toList
  domain : ∀ domain ∈ c.domain, OneLine domain.toList
  path : ∀ path ∈ c.path, OneLine path.toList

variable {c : Cookie}

theorem Tidy.oneLine_of_mem_attributes (tidy : c.Tidy) {text : String} (member : text ∈ c.attributes) :
    OneLine text.toList := by
  have named {mark rest : String} (plain : OneLine mark.toList) (inside : OneLine rest.toList) :
      OneLine (mark ++ rest).toList := by
    rw [String.toList_append]
    exact plain.append inside
  simp only [attributes, List.mem_append, Option.mem_toList,
    Option.map_eq_some_iff] at member
  rcases member with ((⟨domain, given, rfl⟩ | ⟨path, given, rfl⟩) | ⟨age, -, rfl⟩) | http
  · exact named (by decide) (tidy.domain domain given)
  · exact named (by decide) (tidy.path path given)
  · exact named (by decide) (oneLine_toString_int age)
  · split at http
    · rw [List.mem_singleton.mp http]
      decide
    · contradiction

theorem Tidy.oneLine_render (tidy : c.Tidy) : OneLine c.render.toList := by
  have pair : OneLine c.pair.toList := by
    have opens : OneLine "=\"".toList := by decide
    have closes : OneLine "\"".toList := by decide
    simp only [Cookie.pair, String.toList_append]
    exact ((tidy.name.append opens).append tidy.value).append closes
  rw [render, String.toList_append]
  refine pair.append (oneLine_join (List.forall_mem_map.mpr fun text member => ?_))
  have mark : OneLine "; ".toList := by decide
  rw [String.toList_append]
  exact mark.append (tidy.oneLine_of_mem_attributes member)

end Cookie

namespace ResponseHead

/-- All texts of a head stay within their lines. -/
structure WhollyTidy (head : ResponseHead) : Prop extends Tidy head where
  cookies : ∀ c ∈ head.cookies, c.Tidy

variable {head : ResponseHead}

theorem WhollyTidy.oneLine_of_mem_lines (tidy : head.WhollyTidy) {line : String}
    (member : line ∈ head.lines) : OneLine line.toList := by
  rcases tidy.toTidy.oneLine_of_mem_lines member with inside | ⟨c, present, rfl⟩
  · exact inside
  · have mark : OneLine "Set-Cookie: ".toList := by decide
    rw [String.toList_append]
    exact mark.append (tidy.cookies c present).oneLine_render

theorem toList_ne_nil_of_mem_lines {line : String} (member : line ∈ head.lines) : line.toList ≠ [] := by
  intro empty
  refine not_isBlankLine_of_mem_lines member ?_
  rw [empty]
  exact List.forall_mem_nil _

/-- Lines that are sent with their ends are written lines. -/
theorem exists_written {lines : List String} (inside : ∀ line ∈ lines, OneLine line.toList) :
    ∃ written : List Line, written.map Line.content = lines.map String.toList ∧
      (String.join (lines.map (· ++ "\r\n"))).toList = written.flatMap Line.chars := by
  induction lines with
  | nil => exact ⟨[], rfl, rfl⟩
  | cons line lines ih =>
    obtain ⟨first, others⟩ := List.forall_mem_cons.mp inside
    obtain ⟨written, same, joined⟩ := ih others
    refine ⟨⟨line.toList, .returned, first⟩ :: written, by simp [same], ?_⟩
    have ends : "\r\n".toList = LineEnd.returned.returns ++ ['\n'] := by decide
    simp only [List.map_cons, String.join_cons, String.toList_append, joined, ends, List.flatMap_cons,
      Line.chars, Line.body, List.append_assoc]

/-- A tidy block consists of written lines, the last one blank. -/
theorem WhollyTidy.exists_written_render (tidy : head.WhollyTidy) :
    ∃ written : List Line, written.map Line.content = head.lines.map String.toList ∧
      head.render.toList = (written ++ [Line.blank .returned]).flatMap Line.chars := by
  obtain ⟨written, same, joined⟩ := exists_written fun _ => tidy.oneLine_of_mem_lines
  refine ⟨written, same, ?_⟩
  have last : "\r\n".toList = (Line.blank .returned).chars := by decide
  rw [render, String.toList_append, joined, last, List.flatMap_append, List.flatMap_singleton]

/-- A scanner stops just behind the block. -/
theorem WhollyTidy.feed_render (tidy : head.WhollyTidy) (body : Bytes) :
    (({} : HeadScanner).feed (Text.encode head.render ++ body)).2 =
      some (Text.encode head.render).length := by
  obtain ⟨written, same, whole⟩ := tidy.exists_written_render
  have filled : ∀ line ∈ written, line.content ≠ [] := by
    intro line member
    have content : line.content ∈ head.lines.map String.toList :=
      same ▸ List.mem_map_of_mem (f := Line.content) member
    obtain ⟨text, present, shape⟩ := List.mem_map.mp content
    exact shape ▸ toList_ne_nil_of_mem_lines present
  obtain ⟨before, count⟩ : ∃ before, written.length = before + 1 := by
    have lengths := congrArg List.length same
    simp only [List.length_map, lines, List.length_append, List.length_cons] at lengths
    exact ⟨written.length - 1, by omega⟩
  have fed := Line.feed_lines filled 0
  rw [Nat.zero_add, count] at fed
  have bytes : Text.encode head.render = written.flatMap Line.bytes ++ (Line.blank .returned).bytes := by
    rw [← String.ofList_toList (s := head.render), whole, Line.encode_lines, List.flatMap_append,
      List.flatMap_singleton]
  have start : ({} : HeadScanner) = ⟨0, 0⟩ := rfl
  rw [bytes, List.append_assoc, start, HeadScanner.feed_append_of_none (by rw [fed]), fed]
  simp only [Line.feed_blank, Option.map_some, List.length_append, Nat.add_comm]

theorem findEnd_render (tidy : head.WhollyTidy) {body : Bytes} {portions : List Bytes}
    (cut : portions.flatten = Text.encode head.render ++ body) :
    ({} : HeadScanner).findEnd portions = some (Text.encode head.render).length := by
  rw [HeadScanner.findEnd_eq_feed_flatten, cut, tidy.feed_render]

/-- The lines of a tidy block are found again in it. -/
theorem WhollyTidy.divide_render (tidy : head.WhollyTidy) :
    (Text.divide (· == '\n') head.render.toList).map RequestHead.stripReturn =
      head.lines.map String.toList ++ [[], []] := by
  obtain ⟨written, same, whole⟩ := tidy.exists_written_render
  rw [whole, Line.divide_lines, List.map_append, same, List.append_assoc]
  rfl

theorem lines_eq_of_render {other : ResponseHead} (tidy : head.WhollyTidy) (tidyOther : other.WhollyTidy)
    (same : other.render = head.render) : other.lines = head.lines := by
  have divided := tidyOther.divide_render
  rw [same, tidy.divide_render] at divided
  have contents := List.append_cancel_right divided
  exact ((List.map_inj_right fun _ _ => String.toList_inj.mp).mp contents).symm

theorem toString_inj {m n : Nat} (same : toString m = toString n) : m = n := by
  have read (n : Nat) : Nat.ofDigitChars 10 (toString n).toList 0 = n := by
    rw [Nat.toString_eq_repr, Nat.toList_repr]
    exact Nat.ofDigitChars_toDigits (by decide) (by decide)
  rw [← read m, same, read]

/-- The status line tells the status, which holds no space, and the reason behind it. -/
theorem statusLine_inj {status other : Nat} {reason otherReason : String}
    (same : s!"HTTP/1.1 {other} {otherReason}" = s!"HTTP/1.1 {status} {reason}") :
    other = status ∧ otherReason = reason := by
  have unmarked (n : Nat) : ' ' ∉ (toString n).toList := fun member =>
    absurd (isDigit_of_mem_toString member) (by decide)
  have whole := congrArg String.toList same
  rw [toList_statusLine, toList_statusLine] at whole
  have found := Text.cut_append_cons (unmarked other) otherReason.toList
  rw [List.append_cancel_left whole, Text.cut_append_cons (unmarked status)] at found
  obtain ⟨digits, behind⟩ := Prod.mk.inj (Option.some.inj found)
  exact ⟨toString_inj (String.toList_inj.mp digits.symm), String.toList_inj.mp behind.symm⟩

theorem cookieLine_ne_lengthLine (c : Cookie) (n : Nat) :
    "Set-Cookie: " ++ c.render ≠ s!"Content-Length: {n}" := by
  intro same
  have first := congrArg (·.toList.head?) same
  simp [toString] at first

theorem cookieLines_inj {cookies others : List Cookie}
    (same : others.map (fun c => "Set-Cookie: " ++ c.render) =
      cookies.map fun c => "Set-Cookie: " ++ c.render) :
    others.map Cookie.render = cookies.map Cookie.render := by
  have lines (cookies : List Cookie) : cookies.map (fun c => "Set-Cookie: " ++ c.render) =
      (cookies.map Cookie.render).map ("Set-Cookie: " ++ ·) := List.map_map.symm
  rw [lines, lines] at same
  exact (List.map_inj_right fun _ _ => (String.append_right_inj _).mp).mp same

/-- The lines behind the type tell the length, if there is one, and the cookies. -/
theorem fields_inj {length other : Option Nat} {cookies others : List Cookie}
    (same : (other.map fun n => s!"Content-Length: {n}").toList ++
        others.map (fun c => "Set-Cookie: " ++ c.render) =
      (length.map fun n => s!"Content-Length: {n}").toList ++
        cookies.map fun c => "Set-Cookie: " ++ c.render) :
    other = length ∧ others.map Cookie.render = cookies.map Cookie.render := by
  cases other with
  | none =>
    cases length with
    | none => exact ⟨rfl, cookieLines_inj same⟩
    | some n =>
      cases others with
      | nil => contradiction
      | cons c others => exact absurd (List.cons.inj same).1 (cookieLine_ne_lengthLine c n)
  | some m =>
    cases length with
    | none =>
      cases cookies with
      | nil => contradiction
      | cons c cookies => exact absurd (List.cons.inj same).1.symm (cookieLine_ne_lengthLine c m)
    | some n =>
      obtain ⟨first, rest⟩ := List.cons.inj same
      have number : m = n := toString_inj ((String.append_right_inj _).mp first)
      exact ⟨congrArg some number, cookieLines_inj rest⟩

/-- Tidy blocks are equal only if they say the same. -/
theorem fields_eq_of_render {other : ResponseHead} (tidy : head.WhollyTidy) (tidyOther : other.WhollyTidy)
    (same : other.render = head.render) :
    other.status = head.status ∧ other.reason = head.reason ∧ other.contentType = head.contentType ∧
      other.contentLength = head.contentLength ∧
      other.cookies.map Cookie.render = head.cookies.map Cookie.render := by
  have all := lines_eq_of_render tidy tidyOther same
  simp only [lines, List.cons_append, List.nil_append, List.cons.injEq] at all
  obtain ⟨first, second, rest⟩ := all
  obtain ⟨status, reason⟩ := statusLine_inj first
  obtain ⟨length, cookies⟩ := fields_inj rest
  exact ⟨status, reason, (String.append_right_inj _).mp second, length, cookies⟩

/-- A scanner that is fed a block and a body in any portions first reports an end just behind the block, and
from equal blocks the same fields are read. -/
theorem findEnd_render_and_fields_of_render (tidy : head.WhollyTidy) :
    (∀ (body : Bytes) (portions : List Bytes), portions.flatten = Text.encode head.render ++ body →
      ({} : HeadScanner).findEnd portions = some (Text.encode head.render).length) ∧
    ∀ other : ResponseHead, other.WhollyTidy → Text.encode other.render = Text.encode head.render →
      other.status = head.status ∧ other.reason = head.reason ∧ other.contentType = head.contentType ∧
        other.contentLength = head.contentLength ∧
        other.cookies.map Cookie.render = head.cookies.map Cookie.render := by
  refine ⟨fun body portions cut => findEnd_render tidy cut, fun other tidyOther same => ?_⟩
  have decoded := congrArg Text.decode? same
  rw [Text.decode?_encode, Text.decode?_encode] at decoded
  exact fields_eq_of_render tidy tidyOther (Option.some.inj decoded)

/-- A block with an empty reason and an empty type ends before the blank lines of its body, even if each byte
is fed by itself. Another encoding and another attribute of its cookie can give the same block. -/
theorem findEnd_render_and_fields_of_render_empty :
    let head (encoding : String) (cookie : Cookie) : ResponseHead :=
      { status := 204, reason := "", mediaType := "", encoding, contentLength := some 0,
        cookies := [cookie] }
    let split : Cookie := { name := "a", value := "", path := some "/", httpOnly := true }
    let joined : Cookie := { name := "a", value := "", path := some "/; HttpOnly" }
    let body : Bytes := [carriageReturn, lineFeed, lineFeed, 65]
    let portions : List Bytes := (Text.encode (head "UTF-8" split).render ++ body).map ([·])
    let block := "HTTP/1.1 204 \r\nContent-Type: \r\nContent-Length: 0\r\n" ++
      "Set-Cookie: a=\"\"; Path=/; HttpOnly\r\n\r\n"
    (head "UTF-8" split).render = block ∧ (head "" joined).render = block ∧
      (head "UTF-8" split).WhollyTidy ∧ (head "" joined).WhollyTidy ∧
      ({} : HeadScanner).findEnd portions = some 88 ∧
      (head "" joined).cookies.map Cookie.render = (head "UTF-8" split).cookies.map Cookie.render := by
  intro head split joined body portions block
  have written : (head "UTF-8" split).render = block := by decide
  have writtenToo : (head "" joined).render = block := by decide
  have tidySplit : (head "UTF-8" split).WhollyTidy :=
    ⟨⟨by decide, by decide, by decide⟩, by
      simpa [head] using Cookie.Tidy.mk (by decide) (by decide) (by decide) (by decide)⟩
  have tidyJoined : (head "" joined).WhollyTidy :=
    ⟨⟨by decide, by decide, by decide⟩, by
      simpa [head] using Cookie.Tidy.mk (by decide) (by decide) (by decide) (by decide)⟩
  have same : Text.encode (head "" joined).render = Text.encode (head "UTF-8" split).render :=
    congrArg Text.encode (writtenToo.trans written.symm)
  have single (bytes : Bytes) : (bytes.map ([·])).flatten = bytes := List.flatMap_singleton' bytes
  obtain ⟨ends, tells⟩ := findEnd_render_and_fields_of_render tidySplit
  refine ⟨written, writtenToo, tidySplit, tidyJoined, ?_, (tells _ tidyJoined same).2.2.2.2⟩
  rw [ends body portions (single _), written]
  decide

end ResponseHead

end PageServer.Http
