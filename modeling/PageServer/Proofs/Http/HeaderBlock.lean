import PageServer.Http.HeadScanner
import PageServer.Http.Request
import PageServer.Http.Response
import PageServer.Proofs.Http.WrittenHead

/-! # The lines of a header block

Each line of a header block is followed by a carriage return and a line feed. So no other line ends stand in
the block exactly if none of its texts holds one (`paired_render_iff`). The texts of a head that come from a
request are short of line feeds, since a request is read line by line (`newline_not_mem_host`); a carriage
return within a line is not taken out.
-/

namespace PageServer.Http

/-- Whether carriage returns and line feeds stand in pairs only, one of each. -/
def paired : Bytes → Bool
  | [] => true
  | [byte] => byte ≠ carriageReturn && byte ≠ lineFeed
  | byte :: next :: rest =>
    if byte = carriageReturn then next = lineFeed && paired rest
    else byte ≠ lineFeed && paired (next :: rest)

/-- Behind a line without line feeds stands a pair. -/
theorem paired_line {line : Bytes} (noFeed : lineFeed ∉ line) (rest : Bytes) :
    paired (line ++ carriageReturn :: lineFeed :: rest) = true ↔
      carriageReturn ∉ line ∧ paired rest = true := by
  induction line with
  | nil => simp [paired]
  | cons byte line ih =>
    rw [List.mem_cons, not_or] at noFeed
    have later := ih noFeed.2
    -- a carriage return in the line is not followed by a line feed, even if it is the last byte
    have next : ∃ next more, line ++ carriageReturn :: lineFeed :: rest = next :: more ∧
        next ≠ lineFeed := by
      cases line with
      | nil => exact ⟨_, _, rfl, by decide⟩
      | cons next line => exact ⟨next, _, rfl, fun same => noFeed.2 (same ▸ List.mem_cons_self)⟩
    obtain ⟨next, more, whole, other⟩ := next
    rw [List.cons_append, whole, paired, ← whole]
    by_cases isReturn : byte = carriageReturn
    · simp [isReturn, other]
    · simp [isReturn, Ne.symm isReturn, Ne.symm noFeed.1, later]

/-- Lines without line feeds, each with a pair behind it, have no other line ends exactly if they have no
carriage returns. -/
theorem paired_lines {lines : List Bytes} (noFeeds : ∀ line ∈ lines, lineFeed ∉ line) (rest : Bytes) :
    paired (lines.flatMap (· ++ [carriageReturn, lineFeed]) ++ rest) = true ↔
      (∀ line ∈ lines, carriageReturn ∉ line) ∧ paired rest = true := by
  induction lines with
  | nil => simp
  | cons line lines ih =>
    obtain ⟨first, others⟩ := List.forall_mem_cons.mp noFeeds
    have split : line ++ [carriageReturn, lineFeed] ++
        lines.flatMap (· ++ [carriageReturn, lineFeed]) ++ rest =
        line ++ carriageReturn :: lineFeed :: (lines.flatMap (· ++ [carriageReturn, lineFeed]) ++ rest) := by
      simp
    rw [List.flatMap_cons, split, paired_line first, ih others, List.forall_mem_cons, and_assoc]

theorem carriageReturn_mem_encode_iff {text : String} :
    carriageReturn ∈ Text.encode text ↔ '\r' ∈ text.toList := by
  refine ⟨fun member => Text.mem_of_mem_encode member (by decide) (by decide), fun member => ?_⟩
  exact List.mem_flatMap.mpr ⟨'\r', member, by decide⟩

theorem isDigit_of_mem_toString {n : Nat} {c : Char} (member : c ∈ (toString n).toList) :
    c.isDigit = true := by
  rw [Nat.toString_eq_repr, Nat.toList_repr] at member
  exact Nat.isDigit_of_mem_toDigits (by decide) (by decide) member

theorem oneLine_toString (n : Nat) : OneLine (toString n).toList :=
  ⟨fun member => absurd (isDigit_of_mem_toString member) (by decide),
    fun member => absurd (isDigit_of_mem_toString member) (by decide)⟩

theorem oneLine_reasonPhrase (status : Nat) : OneLine (reasonPhrase status).toList := by
  unfold reasonPhrase OneLine
  split <;> decide

theorem statusLine_eq (status : Nat) (reason : String) :
    s!"HTTP/1.1 {status} {reason}" = "HTTP/1.1 " ++ (toString status ++ (" " ++ reason)) := by
  simp only [String.append_assoc, toString]

theorem toList_statusLine (status : Nat) (reason : String) :
    (s!"HTTP/1.1 {status} {reason}").toList =
      "HTTP/1.1 ".toList ++ ((toString status).toList ++ ' ' :: reason.toList) := by
  simp [toString]

namespace ResponseHead

section Lines

variable {head : ResponseHead} {line : String}

/-- Each line of a head starts with a fixed text that tells what the rest of the line is. -/
theorem mem_lines_cases (member : line ∈ head.lines) :
    line = "HTTP/1.1 " ++ (toString head.status ++ (" " ++ head.reason)) ∨
      line = "Content-Type: " ++ head.contentType ∨
      (∃ n, head.contentLength = some n ∧ line = "Content-Length: " ++ toString n) ∨
      ∃ c ∈ head.cookies, line = "Set-Cookie: " ++ c.render := by
  simp only [lines, statusLine_eq, List.mem_append, List.mem_cons, List.not_mem_nil, or_false,
    Option.mem_toList, Option.map_eq_some_iff, List.mem_map] at member
  rcases member with ((status | type) | ⟨n, declared, same⟩) | ⟨c, present, same⟩
  · exact .inl status
  · exact .inr (.inl type)
  · exact .inr (.inr (.inl ⟨n, declared, same.symm⟩))
  · exact .inr (.inr (.inr ⟨c, present, same.symm⟩))

theorem not_isBlankLine_of_mem_lines (member : line ∈ head.lines) : ¬ IsBlankLine line.toList := by
  have named (mark : String) {c : Char} (first : mark.toList.head? = some c) (other : c ≠ '\r')
      (rest : String) : ¬ IsBlankLine (mark ++ rest).toList := by
    intro blank
    rw [String.toList_append] at blank
    exact other (blank c (List.mem_append_left _ (List.mem_of_mem_head? first)))
  rcases mem_lines_cases member with rfl | rfl | ⟨n, -, rfl⟩ | ⟨c, -, rfl⟩
  · exact named "HTTP/1.1 " (c := 'H') (by decide) (by decide) _
  · exact named "Content-Type: " (c := 'C') (by decide) (by decide) _
  · exact named "Content-Length: " (c := 'C') (by decide) (by decide) _
  · exact named "Set-Cookie: " (c := 'S') (by decide) (by decide) _

end Lines

structure Tidy (head : ResponseHead) : Prop where
  reason : OneLine head.reason.toList
  mediaType : OneLine head.mediaType.toList
  encoding : OneLine head.encoding.toList

/-- All lines but those of cookies then stay lines. -/
theorem Tidy.oneLine_of_mem_lines {head : ResponseHead} (tidy : head.Tidy) {line : String}
    (member : line ∈ head.lines) :
    OneLine line.toList ∨ ∃ c ∈ head.cookies, line = "Set-Cookie: " ++ c.render := by
  have type : OneLine head.contentType.toList := by
    have mark : OneLine ";charset=".toList := ⟨by decide, by decide⟩
    rw [contentType]
    split
    · rw [String.toList_append, String.toList_append]
      exact (tidy.mediaType.append mark).append tidy.encoding
    · exact tidy.mediaType
  have named {mark rest : String} (plain : OneLine mark.toList) (inside : OneLine rest.toList) :
      OneLine (mark ++ rest).toList := by
    rw [String.toList_append]
    exact plain.append inside
  rcases mem_lines_cases member with rfl | rfl | ⟨n, -, rfl⟩ | cookie
  · left
    have space : OneLine " ".toList := ⟨by decide, by decide⟩
    exact named ⟨by decide, by decide⟩ (named (oneLine_toString head.status) (named space tidy.reason))
  · left
    exact named ⟨by decide, by decide⟩ type
  · left
    exact named ⟨by decide, by decide⟩ (oneLine_toString n)
  · right
    exact cookie

theorem encode_render (head : ResponseHead) : Text.encode head.render =
    (head.lines.map Text.encode).flatMap (· ++ [carriageReturn, lineFeed]) ++
      [carriageReturn, lineFeed] := by
  have pair : Text.encode "\r\n" = [carriageReturn, lineFeed] := by decide
  rw [render, Text.encode_append, pair]
  congr 1
  induction head.lines with
  | nil => rfl
  | cons line lines ih =>
    rw [List.map_cons, String.join_cons, Text.encode_append, Text.encode_append, pair, ih, List.map_cons,
      List.flatMap_cons]

/-- As long as the lines of a block have no line feeds, it has no line ends but its own exactly if they have
no carriage returns either. -/
theorem paired_render_iff {head : ResponseHead} (noFeeds : ∀ line ∈ head.lines, '\n' ∉ line.toList) :
    paired (Text.encode head.render) = true ↔ ∀ line ∈ head.lines, '\r' ∉ line.toList := by
  have noBytes : ∀ line ∈ head.lines.map Text.encode, lineFeed ∉ line :=
    List.forall_mem_map.mpr fun line member => lineFeed_not_mem_encode (noFeeds line member)
  have last : paired [carriageReturn, lineFeed] = true := by decide
  rw [encode_render, paired_lines noBytes, List.forall_mem_map]
  simp only [carriageReturn_mem_encode_iff, last, and_true]

end ResponseHead

namespace RequestHead

theorem mem_of_mem_stripReturn {line : List Char} {c : Char} (member : c ∈ stripReturn line) :
    c ∈ line := by
  rw [stripReturn] at member
  split at member
  · exact List.dropLast_subset line member
  · exact member

theorem newline_not_mem_lines {text line : List Char} (member : line ∈ lines text) : '\n' ∉ line := by
  have among := (List.dropWhile_sublist _).subset member
  obtain ⟨part, divided, rfl⟩ := List.mem_map.mp among
  intro present
  have other := Text.unmarked_of_mem_divide divided '\n' (mem_of_mem_stripReturn present)
  exact absurd other (by decide)

/-- No value that is put together from lines has a line feed. -/
theorem newline_not_mem_readHeaders {lines : List (List Char)} {done headers : List (String × String)}
    (read : readHeaders done lines = .ok headers) (divided : ∀ line ∈ lines, '\n' ∉ line)
    (before : ∀ header ∈ done, '\n' ∉ header.2.toList) :
    ∀ header ∈ headers, '\n' ∉ header.2.toList := by
  have trimmed {text : List Char} (inside : '\n' ∉ text) : '\n' ∉ Text.trim text :=
    fun member => inside (Text.mem_of_mem_trim member)
  induction lines generalizing done with
  | nil =>
    cases read
    exact fun header member => before header (List.mem_reverse.mp member)
  | cons line rest ih =>
    obtain ⟨here, later⟩ := List.forall_mem_cons.mp divided
    rw [readHeaders.eq_def] at read
    dsimp only at read
    split at read
    · cases read
      exact fun header member => before header (List.mem_reverse.mp member)
    · split at read
      · cases done with
        | nil => contradiction
        | cons last earlier =>
          obtain ⟨first, others⟩ := List.forall_mem_cons.mp before
          refine ih read later (List.forall_mem_cons.mpr ⟨?_, others⟩)
          simp only [String.toList_append, List.mem_append, String.toList_ofList, not_or]
          exact ⟨⟨first, by decide⟩, trimmed here⟩
      · split at read
        · contradiction
        · next name value found =>
          refine ih read later (List.forall_mem_cons.mpr ⟨?_, before⟩)
          rw [String.toList_ofList]
          refine trimmed fun member => here ?_
          rw [Text.cut_eq_some found]
          exact List.mem_append_right _ (List.mem_cons_of_mem _ member)

theorem newline_not_mem_headers {bytes : Bytes} {head : RequestHead} (parsed : parse bytes = .ok head) :
    ∀ header ∈ head.headers, '\n' ∉ header.2.toList := by
  rw [parse] at parsed
  split at parsed
  · contradiction
  · next text _ =>
    have divided : ∀ line ∈ lines text.toList, '\n' ∉ line := fun _ => newline_not_mem_lines
    cases shape : lines text.toList with
    | nil =>
      rw [shape] at parsed
      contradiction
    | cons first rest =>
      rw [shape] at parsed divided
      simp only [ofLines, bind, Except.bind] at parsed
      split at parsed
      · contradiction
      · split at parsed
        · contradiction
        · next headers read =>
          cases parsed
          exact newline_not_mem_readHeaders read (List.forall_mem_cons.mp divided).2 (List.forall_mem_nil _)

theorem mem_of_mem_stripPort {host : List Char} {c : Char} (member : c ∈ stripPort host) : c ∈ host := by
  rw [stripPort] at member
  split at member
  · split at member
    · next address rest found =>
      rw [Text.cut_eq_some found]
      rcases List.mem_append.mp member with inside | bracket
      · exact List.mem_append_left _ inside
      · rw [List.mem_singleton.mp bracket]
        exact List.mem_append_right _ List.mem_cons_self
    · exact member
  · split at member
    · next name port found =>
      split at member
      · rw [Text.cutLast_eq_some found]
        exact List.mem_append_left _ member
      · exact member
    · exact member

/-- Whatever a client calls its host, the name has no line feed. -/
theorem newline_not_mem_host {bytes : Bytes} {head : RequestHead} (parsed : parse bytes = .ok head)
    {default : String} (plain : '\n' ∉ default.toList) : '\n' ∉ (head.host default).toList := by
  intro member
  rw [host] at member
  split at member
  · next raw found =>
    rw [String.toList_ofList, Text.mem_lower_iff (by decide) (by decide)] at member
    obtain ⟨named, -⟩ := Option.filter_eq_some_iff.mp found
    obtain ⟨value, header, rfl⟩ := Option.map_eq_some_iff.mp named
    obtain ⟨pair, present, rfl⟩ := Option.map_eq_some_iff.mp header
    exact newline_not_mem_headers parsed pair (List.mem_of_find?_eq_some present)
      (Text.mem_of_mem_trim (mem_of_mem_stripPort member))
  · rw [String.toList_ofList, Text.mem_lower_iff (by decide) (by decide)] at member
    exact plain member

end RequestHead

end PageServer.Http
