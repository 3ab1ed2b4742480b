import PageServer.Proofs.Http.HeaderBlock
import PageServer.Proofs.Http.ScannedLines

/-! # The lines of an accepted head

A line of carriage returns is blank to the scanner however many they are, but empty to the parser only if
there is at most one. The scanner lets the first line be blank, and the parser skips all the empty lines at the
start. So the two may put the end of a head at different lines. They do not if the parser accepts what the
scanner has cut off: a line that is blank to the scanner alone says nothing to the parser, which rejects it.
-/

namespace PageServer.Http.RequestHead

theorem ofLines_eq_ok_iff {lines : List (List Char)} {head : RequestHead} : ofLines lines = .ok head ↔
    ∃ line rest, lines = line :: rest ∧
      readRequestLine line = .ok (head.method, head.target, head.version) ∧
      readHeaders [] rest = .ok head.headers := by
  cases lines with
  | nil => simp [ofLines]
  | cons line rest =>
    rw [ofLines]
    constructor
    · intro read
      simp only [bind, Except.bind] at read
      split at read
      · contradiction
      · next first requested =>
        split at read
        · contradiction
        · next headers said =>
          cases read
          exact ⟨line, rest, rfl, requested, said⟩
    · rintro ⟨_, _, same, requested, said⟩
      cases same
      simp only [bind, Except.bind, requested, said]

/-- What lines say, each of them: a header, or how the value of the header before goes on. -/
inductive Says : List (List Char) → List (String × String) → Prop
  | nothing : Says [] []
  | header {lines : List (List Char)} {headers : List (String × String)} {line name value : List Char}
      (before : Says lines headers) (starts : continues line = false)
      (parts : Text.cut ':' line = some (name, value)) :
      Says (lines ++ [line])
        (headers ++ [(String.ofList (Text.trim name), String.ofList (Text.trim value))])
  | continuation {lines : List (List Char)} {headers : List (String × String)} {name value : String}
      {line : List Char} (before : Says lines (headers ++ [(name, value)]))
      (goesOn : continues line = true) :
      Says (lines ++ [line]) (headers ++ [(name, value ++ " " ++ String.ofList (Text.trim line))])

section Says

variable {lines : List (List Char)} {headers : List (String × String)}

/-- There are as many lines as headers and continuations. -/
theorem Says.length_eq (stated : Says lines headers) :
    lines.length = headers.length + lines.countP continues := by
  induction stated with
  | nothing => rfl
  | header before starts parts ih =>
    simp [starts, ih]
    omega
  | continuation before goesOn ih =>
    simp only [List.length_append, List.length_singleton] at ih ⊢
    simp [goesOn, ih]
    omega

/-- The parser reads what lines say, and then what follows them. -/
theorem Says.readHeaders_append (stated : Says lines headers) (rest : List (List Char)) :
    readHeaders [] (lines ++ rest) = readHeaders headers.reverse rest := by
  induction stated generalizing rest with
  | nothing => rfl
  | @header lines headers line name value before starts parts ih =>
    have filled : line ≠ [] := by
      rintro rfl
      contradiction
    simp only [List.append_assoc, List.singleton_append, ih, List.reverse_append, List.reverse_singleton,
      readHeaders, filled, starts, parts, Bool.false_eq_true, ↓reduceIte]
  | @continuation lines headers name value line before goesOn ih =>
    have filled : line ≠ [] := by
      rintro rfl
      contradiction
    simp only [List.append_assoc, List.singleton_append, ih, List.reverse_append, List.reverse_singleton,
      readHeaders, filled, goesOn, ↓reduceIte]

theorem readHeaders_empty (done : List (String × String)) (rest : List (List Char)) :
    readHeaders done ([] :: rest) = .ok done.reverse := by
  rw [readHeaders.eq_def]
  rfl

/-- A line of carriage returns alone that the parser does not take for empty. -/
theorem readHeaders_of_blank {line : List Char} (blank : IsBlankLine line) (filled : line ≠ [])
    (done : List (String × String)) (rest : List (List Char)) :
    readHeaders done (line :: rest) = .error (.malformed s!"bad header line '{String.ofList line}'") := by
  have absent {c : Char} (other : c ≠ '\r') : c ∉ line := fun member => other (blank c member)
  have starts : continues line = false := by
    obtain ⟨c, more, rfl⟩ := List.exists_cons_of_ne_nil filled
    rw [blank c List.mem_cons_self]
    rfl
  rw [readHeaders.eq_def]
  dsimp only
  rw [if_neg filled, starts, if_neg Bool.false_ne_true, Text.cut_eq_none (absent (by decide))]

/-- If the lines before the one that is blank to the scanner are not empty, the parser reads them all, and
stops at that one. -/
theorem says_of_readHeaders {before : List (List Char)} {done : List (String × String)}
    (said : Says before done.reverse) (filled : ∀ line ∈ lines, line ≠ []) {last : List Char}
    (blank : IsBlankLine last) {rest : List (List Char)}
    (read : readHeaders done (lines ++ last :: rest) = .ok headers) :
    Says (before ++ lines) headers ∧ last = [] := by
  induction lines generalizing before done with
  | nil =>
    by_cases empty : last = []
    · subst empty
      rw [List.nil_append, readHeaders_empty] at read
      cases read
      exact ⟨by rwa [List.append_nil], rfl⟩
    · rw [List.nil_append, readHeaders_of_blank blank empty] at read
      contradiction
  | cons line lines ih =>
    obtain ⟨here, later⟩ := List.forall_mem_cons.mp filled
    have split : before ++ line :: lines = before ++ [line] ++ lines := by simp
    rw [split]
    rw [List.cons_append, readHeaders.eq_def] at read
    dsimp only at read
    rw [if_neg here] at read
    split at read
    · next goesOn =>
      cases done with
      | nil => contradiction
      | cons latest earlier =>
        obtain ⟨name, value⟩ := latest
        rw [List.reverse_cons] at said
        refine ih ?_ later read
        rw [List.reverse_cons]
        exact .continuation said goesOn
    · next starts =>
      split at read
      · contradiction
      · next name value parts =>
        refine ih ?_ later read
        rw [List.reverse_cons]
        exact .header said (Bool.eq_false_iff.mpr starts) parts

end Says

theorem isBlankLine_stripReturn {line : List Char} (blank : IsBlankLine line) :
    IsBlankLine (stripReturn line) :=
  fun c member => blank c (mem_of_mem_stripReturn member)

/-- Only a line that is blank to the scanner is empty to the parser. -/
theorem isBlankLine_of_stripReturn {line : List Char} (empty : stripReturn line = []) : IsBlankLine line := by
  rw [RequestHead.stripReturn] at empty
  split at empty
  · next last =>
    obtain ⟨front, rfl⟩ := List.getLast?_eq_some_iff.mp last
    rw [List.dropLast_concat] at empty
    subst empty
    exact fun c member => List.mem_singleton.mp member
  · rw [empty]
    exact List.forall_mem_nil _

/-- How the lines of a head account for what is read from it: empty ones, the request line, those that each say
a header or how one goes on, and another empty one. -/
structure Account (skipped : List (List Char)) (request : List Char) (between : List (List Char))
    (last : List Char) (head : RequestHead) : Prop where
  empty : ∀ line ∈ skipped, stripReturn line = []
  requested : readRequestLine (stripReturn request) = .ok (head.method, head.target, head.version)
  said : Says (between.map stripReturn) head.headers
  ended : stripReturn last = []

variable {skipped between : List (List Char)} {request last : List Char} {head : RequestHead}

theorem readRequestLine_of_blank {line : List Char} (blank : IsBlankLine line) :
    readRequestLine line = .error (.malformed s!"bad request line '{String.ofList line}'") := by
  have absent : ' ' ∉ line := fun member => absurd (blank ' ' member) (by decide)
  rw [readRequestLine, Text.divide_eq_singleton (Text.unmarked_of_not_mem absent)]

theorem dropWhile_skipped (empty : ∀ line ∈ skipped, stripReturn line = [])
    (filled : stripReturn request ≠ []) (rest : List (List Char)) :
    ((skipped ++ request :: rest).map stripReturn).dropWhile (· = []) =
      stripReturn request :: rest.map stripReturn := by
  rw [List.map_append, List.dropWhile_append_of_pos (by simpa using empty), List.map_cons,
    List.dropWhile_cons_of_neg (by simpa using filled)]

/-- Lines that are accounted for are read as the head, whatever follows them. -/
theorem Account.ofLines (account : Account skipped request between last head) (rest : List (List Char)) :
    ofLines (((skipped ++ request :: between ++ last :: rest).map stripReturn).dropWhile (· = [])) =
      .ok head := by
  have filled : stripReturn request ≠ [] := by
    intro empty
    have requested := account.requested
    rw [readRequestLine_of_blank (by rw [empty]; exact List.forall_mem_nil _)] at requested
    contradiction
  rw [List.append_assoc, List.cons_append, dropWhile_skipped account.empty filled]
  refine ofLines_eq_ok_iff.mpr ⟨_, _, rfl, account.requested, ?_⟩
  rw [List.map_append, account.said.readHeaders_append, List.map_cons, account.ended, readHeaders_empty,
    List.reverse_reverse]

theorem account_of_ofLines (empty : ∀ line ∈ skipped, stripReturn line = [])
    (filled : stripReturn request ≠ []) (notBlank : ∀ line ∈ between, ¬ IsBlankLine line)
    (blank : IsBlankLine last) {rest : List (List Char)}
    (read : RequestHead.ofLines
      (((skipped ++ request :: between ++ last :: rest).map stripReturn).dropWhile (· = [])) = .ok head) :
    Account skipped request between last head := by
  rw [List.append_assoc, List.cons_append, dropWhile_skipped empty filled] at read
  obtain ⟨line, others, same, requested, said⟩ := ofLines_eq_ok_iff.mp read
  cases same
  rw [List.map_append, List.map_cons] at said
  have nonempty : ∀ line ∈ between.map stripReturn, line ≠ [] := List.forall_mem_map.mpr
    fun line member gone => notBlank line member (isBlankLine_of_stripReturn gone)
  obtain ⟨stated, ended⟩ := says_of_readHeaders .nothing nonempty (isBlankLine_stripReturn blank) said
  exact ⟨empty, requested, stated, ended⟩

theorem lines_broken {written : List (List Char)} (unbroken : ∀ line ∈ written, '\n' ∉ line)
    (rest : List Char) : lines (broken written ++ rest) =
      ((written ++ Text.divide (· == '\n') rest).map stripReturn).dropWhile (· = []) := by
  rw [lines, broken, Text.divide_flatMap_append unbroken]

/-- A head that the scanner has cut off and the parser has accepted is accounted for line by line. -/
theorem exists_account {limit : Nat} {stream : Stream} {bytes : Bytes}
    (arrived : readHead limit stream = .ok bytes) (accepted : parse bytes = .ok head) :
    ∃ skipped request between last,
      bytes = Text.encode (String.ofList (broken (skipped ++ request :: between ++ [last]))) ∧
      (∀ line ∈ skipped ++ request :: between ++ [last], '\n' ∉ line) ∧
      Account skipped request between last head := by
  cases read : Text.decode? bytes with
  | none =>
    rw [parse, read] at accepted
    contradiction
  | some text =>
    have parsed : ofLines (lines text.toList) = .ok head := by rwa [parse, read] at accepted
    obtain rfl := Text.decode?_eq_some_iff.mp read
    obtain ⟨first, middle, last, rfl, unbroken, notBlank, blank⟩ :=
      exists_lines_of_headEnd? (headEnd?_of_readHead arrived)
    have whole := lines_broken unbroken []
    have nothing : Text.divide (· == '\n') [] = [[]] := rfl
    rw [List.append_nil, nothing, List.append_assoc, List.singleton_append] at whole
    rw [String.toList_ofList, whole] at parsed
    by_cases empty : stripReturn first = []
    · cases middle with
      | nil =>
        -- the scanner has stopped at the second line, before any line that can be a request line
        obtain ⟨line, rest, same, requested, -⟩ := ofLines_eq_ok_iff.mp parsed
        have among : line ∈ ([first, last, []]).map stripReturn :=
          (List.dropWhile_sublist _).subset (same ▸ List.mem_cons_self)
        have blankLine : IsBlankLine line := by
          obtain ⟨written, member, rfl⟩ := List.mem_map.mp among
          simp only [List.mem_cons, List.not_mem_nil, or_false] at member
          refine isBlankLine_stripReturn ?_
          rcases member with rfl | rfl | rfl
          · exact isBlankLine_of_stripReturn empty
          · exact blank
          · exact List.forall_mem_nil _
        rw [readRequestLine_of_blank blankLine] at requested
        contradiction
      | cons request between =>
        obtain ⟨notBlankRequest, notBlankBetween⟩ := List.forall_mem_cons.mp notBlank
        have filled : stripReturn request ≠ [] := fun gone =>
          notBlankRequest (isBlankLine_of_stripReturn gone)
        exact ⟨[first], request, between, last, rfl, unbroken,
          account_of_ofLines (List.forall_mem_singleton.mpr empty) filled notBlankBetween blank parsed⟩
    · exact ⟨[], first, middle, last, rfl, unbroken,
        account_of_ofLines (List.forall_mem_nil _) empty notBlank blank parsed⟩

theorem parse_append_of_account {bytes : Bytes}
    (whole : bytes = Text.encode (String.ofList (broken (skipped ++ request :: between ++ [last]))))
    (unbroken : ∀ line ∈ skipped ++ request :: between ++ [last], '\n' ∉ line)
    (account : Account skipped request between last head) {suffix : Bytes}
    (readable : (Text.decode? (bytes ++ suffix)).isSome) : parse (bytes ++ suffix) = .ok head := by
  obtain ⟨text, read⟩ := Option.isSome_iff_exists.mp readable
  rw [parse, read]
  rw [whole] at read
  obtain ⟨more, -, rfl⟩ := Text.decode?_encode_append read
  dsimp only
  rw [String.toList_append, String.toList_ofList, lines_broken unbroken, List.append_assoc _ [last],
    List.singleton_append]
  exact account.ofLines _

/-- The scanner and the parser agree on where an accepted head ends. Each line between the request line and the
last one is read as a header or as the continuation of one, and nothing that follows the head changes what is
read. -/
theorem account_and_parse_append_of_readHead {limit : Nat} {stream : Stream} {bytes : Bytes}
    (arrived : readHead limit stream = .ok bytes) (accepted : parse bytes = .ok head) :
    (∃ skipped request between last,
      bytes = Text.encode (String.ofList (broken (skipped ++ request :: between ++ [last]))) ∧
      (∀ line ∈ skipped ++ request :: between ++ [last], '\n' ∉ line) ∧
      Account skipped request between last head ∧
      between.length = head.headers.length + (between.map stripReturn).countP continues) ∧
    ∀ suffix, (Text.decode? (bytes ++ suffix)).isSome → parse (bytes ++ suffix) = .ok head := by
  obtain ⟨skipped, request, between, last, whole, unbroken, account⟩ := exists_account arrived accepted
  refine ⟨⟨skipped, request, between, last, whole, unbroken, account, ?_⟩, fun suffix readable => ?_⟩
  · rw [← account.said.length_eq, List.length_map]
  · exact parse_append_of_account whole unbroken account readable

/-- A second head that arrives together with the first changes nothing of it. -/
theorem account_and_parse_append_of_readHead_second :
    let text := "\r\nGET /a HTTP/1.1\r\nHost: x\n y\r\n\r\n"
    let second := Text.encode "GET /b HTTP/1.1\r\n\r\n"
    let head : RequestHead := ⟨"GET", "/a", "HTTP/1.1", [("Host", "x y")]⟩
    readHead 99 [.bytes (Text.encode text ++ second)] = .ok (Text.encode text) ∧
      parse (Text.encode text) = .ok head ∧ parse (Text.encode text ++ second) = .ok head := by
  intro text second head
  have ends : headEnd? (delivered [.bytes (Text.encode text ++ second)]) = some 33 := by decide +kernel
  have arrived : readHead 99 [.bytes (Text.encode text ++ second)] = .ok (Text.encode text) := by
    have cutOff : (delivered [.bytes (Text.encode text ++ second)]).take 33 = Text.encode text := by
      decide +kernel
    rw [readHead_of_end ends, if_pos (by decide), cutOff]
  have accepted : parse (Text.encode text) = .ok head := by
    rw [parse, Text.decode?_encode]
    decide +kernel
  refine ⟨arrived, accepted, (account_and_parse_append_of_readHead arrived accepted).2 second ?_⟩
  rw [← Text.encode_append, Text.decode?_encode]
  rfl

end PageServer.Http.RequestHead
