import PageServer.Http.Stream

/-! # Where the head of a stream ends

`headEnd?` says where a head ends in the bytes alone. The scanner is tied to it by what its state says
of the bytes it was fed (`HeadScanner.Tracks`), which every byte keeps. Reading a head then gives what
the bytes of the stream and their end ask for, however they were cut into portions.
-/

namespace PageServer.Http

/-- The bytes since the last line feed. -/
def currentLine (s : Bytes) : Bytes :=
  (s.reverse.takeWhile (· != lineFeed)).reverse

/-- Whether the bytes end with a line feed that is not their first, and whose line holds nothing but
carriage returns. -/
def endsBlankLine (s : Bytes) : Bool :=
  s.getLast? == some lineFeed && s.dropLast.contains lineFeed &&
    (currentLine s.dropLast).all (· == carriageReturn)

/-- The offset just past the first blank line that is not the first line. -/
def headEnd? (s : Bytes) : Option Nat :=
  (List.range (s.length + 1)).find? fun offset => endsBlankLine (s.take offset)

theorem headEnd?_eq_some_iff {s : Bytes} {e : Nat} : headEnd? s = some e ↔
    endsBlankLine (s.take e) ∧ e ≤ s.length ∧ ∀ d < e, endsBlankLine (s.take d) = false := by
  rw [headEnd?, List.find?_range_eq_some, List.mem_range, Nat.lt_succ_iff]
  simp only [Bool.not_eq_eq_eq_not, Bool.not_true]

theorem headEnd?_eq_none_iff {s : Bytes} : headEnd? s = none ↔
    ∀ d ≤ s.length, endsBlankLine (s.take d) = false := by
  simp only [headEnd?, List.find?_range_eq_none, Nat.lt_succ_iff, Bool.not_eq_eq_eq_not, Bool.not_true]

example : headEnd? [10, 71, 10, 13, 10, 66] = some 5 := by decide

theorem currentLine_concat_lineFeed (s : Bytes) : currentLine (s ++ [lineFeed]) = [] := by
  simp [currentLine]

theorem currentLine_concat (s : Bytes) {byte : UInt8} (inside : byte ≠ lineFeed) :
    currentLine (s ++ [byte]) = currentLine s ++ [byte] := by
  simp [currentLine, inside]

theorem endsBlankLine_concat_iff {s : Bytes} {byte : UInt8} : endsBlankLine (s ++ [byte]) ↔
    byte = lineFeed ∧ lineFeed ∈ s ∧ ∀ other ∈ currentLine s, other = carriageReturn := by
  simp [endsBlankLine, and_assoc]

namespace HeadScanner

/-- The state tells the number of line feeds, and the length of the current line without carriage
returns. -/
structure Tracks (s : HeadScanner) (seen : Bytes) : Prop where
  lines : s.lines = seen.count lineFeed
  lineLength : s.lineLength = (currentLine seen).countP (· != carriageReturn)

theorem tracks_nil : ({} : HeadScanner).Tracks [] := ⟨rfl, rfl⟩

variable {s : HeadScanner} {seen : Bytes}

theorem Tracks.step (tracks : s.Tracks seen) (byte : UInt8) : (s.step byte).Tracks (seen ++ [byte]) := by
  unfold HeadScanner.step
  split
  · next same =>
    subst same
    refine ⟨?_, by rw [currentLine_concat_lineFeed]; rfl⟩
    simp only [List.count_append, List.count_singleton_self, tracks.lines]
  · next inside =>
    have lines : s.lines = (seen ++ [byte]).count lineFeed := by
      rw [List.count_append, tracks.lines, List.count_singleton]
      simp [inside]
    split
    · next same =>
      refine ⟨lines, ?_⟩
      rw [currentLine_concat seen inside, List.countP_append, tracks.lineLength]
      simp [same]
    · next other =>
      refine ⟨lines, ?_⟩
      rw [currentLine_concat seen inside, List.countP_append, tracks.lineLength]
      simp [other]

/-- The scanner stops at a byte exactly if the byte ends a blank line. -/
theorem Tracks.ends_iff (tracks : s.Tracks seen) (byte : UInt8) :
    s.ends byte = true ↔ endsBlankLine (seen ++ [byte]) := by
  rw [endsBlankLine_concat_iff]
  simp only [ends, tracks.lines, tracks.lineLength, Bool.and_eq_true, beq_iff_eq, decide_eq_true_eq,
    List.count_pos_iff, List.countP_eq_zero, bne_iff_ne, ne_eq, Decidable.not_not]
  constructor
  · rintro ⟨⟨same, blank⟩, earlier⟩
    exact ⟨same, earlier, blank⟩
  · rintro ⟨same, earlier, blank⟩
    exact ⟨⟨same, blank⟩, earlier⟩

/-- A scanner that has seen no end finds the end of all the bytes in the rest of them. -/
theorem Tracks.feed (tracks : s.Tracks seen)
    (open_ : ∀ d ≤ seen.length, endsBlankLine (seen.take d) = false) (rest : Bytes) :
    (s.feed rest).2.map (· + seen.length) = headEnd? (seen ++ rest) := by
  induction rest generalizing s seen with
  | nil =>
    rw [List.append_nil, headEnd?_eq_none_iff.mpr open_]
    rfl
  | cons byte rest ih =>
    have split : seen ++ byte :: rest = (seen ++ [byte]) ++ rest := by simp
    have before : ∀ d ≤ seen.length, (seen ++ [byte]).take d = seen.take d := fun d bound =>
      List.take_append_of_le_length bound
    rw [HeadScanner.feed]
    by_cases ends : s.ends byte = true
    · rw [if_pos ends]
      symm
      refine headEnd?_eq_some_iff.mpr ⟨?_, ?_, ?_⟩
      · have whole : (seen ++ byte :: rest).take (1 + seen.length) = seen ++ [byte] := by
          rw [split, List.take_left' (by simp [Nat.add_comm])]
        rw [whole]
        exact (tracks.ends_iff byte).mp ends
      · simp only [List.length_append, List.length_cons]
        omega
      · intro d small
        change d < 1 + seen.length at small
        rw [List.take_append_of_le_length (by omega)]
        exact open_ d (by omega)
    · rw [if_neg ends]
      have next := ih (tracks.step byte) (fun d bound => by
        rw [List.length_append, List.length_singleton] at bound
        by_cases whole : d = seen.length + 1
        · rw [whole, List.take_of_length_le (by simp)]
          exact Bool.eq_false_iff.mpr fun blank => ends ((tracks.ends_iff byte).mpr blank)
        · rw [before d (by omega)]
          exact open_ d (by omega))
      rw [split, ← next, Option.map_map]
      congr 1
      funext offset
      simp only [Function.comp_apply, List.length_append, List.length_singleton]
      omega

/-- A new scanner finds where the head ends. -/
theorem feed_eq_headEnd? (s : Bytes) : (({} : HeadScanner).feed s).2 = headEnd? s := by
  have fed := tracks_nil.feed (by simp [endsBlankLine]) s
  simpa using fed

theorem feed_append_of_some {first : Bytes} {offset : Nat} (found : (s.feed first).2 = some offset)
    (second : Bytes) : (s.feed (first ++ second)).2 = some offset := by
  induction first generalizing s offset with
  | nil => simp [HeadScanner.feed] at found
  | cons byte rest ih =>
    simp only [HeadScanner.feed, List.cons_append] at found ⊢
    split
    · next ends => simpa only [ends, ↓reduceIte] using found
    · next ends =>
      simp only [ends, Bool.false_eq_true, ↓reduceIte] at found
      obtain ⟨inner, later, rfl⟩ := Option.map_eq_some_iff.mp found
      simp only [ih later, Option.map_some]

/-- What was not found in a portion is looked for in the next. -/
theorem feed_append_of_none {first : Bytes} (none : (s.feed first).2 = none) (second : Bytes) :
    s.feed (first ++ second) = (((s.feed first).1.feed second).1,
      ((s.feed first).1.feed second).2.map (· + first.length)) := by
  induction first generalizing s with
  | nil => simp [HeadScanner.feed]
  | cons byte rest ih =>
    simp only [HeadScanner.feed, List.cons_append] at none ⊢
    split
    · next ends => simp [ends] at none
    · next ends =>
      simp only [ends, Bool.false_eq_true, ↓reduceIte, Option.map_eq_none_iff] at none
      simp only [ih none, Option.map_map, Function.comp_def, List.length_cons, Nat.add_assoc]

/-- Inside a line the scanner counts what is not a carriage return. -/
theorem feed_inside {bytes : Bytes} (inside : lineFeed ∉ bytes) :
    s.feed bytes = (⟨s.lineLength + bytes.countP (· != carriageReturn), s.lines⟩, none) := by
  induction bytes generalizing s with
  | nil => rfl
  | cons byte rest ih =>
    rw [List.mem_cons, not_or] at inside
    have other : byte ≠ lineFeed := fun same => inside.1 same.symm
    have running : s.ends byte = false := by simp [ends, other]
    rw [HeadScanner.feed, running, if_neg Bool.false_ne_true, HeadScanner.step, if_neg other,
      ih inside.2, List.countP_cons]
    by_cases same : byte = carriageReturn
    · simp [same]
    · simp [same]
      omega

end HeadScanner

/-- The bytes that arrive before the client has stopped sending or reading fails. -/
def delivered : List Arrival → Bytes
  | .bytes (byte :: portion) :: rest => byte :: portion ++ delivered rest
  | _ => []

/-- The failure of reading on when these bytes are exhausted. -/
def shortage : List Arrival → HeadError
  | .bytes (_ :: _) :: rest => shortage rest
  | .failure reason :: _ => .io reason
  | _ => .truncated

theorem delivered_cons {portion : Bytes} (filled : portion ≠ []) (rest : List Arrival) :
    delivered (.bytes portion :: rest) = portion ++ delivered rest := by
  cases portion with
  | nil => contradiction
  | cons byte portion => rfl

theorem shortage_cons {portion : Bytes} (filled : portion ≠ []) (rest : List Arrival) :
    shortage (.bytes portion :: rest) = shortage rest := by
  cases portion with
  | nil => contradiction
  | cons byte portion => rfl

/-- Portions that are not empty are delivered one behind the other. -/
theorem delivered_portions {portions : List Bytes} (filled : ∀ portion ∈ portions, portion ≠ [])
    (rest : List Arrival) :
    delivered (portions.map .bytes ++ rest) = portions.flatten ++ delivered rest := by
  induction portions with
  | nil => rfl
  | cons portion portions ih =>
    obtain ⟨first, others⟩ := List.forall_mem_cons.mp filled
    rw [List.map_cons, List.cons_append, delivered_cons first, ih others, List.flatten_cons,
      List.append_assoc]

theorem shortage_portions {portions : List Bytes} (filled : ∀ portion ∈ portions, portion ≠ [])
    (rest : List Arrival) : shortage (portions.map .bytes ++ rest) = shortage rest := by
  induction portions with
  | nil => rfl
  | cons portion portions ih =>
    obtain ⟨first, others⟩ := List.forall_mem_cons.mp filled
    rw [List.map_cons, List.cons_append, shortage_cons first, ih others]

/-- The pieces of a portion that is not empty are not empty either. -/
theorem pieces_ne_nil {size : Nat} (positive : 0 < size) {portion : Bytes} (filled : portion ≠ []) :
    ∀ piece ∈ pieces size portion, piece ≠ [] := by
  fun_induction pieces size portion with
  | case1 portion more ih =>
    have dropped : portion.drop size ≠ [] := by simpa using more.2
    intro piece member
    rcases List.mem_cons.mp member with rfl | later
    · rw [ne_eq, List.take_eq_nil_iff, not_or]
      exact ⟨by omega, filled⟩
    · exact ih dropped piece later
  | case2 portion last =>
    intro piece member
    rw [List.mem_singleton.mp member]
    exact filled

/-- To read a stream in pieces changes neither what it delivers nor how it ends. -/
theorem delivered_reads (stream : Stream) : delivered stream.reads = delivered stream ∧
    shortage stream.reads = shortage stream := by
  induction stream with
  | nil => exact ⟨rfl, rfl⟩
  | cons arrival rest ih =>
    rw [Stream.reads, List.flatMap_cons]
    match arrival with
    | .failure reason => exact ⟨rfl, rfl⟩
    | .bytes [] =>
      have single : pieces bufferSize [] = [[]] := by simp [pieces]
      simp only [single]
      exact ⟨rfl, rfl⟩
    | .bytes (byte :: portion) =>
      have positive : 0 < bufferSize := by decide
      have filled := pieces_ne_nil positive (List.cons_ne_nil byte portion)
      simp only [delivered_portions filled, shortage_portions filled, flatten_pieces]
      exact ⟨congrArg (byte :: portion ++ ·) ih.1, ih.2⟩

theorem checkLimit_add (limit : Nat) (seen : Received) (portion : Bytes) :
    checkLimit limit (seen.add portion) =
      if seen.size + portion.length ≤ limit then .ok (seen.add portion)
      else .error (.tooLarge limit) := by
  change (if limit < seen.size + portion.length then _ else _) = _
  split
  · next above => rw [if_neg (Nat.not_le.mpr above)]
  · next under => rw [if_pos (Nat.not_lt.mp under)]

theorem collectHead_cons (limit : Nat) (scanner : HeadScanner) (seen : Received) {portion : Bytes}
    (filled : portion ≠ []) (rest : List Arrival) :
    collectHead limit scanner seen (.bytes portion :: rest) =
      match scanner.feed portion with
      | (_, some offset) => checkLimit limit (seen.add (portion.take offset))
      | (next, none) =>
        checkLimit limit (seen.add portion) >>= fun seen => collectHead limit next seen rest := by
  cases portion with
  | nil => contradiction
  | cons byte portion => rfl

/-- Reading on stops where the scanner stops in all that is delivered, unless the limit is passed. -/
theorem collectHead_of_end {limit : Nat} {scanner : HeadScanner} {seen : Received}
    (within : seen.size ≤ limit) {arrivals : List Arrival} {offset : Nat}
    (ends : (scanner.feed (delivered arrivals)).2 = some offset) :
    (collectHead limit scanner seen arrivals).map Received.bytes =
      if seen.size + offset ≤ limit then .ok (seen.bytes ++ (delivered arrivals).take offset)
      else .error (.tooLarge limit) := by
  induction arrivals generalizing scanner seen offset with
  | nil => contradiction
  | cons arrival rest ih =>
    rcases arrival with (_ | ⟨byte, more⟩) | reason
    · contradiction
    · have filled := List.cons_ne_nil byte more
      generalize byte :: more = portion at filled ends ⊢
      rw [delivered_cons filled] at ends ⊢
      rw [collectHead_cons limit scanner seen filled]
      rcases fed : scanner.feed portion with ⟨next, _ | inner⟩
      · have unseen : (scanner.feed portion).2 = none := by rw [fed]
        rw [HeadScanner.feed_append_of_none unseen, fed] at ends
        obtain ⟨inner, later, rfl⟩ := Option.map_eq_some_iff.mp ends
        simp only [checkLimit_add]
        by_cases fits : seen.size + portion.length ≤ limit
        · have size : (seen.add portion).size = seen.size + portion.length := rfl
          rw [if_pos fits]
          simp only [bind, Except.bind]
          rw [ih fits later, size, Received.bytes_add, Nat.add_comm inner, List.take_length_add_append,
            List.append_assoc, Nat.add_assoc]
        · rw [if_neg fits, if_neg (by omega)]
          rfl
      · have found : (scanner.feed portion).2 = some inner := by rw [fed]
        have inside := HeadScanner.feed_le_length found
        rw [HeadScanner.feed_append_of_some found] at ends
        cases ends
        simp only [checkLimit_add, List.length_take, Nat.min_eq_left inside,
          List.take_append_of_le_length inside]
        split
        · simp only [Except.map, Received.bytes_add]
        · rfl
    · contradiction

/-- If the scanner never stops, reading on fails when the bytes are exhausted, unless the limit is
passed before. -/
theorem collectHead_of_no_end {limit : Nat} {scanner : HeadScanner} {seen : Received}
    (within : seen.size ≤ limit) {arrivals : List Arrival}
    (endless : (scanner.feed (delivered arrivals)).2 = none) :
    (collectHead limit scanner seen arrivals).map Received.bytes =
      if limit < seen.size + (delivered arrivals).length then .error (.tooLarge limit)
      else .error (shortage arrivals) := by
  induction arrivals generalizing scanner seen with
  | nil => exact (if_neg (Nat.not_lt.mpr within)).symm
  | cons arrival rest ih =>
    rcases arrival with (_ | ⟨byte, more⟩) | reason
    · exact (if_neg (Nat.not_lt.mpr within)).symm
    · have filled := List.cons_ne_nil byte more
      generalize byte :: more = portion at filled endless ⊢
      rw [delivered_cons filled] at endless ⊢
      rw [collectHead_cons limit scanner seen filled, shortage_cons filled, List.length_append,
        ← Nat.add_assoc]
      rcases fed : scanner.feed portion with ⟨next, _ | inner⟩
      · have unseen : (scanner.feed portion).2 = none := by rw [fed]
        rw [HeadScanner.feed_append_of_none unseen, fed] at endless
        have later := Option.map_eq_none_iff.mp endless
        simp only [checkLimit_add]
        by_cases fits : seen.size + portion.length ≤ limit
        · rw [if_pos fits]
          exact ih fits later
        · rw [if_neg fits, if_pos (by omega)]
          rfl
      · have found : (scanner.feed portion).2 = some inner := by rw [fed]
        rw [HeadScanner.feed_append_of_some found] at endless
        contradiction
    · exact (if_neg (Nat.not_lt.mpr within)).symm

theorem readHead_of_end {stream : Stream} {e : Nat} (ends : headEnd? (delivered stream) = some e)
    (limit : Nat) : readHead limit stream =
      if e ≤ limit then .ok ((delivered stream).take e) else .error (.tooLarge limit) := by
  obtain ⟨sameBytes, -⟩ := delivered_reads stream
  have found : (({} : HeadScanner).feed (delivered stream.reads)).2 = some e := by
    rw [sameBytes, HeadScanner.feed_eq_headEnd?, ends]
  rw [readHead, collectHead_of_end (Nat.zero_le limit) found, sameBytes]
  simp only [Nat.zero_add, Received.bytes_empty, List.nil_append]

theorem readHead_of_no_end {stream : Stream} (endless : headEnd? (delivered stream) = none)
    (limit : Nat) : readHead limit stream =
      if limit < (delivered stream).length then .error (.tooLarge limit)
      else .error (shortage stream) := by
  obtain ⟨sameBytes, sameEnd⟩ := delivered_reads stream
  have unfound : (({} : HeadScanner).feed (delivered stream.reads)).2 = none := by
    rw [sameBytes, HeadScanner.feed_eq_headEnd?, endless]
  rw [readHead, collectHead_of_no_end (Nat.zero_le limit) unfound, sameBytes, sameEnd]
  simp only [Nat.zero_add]

/-- What was read as a head ends where the scanner stops, and nowhere before. -/
theorem headEnd?_of_readHead {limit : Nat} {stream : Stream} {bytes : Bytes}
    (arrived : readHead limit stream = .ok bytes) : headEnd? bytes = some bytes.length := by
  cases ends : headEnd? (delivered stream) with
  | none =>
    rw [readHead_of_no_end ends] at arrived
    split at arrived <;> contradiction
  | some e =>
    rw [readHead_of_end ends] at arrived
    obtain ⟨blank, inside, before⟩ := headEnd?_eq_some_iff.mp ends
    split at arrived
    · cases arrived
      rw [List.length_take, Nat.min_eq_left inside]
      refine headEnd?_eq_some_iff.mpr ⟨?_, by simp [inside], fun d less => ?_⟩
      · rwa [List.take_take, Nat.min_self]
      · rw [List.take_take, Nat.min_eq_left (Nat.le_of_lt less)]
        exact before d less
    · contradiction

/-- What reading a head comes to depends on the bytes that are delivered and on how they end, and not on
the portions in which they arrive. -/
theorem readHead_eq (limit : Nat) (stream : Stream) :
    readHead limit stream =
      match headEnd? (delivered stream) with
      | some e =>
        if e ≤ limit then .ok ((delivered stream).take e) else .error (.tooLarge limit)
      | none =>
        if limit < (delivered stream).length then .error (.tooLarge limit)
        else .error (shortage stream) := by
  cases ends : headEnd? (delivered stream) with
  | some e => exact readHead_of_end ends limit
  | none => exact readHead_of_no_end ends limit

end PageServer.Http
