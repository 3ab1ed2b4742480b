import PageServer.Proofs.Http.HeadEnd
import PageServer.Proofs.Text.Encoding
import PageServer.Proofs.Text.Parts

/-! # The lines that the scanner sees

The scanner is fed bytes, but what it says of them is said of lines: it counts the lines, and stops behind the
first blank one that is not the first of all. So a text ends where the scanner stops exactly if it consists of
a first line, of lines that are not blank and of one that is (`exists_lines_of_headEnd?`,
`headEnd?_broken`).
-/

namespace PageServer.Http

/-- A line is blank to the scanner if it holds nothing but carriage returns. -/
def IsBlankLine (line : List Char) : Prop :=
  ∀ c ∈ line, c = '\r'

instance (line : List Char) : Decidable (IsBlankLine line) :=
  List.decidableBAll (· = '\r') line

/-- Lines with a line feed behind each. -/
def broken (lines : List (List Char)) : List Char :=
  lines.flatMap (· ++ ['\n'])

theorem broken_append (before after : List (List Char)) :
    broken (before ++ after) = broken before ++ broken after :=
  List.flatMap_append

theorem broken_concat (before : List (List Char)) (line : List Char) :
    broken (before ++ [line]) = broken before ++ line ++ ['\n'] := by
  rw [broken_append, broken, broken, List.flatMap_singleton, List.append_assoc]

theorem currentLine_append {line : Bytes} (inside : lineFeed ∉ line) (before : Bytes) :
    currentLine (before ++ lineFeed :: line) = line := by
  have kept : ∀ byte ∈ line.reverse, (byte != lineFeed) = true := fun byte member =>
    bne_iff_ne.mpr fun same => inside (same ▸ List.mem_reverse.mp member)
  rw [currentLine, List.reverse_append, List.reverse_cons, List.append_assoc, List.singleton_append,
    List.takeWhile_append_of_pos kept, List.takeWhile_cons_of_neg (by simp), List.append_nil,
    List.reverse_reverse]

theorem encode_newline : Text.encode (String.ofList ['\n']) = [lineFeed] := by decide

theorem encode_broken_concat (before : List (List Char)) (line : List Char) :
    Text.encode (String.ofList (broken (before ++ [line]))) =
      Text.encode (String.ofList (broken before)) ++ Text.encode (String.ofList line) ++ [lineFeed] := by
  rw [broken_concat, String.ofList_append, String.ofList_append, Text.encode_append, Text.encode_append,
    encode_newline]

/-- A line is blank exactly if its bytes are. -/
theorem forall_mem_encode_iff {line : List Char} :
    (∀ byte ∈ Text.encode (String.ofList line), byte = carriageReturn) ↔ IsBlankLine line := by
  constructor
  · intro only
    have chars := Text.forall_eq_of_encode (c := '\r') (by decide) (by decide) only
    rwa [String.toList_ofList] at chars
  · intro blank byte member
    rw [Text.encode_ofList] at member
    obtain ⟨c, present, inCode⟩ := List.mem_flatMap.mp member
    rw [blank c present] at inCode
    exact List.mem_singleton.mp inCode

theorem lineFeed_not_mem_encode {text : String} (noFeed : '\n' ∉ text.toList) :
    lineFeed ∉ Text.encode text :=
  fun member => noFeed (Text.mem_of_mem_encode member (by decide) (by decide))

theorem lineFeed_not_mem_ofList {line : List Char} (unbroken : '\n' ∉ line) :
    lineFeed ∉ Text.encode (String.ofList line) :=
  lineFeed_not_mem_encode (by rwa [String.toList_ofList])

/-- The first line does not end a head. -/
theorem endsBlankLine_first {line : List Char} (unbroken : '\n' ∉ line) :
    endsBlankLine (Text.encode (String.ofList (broken [line]))) = false := by
  refine Bool.eq_false_iff.mpr fun ends => ?_
  have bytes := encode_broken_concat [] line
  rw [List.nil_append] at bytes
  rw [bytes, endsBlankLine_concat_iff] at ends
  exact lineFeed_not_mem_ofList unbroken ends.2.1

/-- A later line ends a head exactly if it is blank. -/
theorem endsBlankLine_later_iff {before : List (List Char)} (later : before ≠ []) {line : List Char}
    (unbroken : '\n' ∉ line) :
    endsBlankLine (Text.encode (String.ofList (broken (before ++ [line])))) ↔ IsBlankLine line := by
  obtain empty | ⟨earlier, previous, rfl⟩ := before.eq_nil_or_concat
  · contradiction
  · rw [List.concat_eq_append, encode_broken_concat, endsBlankLine_concat_iff, encode_broken_concat,
      List.append_assoc _ [lineFeed], List.singleton_append,
      currentLine_append (lineFeed_not_mem_ofList unbroken), forall_mem_encode_iff]
    simp

/-- A line that is not blank does not end a head. -/
theorem feed_line {line : List Char} (unbroken : '\n' ∉ line) (filled : ¬ IsBlankLine line) (lines : Nat) :
    (⟨0, lines⟩ : HeadScanner).feed (Text.encode (String.ofList line) ++ [lineFeed]) =
      (⟨0, lines + 1⟩, none) := by
  have counted : (Text.encode (String.ofList line)).countP (· != carriageReturn) ≠ 0 := fun none =>
    filled (forall_mem_encode_iff.mp (by simpa [List.countP_eq_zero] using none))
  have inside := HeadScanner.feed_inside (s := ⟨0, lines⟩) (lineFeed_not_mem_ofList unbroken)
  rw [HeadScanner.feed_append_of_none (by rw [inside]), inside]
  generalize (Text.encode (String.ofList line)).countP (· != carriageReturn) = count at counted
  obtain ⟨n, rfl⟩ := Nat.exists_eq_succ_of_ne_zero counted
  simp [HeadScanner.feed, HeadScanner.ends, HeadScanner.step]

theorem feed_broken {lines : List (List Char)} (unbroken : ∀ line ∈ lines, '\n' ∉ line)
    (filled : ∀ line ∈ lines, ¬ IsBlankLine line) (before : Nat) :
    (⟨0, before⟩ : HeadScanner).feed (Text.encode (String.ofList (broken lines))) =
      (⟨0, before + lines.length⟩, none) := by
  induction lines generalizing before with
  | nil => rfl
  | cons line lines ih =>
    obtain ⟨unbrokenFirst, unbrokenRest⟩ := List.forall_mem_cons.mp unbroken
    obtain ⟨filledFirst, filledRest⟩ := List.forall_mem_cons.mp filled
    have first := feed_line unbrokenFirst filledFirst before
    have bytes : Text.encode (String.ofList (broken (line :: lines))) =
        Text.encode (String.ofList line) ++ [lineFeed] ++ Text.encode (String.ofList (broken lines)) := by
      rw [broken, List.flatMap_cons, String.ofList_append, String.ofList_append, Text.encode_append,
        Text.encode_append, encode_newline, broken]
    rw [bytes, HeadScanner.feed_append_of_none (by rw [first]), first, ih unbrokenRest filledRest]
    simp only [Option.map_none, List.length_cons, Nat.add_comm 1, Nat.add_assoc]

/-- A blank line that is not the first ends a head. -/
theorem feed_blank_line {line : List Char} (blank : IsBlankLine line) (before : Nat) (rest : Bytes) :
    ((⟨0, before + 1⟩ : HeadScanner).feed (Text.encode (String.ofList line) ++ [lineFeed] ++ rest)).2 =
      some (Text.encode (String.ofList line) ++ [lineFeed]).length := by
  refine HeadScanner.feed_append_of_some ?_ rest
  have unbroken : '\n' ∉ line := fun member => absurd (blank '\n' member) (by decide)
  have none : (Text.encode (String.ofList line)).countP (· != carriageReturn) = 0 := by
    simpa [List.countP_eq_zero] using forall_mem_encode_iff.mpr blank
  have inside := HeadScanner.feed_inside (s := ⟨0, before + 1⟩) (lineFeed_not_mem_ofList unbroken)
  rw [none] at inside
  rw [HeadScanner.feed_append_of_none (by rw [inside]), inside]
  simp [HeadScanner.feed, HeadScanner.ends, Nat.add_comm]

/-- Behind lines that are not blank, a blank one is where the scanner stops, whatever follows. -/
theorem headEnd?_broken {first : List Char} {middle : List (List Char)} {last : List Char}
    (unbroken : ∀ line ∈ first :: middle, '\n' ∉ line)
    (filled : ∀ line ∈ first :: middle, ¬ IsBlankLine line) (blank : IsBlankLine last) (rest : Bytes) :
    headEnd? (Text.encode (String.ofList (broken (first :: middle ++ [last]))) ++ rest) =
      some (Text.encode (String.ofList (broken (first :: middle ++ [last])))).length := by
  have fed := feed_broken unbroken filled 0
  rw [Nat.zero_add, List.length_cons] at fed
  have start : ({} : HeadScanner) = ⟨0, 0⟩ := rfl
  rw [← HeadScanner.feed_eq_headEnd?, start, encode_broken_concat, List.append_assoc, List.append_assoc,
    HeadScanner.feed_append_of_none (by rw [fed]), fed, ← List.append_assoc, feed_blank_line blank]
  refine congrArg some ?_
  simp only [List.length_append]
  omega

/-- A text whose last byte is a line feed ends with one. -/
theorem exists_of_getLast?_encode {text : String} (last : (Text.encode text).getLast? = some lineFeed) :
    ∃ inner, text.toList = inner ++ ['\n'] := by
  obtain empty | ⟨inner, c, whole⟩ := text.toList.eq_nil_or_concat
  · simp [Text.encode, empty] at last
  · refine ⟨inner, ?_⟩
    have code : Text.encode text = inner.flatMap String.utf8EncodeChar ++ String.utf8EncodeChar c := by
      simp [Text.encode, whole]
    rw [code, List.getLast?_append, Option.or_of_isSome (by simp)] at last
    have newline : c = '\n' :=
      Text.eq_of_mem_utf8EncodeChar (List.mem_of_getLast? last) (by decide) (by decide)
    rw [whole, newline, List.concat_eq_append]

/-- A text that ends where the scanner stops consists of a first line of any kind, of lines that are not blank
and of one that is. -/
theorem exists_lines_of_headEnd? {text : String}
    (ends : headEnd? (Text.encode text) = some (Text.encode text).length) :
    ∃ first middle last, text = String.ofList (broken (first :: middle ++ [last])) ∧
      (∀ line ∈ first :: middle ++ [last], '\n' ∉ line) ∧ (∀ line ∈ middle, ¬ IsBlankLine line) ∧
      IsBlankLine last := by
  obtain ⟨blank, -, before⟩ := headEnd?_eq_some_iff.mp ends
  rw [List.take_length] at blank
  obtain ⟨inner, whole⟩ : ∃ inner, text.toList = inner ++ ['\n'] := by
    simp only [endsBlankLine, Bool.and_eq_true, beq_iff_eq] at blank
    exact exists_of_getLast?_encode blank.1.1
  obtain ⟨first, others, divided⟩ := List.exists_cons_of_ne_nil (Text.divide_ne_nil (· == '\n') inner)
  have same : text = String.ofList (broken (first :: others)) := by
    rw [← divided, broken, Text.flatMap_divide, ← whole, String.ofList_toList]
  have unbroken : ∀ line ∈ first :: others, '\n' ∉ line := fun line member newline =>
    absurd (Text.unmarked_of_mem_divide (divided ▸ member) '\n' newline) (by decide)
  obtain rfl | ⟨middle, last, rfl⟩ := others.eq_nil_or_concat
  · rw [same, endsBlankLine_first (unbroken first List.mem_cons_self)] at blank
    contradiction
  · rw [List.concat_eq_append, ← List.cons_append] at same unbroken
    refine ⟨first, middle, last, same, unbroken, fun line member blankEarlier => ?_, ?_⟩
    · -- the head would have ended behind this line
      obtain ⟨earlier, later, rfl⟩ := List.append_of_mem member
      have early : endsBlankLine (Text.encode (String.ofList (broken (first :: earlier ++ [line])))) :=
        (endsBlankLine_later_iff (List.cons_ne_nil _ _) (unbroken line (by simp))).mpr blankEarlier
      have split : Text.encode text = Text.encode (String.ofList (broken (first :: earlier ++ [line]))) ++
          Text.encode (String.ofList (broken (later ++ [last]))) := by
        rw [← Text.encode_append, ← String.ofList_append, ← broken_append, same]
        simp
      have more : 0 < (Text.encode (String.ofList (broken (later ++ [last])))).length := by
        rw [encode_broken_concat, List.length_append]
        exact Nat.lt_add_left _ Nat.one_pos
      rw [split, List.length_append] at before
      have running := before _ (Nat.lt_add_of_pos_right more)
      rw [List.take_left, early] at running
      contradiction
    · rw [same] at blank
      exact (endsBlankLine_later_iff (List.cons_ne_nil _ _) (unbroken last (by simp))).mp blank

end PageServer.Http
