import Mathlib.Data.List.TakeWhile
import PageServer.Template.Lexer
import PageServer.Proofs.Text.Parts

/-! # The grammar of template sources

What stands in a source and what it means, as relations that do without a reader: texts between quotes,
echoes, loop headers, tags and whole sources. Each reader succeeds exactly where its relation says what
there is, and finds that.
-/

namespace PageServer.Template

theorem map_eq_ok_iff {ε α β : Type} {x : Except ε α} {f : α → β} {b : β} :
    x.map f = .ok b ↔ ∃ a, x = .ok a ∧ f a = b := by
  cases x with
  | error e => simp [Except.map]
  | ok a => simp [Except.map]

/-- What stands between the quotes of a string literal, and the text that it means. -/
inductive Quotes : List Char → List Char → Prop
  | done : Quotes [] []
  | plain {c : Char} {written content : List Char} (unquoted : c ≠ '"') (unescaped : c ≠ '\\')
      (more : Quotes written content) : Quotes (c :: written) (c :: content)
  | escaped {c : Char} {written content : List Char} (more : Quotes written content) :
      Quotes ('\\' :: c :: written) (unescape c :: content)

/-- An echo without its equals sign, and its elements. A word reaches to the next blank or to the end,
and a string literal to its closing quote, whatever follows. -/
inductive Spells : List Char → List Element → Prop
  | done : Spells [] []
  | gap {c : Char} {source : List Char} {elements : List Element} (blank : Text.isBlank c = true)
      (more : Spells source elements) : Spells (c :: source) elements
  | quoted {written content source : List Char} {elements : List Element}
      (quotes : Quotes written content) (more : Spells source elements) :
      Spells ('"' :: written ++ '"' :: source) (.literal (String.ofList content) :: elements)
  | word {c : Char} {word source : List Char} {elements : List Element} (unquoted : c ≠ '"')
      (solid : ∀ d ∈ c :: word, Text.isBlank d = false)
      (ends : ∀ d ∈ source.head?, Text.isBlank d = true) (more : Spells source elements) :
      Spells (c :: word ++ source) (classify (c :: word) :: elements)

theorem readString_escape (c : Char) (rest : List Char) :
    readString ('\\' :: c :: rest) =
      (readString rest).map fun (content, after) => (unescape c :: content, after) := by
  rw [readString]
  cases readString rest <;> rfl

theorem readString_plain {c : Char} (unquoted : c ≠ '"') (unescaped : c ≠ '\\') (rest : List Char) :
    readString (c :: rest) =
      (readString rest).map fun (content, after) => (c :: content, after) := by
  rw [readString]
  · cases readString rest <;> rfl
  · exact unquoted
  · exact fun same => absurd same unescaped
  · exact fun _ _ same => absurd same unescaped

theorem readString_eq_ok_iff {source content after : List Char} :
    readString source = .ok (content, after) ↔
      ∃ written, source = written ++ '"' :: after ∧ Quotes written content := by
  constructor
  · intro read
    induction source using readString.induct generalizing content with
    | case1 => contradiction
    | case2 rest =>
      cases read
      exact ⟨[], rfl, .done⟩
    | case3 => contradiction
    | case4 c rest ih =>
      rw [readString_escape] at read
      obtain ⟨⟨more, _⟩, inner, same⟩ := map_eq_ok_iff.mp read
      cases same
      obtain ⟨written, rfl, quotes⟩ := ih inner
      exact ⟨'\\' :: c :: written, rfl, .escaped quotes⟩
    | case5 c rest unquoted dangling escapes ih =>
      -- a backslash has a pattern of its own, whether something follows it or not
      have unescaped : c ≠ '\\' := by
        intro same
        cases rest with
        | nil => exact dangling same rfl
        | cons d more => exact escapes d more same rfl
      rw [readString_plain unquoted unescaped] at read
      obtain ⟨⟨more, _⟩, inner, same⟩ := map_eq_ok_iff.mp read
      cases same
      obtain ⟨written, rfl, quotes⟩ := ih inner
      exact ⟨c :: written, rfl, .plain unquoted unescaped quotes⟩
  · rintro ⟨written, rfl, quotes⟩
    induction quotes with
    | done => rfl
    | plain unquoted unescaped more ih =>
      rw [List.cons_append, readString_plain unquoted unescaped, ih]
      rfl
    | escaped more ih =>
      rw [List.cons_append, List.cons_append, readString_escape, ih]
      rfl

theorem readElements_nil : readElements [] = .ok [] := by
  rw [readElements.eq_def]

theorem readElements_gap {c : Char} (blank : Text.isBlank c = true) (rest : List Char) :
    readElements (c :: rest) = readElements rest := by
  rw [readElements.eq_def]
  exact if_pos blank

theorem readElements_quote (rest : List Char) :
    readElements ('"' :: rest) =
      match readString rest with
      | .error e => .error e
      | .ok (content, after) =>
        (readElements after).map fun elements => .literal (String.ofList content) :: elements := by
  rw [readElements.eq_def]
  simp only [show Text.isBlank '"' = false from rfl, Bool.false_eq_true, if_false, if_true]
  split
  · next unread => rw [unread]
  · next content after read =>
    rw [read]
    dsimp only
    cases readElements after <;> rfl

theorem readElements_word {c : Char} (unquoted : c ≠ '"') (solid : Text.isBlank c = false)
    (rest : List Char) :
    readElements (c :: rest) =
      (readElements (rest.dropWhile fun d => !Text.isBlank d)).map fun elements =>
        classify (c :: rest.takeWhile fun d => !Text.isBlank d) :: elements := by
  rw [readElements.eq_def]
  simp only [solid, Bool.false_eq_true, if_false, if_neg unquoted]
  cases readElements (rest.dropWhile fun d => !Text.isBlank d) <;> rfl

/-- Up to the next blank there is a word. -/
theorem Spells.firstWord {c : Char} (unquoted : c ≠ '"') (solid : Text.isBlank c = false)
    {rest : List Char} {elements : List Element}
    (more : Spells (rest.dropWhile fun d => !Text.isBlank d) elements) :
    Spells (c :: rest) (classify (c :: rest.takeWhile fun d => !Text.isBlank d) :: elements) := by
  have inside : ∀ d ∈ c :: rest.takeWhile fun d => !Text.isBlank d, Text.isBlank d = false := by
    refine List.forall_mem_cons.mpr ⟨solid, fun d member => ?_⟩
    simpa using List.mem_takeWhile_imp member
  have ends : ∀ d ∈ (rest.dropWhile fun d => !Text.isBlank d).head?, Text.isBlank d = true := by
    intro d first
    have stopped := List.head?_dropWhile_not (fun d => !Text.isBlank d) rest
    rw [Option.mem_def.mp first] at stopped
    simpa using stopped
  have whole : c :: rest =
      c :: (rest.takeWhile fun d => !Text.isBlank d) ++ rest.dropWhile fun d => !Text.isBlank d := by
    rw [List.cons_append, List.takeWhile_append_dropWhile]
  rw [whole]
  exact .word unquoted inside ends more

/-- What follows a word is read by itself. -/
theorem readElements_word_append {c : Char} {word source : List Char} (unquoted : c ≠ '"')
    (solid : ∀ d ∈ c :: word, Text.isBlank d = false)
    (ends : ∀ d ∈ source.head?, Text.isBlank d = true) :
    readElements (c :: word ++ source) =
      (readElements source).map fun elements => classify (c :: word) :: elements := by
  obtain ⟨first, others⟩ := List.forall_mem_cons.mp solid
  have inside : ∀ d ∈ word, (!Text.isBlank d) = true := by
    intro d member
    rw [others d member, Bool.not_false]
  have stops : (source.takeWhile fun d => !Text.isBlank d) = [] ∧
      (source.dropWhile fun d => !Text.isBlank d) = source := by
    cases source with
    | nil => exact ⟨rfl, rfl⟩
    | cons d rest => simp [ends d rfl]
  rw [List.cons_append, readElements_word unquoted first, List.takeWhile_append_of_pos inside,
    List.dropWhile_append_of_pos inside, stops.1, stops.2, List.append_nil]

theorem readElements_eq_ok_iff {source : List Char} {elements : List Element} :
    readElements source = .ok elements ↔ Spells source elements := by
  constructor
  · intro read
    induction source using readElements.induct generalizing elements with
    | case1 =>
      rw [readElements_nil] at read
      cases read
      exact .done
    | case2 c rest blank ih =>
      rw [readElements_gap blank] at read
      exact .gap blank (ih read)
    | case3 rest e unread =>
      rw [readElements_quote, unread] at read
      contradiction
    | case4 rest content after inner _ ih =>
      rw [readElements_quote, inner] at read
      obtain ⟨more, later, rfl⟩ := map_eq_ok_iff.mp read
      obtain ⟨written, rfl, quotes⟩ := readString_eq_ok_iff.mp inner
      exact .quoted quotes (ih later)
    | case5 c rest solid unquoted tail =>
      rename_i ih
      have solid : Text.isBlank c = false := Bool.eq_false_iff.mpr solid
      rw [readElements_word unquoted solid] at read
      obtain ⟨more, later, rfl⟩ := map_eq_ok_iff.mp read
      exact .firstWord unquoted solid (ih later)
  · intro spelled
    induction spelled with
    | done => exact readElements_nil
    | gap blank more ih => rw [readElements_gap blank, ih]
    | quoted quotes more ih =>
      rw [List.cons_append, readElements_quote, readString_eq_ok_iff.mpr ⟨_, rfl, quotes⟩]
      exact map_eq_ok_iff.mpr ⟨_, ih, rfl⟩
    | word unquoted solid ends more ih =>
      rw [readElements_word_append unquoted solid ends]
      exact map_eq_ok_iff.mpr ⟨_, ih, rfl⟩

/-- A loop variable is spelled by its name, with or without a dollar sign before it. -/
def Names (word counter : String) : Prop :=
  counter ≠ "" ∧ (∀ c ∈ counter.toList, isNameChar c = true) ∧
    (word = counter ∨ word = "$" ++ counter)

/-- The words of a loop header, and what they announce. -/
inductive Announces : List String → LoopHeader → Prop
  | byOne {word counter start stop : String} (named : Names word counter) :
      Announces ["for", word, "=", start, "to", stop]
        ⟨counter, readOperand start, readOperand stop, none⟩
  | bySteps {word counter start stop step : String} (named : Names word counter) :
      Announces ["for", word, "=", start, "to", stop, "step", step]
        ⟨counter, readOperand start, readOperand stop, some (readOperand step)⟩

theorem readCounter?_eq_some_iff {word counter : String} :
    readCounter? word = some counter ↔ Names word counter := by
  simp only [readCounter?, Option.ite_none_right_eq_some, Option.some.injEq]
  constructor
  · rintro ⟨⟨nonempty, named⟩, rfl⟩
    refine ⟨by simpa using nonempty, by simpa using named, ?_⟩
    split
    · next name spelled => exact .inr (String.toList_inj.mp (by simp [spelled]))
    · exact .inl String.ofList_toList.symm
  · rintro ⟨nonempty, named, rfl | rfl⟩
    · split
      · next name dollar =>
        have first := named '$' (dollar ▸ List.mem_cons_self)
        exact absurd first (by decide)
      · exact ⟨⟨by simpa using nonempty, by simpa using named⟩, String.ofList_toList⟩
    · simpa using ⟨nonempty, named⟩

theorem readHeader?_eq_some_iff {words : List String} {header : LoopHeader} :
    readHeader? words = some header ↔ Announces words header := by
  constructor
  · intro read
    unfold readHeader? at read
    split at read
    · obtain ⟨counter, named, rfl⟩ := Option.map_eq_some_iff.mp read
      exact .byOne (readCounter?_eq_some_iff.mp named)
    · obtain ⟨counter, named, rfl⟩ := Option.map_eq_some_iff.mp read
      exact .bySteps (readCounter?_eq_some_iff.mp named)
    · contradiction
  · rintro (named | named)
    · simp only [readHeader?, readCounter?_eq_some_iff.mpr named, Option.map_some]
    · simp only [readHeader?, readCounter?_eq_some_iff.mpr named, Option.map_some]

/-- What stands between the marks of a tag, and the piece that the tag is. -/
inductive Tags : List Char → Piece → Prop
  | echo {source : List Char} {elements : List Element} (spelled : Spells source elements) :
      Tags ('=' :: source) (.echo elements)
  | opening {content : List Char} {header : LoopHeader}
      (announced : Announces ((Text.words content).map String.ofList) header) :
      Tags content (.opening header)
  | closing {content : List Char} (ended : (Text.words content).map String.ofList = ["end"]) :
      Tags content .closing

theorem Announces.starts {words : List String} {header : LoopHeader}
    (announced : Announces words header) : ∃ more, words = "for" :: more := by
  cases announced with
  | byOne named => exact ⟨_, rfl⟩
  | bySteps named => exact ⟨_, rfl⟩

/-- The first word of an echo's content starts with the equals sign. -/
theorem not_echo_of_words {content : List Char} {word : String} {more : List String}
    (spelled : (Text.words content).map String.ofList = word :: more)
    (other : word.toList.head? ≠ some '=') (source : List Char) : content ≠ '=' :: source := by
  rintro rfl
  have solid : Text.isBlank '=' = false := by decide
  obtain ⟨part, parts, whole⟩ := Text.divide_cons_of_not solid source
  have first : word = String.ofList ('=' :: part) := by
    rw [Text.words, whole, List.filter_cons_of_pos (by simp), List.map_cons] at spelled
    exact (List.cons.inj spelled).1.symm
  exact other (by rw [first, String.toList_ofList, List.head?_cons])

theorem readTag_eq_ok_iff {content : List Char} {piece : Piece} :
    readTag content = .ok piece ↔ Tags content piece := by
  constructor
  · intro read
    unfold readTag at read
    split at read
    · obtain ⟨elements, spelled, rfl⟩ := map_eq_ok_iff.mp read
      exact .echo (readElements_eq_ok_iff.mp spelled)
    · split at read
      · contradiction
      · next ended =>
        cases read
        exact .closing ended
      · next word more _ spelled =>
        split at read
        · next first =>
          split at read
          · next header found =>
            cases read
            rw [← spelled] at found
            exact .opening (readHeader?_eq_some_iff.mp found)
          · contradiction
        · contradiction
  · intro tag
    cases tag with
    | echo spelled => exact map_eq_ok_iff.mpr ⟨_, readElements_eq_ok_iff.mpr spelled, rfl⟩
    | opening announced =>
      obtain ⟨more, spelled⟩ := announced.starts
      have other := not_echo_of_words spelled (by decide)
      unfold readTag
      split
      · next source => exact absurd rfl (other source)
      · rw [spelled] at announced ⊢
        simp [readHeader?_eq_some_iff.mpr announced]
    | closing ended =>
      have other := not_echo_of_words ended (by decide)
      unfold readTag
      split
      · next source => exact absurd rfl (other source)
      · rw [ended]
        rfl

/-- A source, and its pieces. A text is not empty and reaches to the next tag or to the end, and a tag
reaches to the first closing mark behind its opening mark. -/
inductive Reads : List Char → List Piece → Prop
  | done : Reads [] []
  | text {run source : List Char} {ps : List Piece} (nonempty : run ≠ [])
      (unmarked : ¬ "<%".toList <:+: run) (ends : source = [] ∨ "<%".toList <+: source)
      (more : Reads source ps) : Reads (run ++ source) (.text (String.ofList run) :: ps)
  | tag {content source : List Char} {piece : Piece} {ps : List Piece}
      (unmarked : ¬ "%>".toList <:+: content) (tag : Tags content piece) (more : Reads source ps) :
      Reads ("<%".toList ++ content ++ "%>".toList ++ source) (piece :: ps)

theorem breakOn_opening {run : List Char} (unmarked : ¬ "<%".toList <:+: run) (tagged : List Char) :
    Text.breakOn "<%".toList (run ++ ("<%".toList ++ tagged)) = some (run, tagged) := by
  have different : '<' ≠ '%' := by decide
  exact Text.breakOn_append_pair different unmarked tagged

theorem breakOn_closing {content : List Char} (unmarked : ¬ "%>".toList <:+: content)
    (source : List Char) :
    Text.breakOn "%>".toList (content ++ ("%>".toList ++ source)) = some (content, source) := by
  have different : '%' ≠ '>' := by decide
  exact Text.breakOn_append_pair different unmarked source

/-- Without a tag, a source is one text. -/
theorem pieces_of_unmarked {source : List Char} (unmarked : ¬ "<%".toList <:+: source) :
    pieces source = textPiece source := by
  have none := Text.breakOn_eq_none_iff.mpr unmarked
  rw [pieces]
  split
  · rfl
  · next found => cases none.symm.trans found

theorem pieces_nil : pieces [] = [] :=
  pieces_of_unmarked (by decide)

theorem pieces_of_opens {source run tagged : List Char}
    (opens : Text.breakOn "<%".toList source = some (run, tagged)) :
    pieces source = textPiece run ++
      match Text.breakOn "%>".toList tagged with
      | none => [.error (.parse "unterminated '<%' tag")]
      | some (content, rest) => readTag content :: pieces rest := by
  rw [pieces]
  split
  · next found => cases opens.symm.trans found
  · next found =>
    cases opens.symm.trans found
    congr 1
    split
    · next closes => rw [closes]
    · next closes => rw [closes]

/-- At an opening mark there is a tag, or nothing that can be read. -/
theorem pieces_opening (tagged : List Char) :
    pieces ("<%".toList ++ tagged) =
      match Text.breakOn "%>".toList tagged with
      | none => [.error (.parse "unterminated '<%' tag")]
      | some (content, rest) => readTag content :: pieces rest := by
  have unmarked : ¬ "<%".toList <:+: [] := by decide
  exact pieces_of_opens (breakOn_opening unmarked tagged)

/-- What follows a text is read by itself. -/
theorem pieces_text {run source : List Char} (unmarked : ¬ "<%".toList <:+: run)
    (ends : source = [] ∨ "<%".toList <+: source) :
    pieces (run ++ source) = textPiece run ++ pieces source := by
  rcases ends with rfl | ⟨tagged, rfl⟩
  · rw [List.append_nil, pieces_of_unmarked unmarked, pieces_nil, List.append_nil]
  · rw [pieces_of_opens (breakOn_opening unmarked tagged), pieces_opening]

/-- What follows a tag is read by itself. -/
theorem pieces_tag {content : List Char} (unmarked : ¬ "%>".toList <:+: content)
    (source : List Char) :
    pieces ("<%".toList ++ content ++ "%>".toList ++ source) = readTag content :: pieces source := by
  simp only [List.append_assoc]
  rw [pieces_opening, breakOn_closing unmarked]

theorem Reads.textPiece {run source : List Char} {front ps : List Piece}
    (unmarked : ¬ "<%".toList <:+: run) (ends : source = [] ∨ "<%".toList <+: source)
    (read : textPiece run = front.map .ok) (more : Reads source ps) : Reads (run ++ source) (front ++ ps) := by
  unfold Template.textPiece at read
  split at read
  · next empty =>
    rw [empty, List.map_eq_nil_iff.mp read.symm]
    exact more
  · next nonempty =>
    obtain ⟨piece, _, rfl, same, empty⟩ := List.map_eq_cons_iff.mp read.symm
    cases same
    rw [List.map_eq_nil_iff.mp empty]
    exact .text nonempty unmarked ends more

theorem pieces_eq_map_ok_iff {source : List Char} {ps : List Piece} :
    pieces source = ps.map .ok ↔ Reads source ps := by
  constructor
  · intro read
    induction source using pieces.induct generalizing ps with
    | case1 source none =>
      have unmarked := Text.breakOn_eq_none_iff.mp none
      rw [pieces_of_unmarked unmarked] at read
      simpa using Reads.textPiece unmarked (.inl rfl) read .done
    | case2 source before tagged opens ih =>
      rw [pieces_of_opens opens] at read
      obtain ⟨front, ps, rfl, text, read⟩ := List.map_eq_append_iff.mp read.symm
      cases closes : Text.breakOn "%>".toList tagged with
      | none =>
        -- a tag that is not closed stands among the pieces as a failure
        rw [closes] at read
        obtain ⟨piece, _, -, unread, -⟩ := List.map_eq_cons_iff.mp read
        contradiction
      | some parts =>
        obtain ⟨content, rest⟩ := parts
        rw [closes] at read
        obtain ⟨piece, ps, rfl, tag, read⟩ := List.map_eq_cons_iff.mp read
        have unopened := Text.not_infix_of_breakOn (by decide) opens
        have unclosed := Text.not_infix_of_breakOn (by decide) closes
        have reads : Reads ("<%".toList ++ tagged) (piece :: ps) := by
          rw [Text.breakOn_eq_some closes, ← List.append_assoc, ← List.append_assoc]
          exact .tag unclosed (readTag_eq_ok_iff.mp tag.symm) (ih content rest closes read.symm)
        rw [Text.breakOn_eq_some opens, List.append_assoc]
        exact Reads.textPiece unopened (.inr (List.prefix_append _ _)) text.symm reads
  · intro reads
    induction reads with
    | done => exact pieces_nil
    | text nonempty unmarked ends more ih =>
      rw [pieces_text unmarked ends, ih, Template.textPiece, if_neg nonempty]
      rfl
    | tag unmarked tag more ih =>
      rw [pieces_tag unmarked, readTag_eq_ok_iff.mpr tag, ih]
      rfl

/-- A source is read in one way only. -/
theorem Reads.unique {source : List Char} {ps qs : List Piece} (first : Reads source ps)
    (second : Reads source qs) : ps = qs := by
  have same := (pieces_eq_map_ok_iff.mpr first).symm.trans (pieces_eq_map_ok_iff.mpr second)
  exact (List.map_inj_right fun _ _ => Except.ok.inj).mp same

end PageServer.Template
