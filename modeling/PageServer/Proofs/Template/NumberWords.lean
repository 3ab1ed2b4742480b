import PageServer.Proofs.Number.Grammar
import PageServer.Proofs.Template.Arithmetic
import PageServer.Proofs.Template.Printing

/-! # Words that are numbers

Two recognisers decide what a number is: the parser of templates looks at the words of an echo, and arithmetic
reads its operands. Both accept the numerals and nothing else (`looksNumeric_iff`, `isNumeric_text_iff`), so a
word becomes a literal by its form exactly if it can be computed with, and never an operator or a function
then (`looksNumeric_eq_isNumeric`).
-/

namespace PageServer.Template

open Decimal (Numeral NamesDouble)
open Text (Blanks)

theorem looksNumeric_iff {word : List Char} : looksNumeric word = true ↔ Numeral word := by
  constructor
  · intro looks
    simp only [looksNumeric, Bool.and_eq_true] at looks
    obtain ⟨⟨first, -⟩, read⟩ := looks
    -- the words for doubles are excluded by their first letters
    refine (Decimal.isSome_readFloat?_iff.mp read).resolve_right fun names => ?_
    obtain ⟨⟨c, rest, begins, letter⟩, -⟩ := names.sign
    rw [begins] at first
    dsimp only at first
    simp only [List.mem_cons, List.not_mem_nil, or_false] at letter
    rcases letter with rfl | rfl | rfl | rfl <;> exact absurd first (by decide)
  · intro numeral
    obtain ⟨⟨c, rest, begins, first⟩, digit⟩ := numeral.shape
    have read := Decimal.isSome_readFloat?_iff.mpr (.inl numeral)
    have start : (c.isDigit || c == '.') = true := by
      rw [Bool.or_eq_true, beq_iff_eq]
      exact first
    simp only [looksNumeric, begins, Bool.and_eq_true]
    rw [begins] at digit
    exact ⟨⟨start, digit⟩, read⟩

/-- Whether a letter shows that a text is no number. -/
def isForeign (c : Char) : Bool :=
  c.isAlpha && c != 'e' && c != 'E'

/-- A numeral has no letters but the mark of its exponent. -/
theorem any_isForeign_of_numeral {text : List Char} (numeral : Numeral text) :
    text.any isForeign = false := by
  refine List.any_eq_false.mpr fun c member foreign => ?_
  rcases numeral.of_mem member with digit | mark
  · have low := Decimal.toNat_of_isDigit digit
    have high := Text.toNat_of_isAlpha (Bool.and_eq_true_iff.mp (Bool.and_eq_true_iff.mp foreign).1).1
    omega
  · simp only [List.mem_cons, List.not_mem_nil, or_false] at mark
    rcases mark with rfl | rfl | rfl | rfl | rfl <;> exact absurd foreign (by decide)

theorem any_isForeign_of_namesDouble {text : List Char} (names : NamesDouble text) :
    text.any isForeign = true := by
  obtain ⟨signs, isSign, parts⟩ := Decimal.exists_sign text
  obtain ⟨⟨c, rest, begins, letter⟩, -⟩ := names.sign
  refine List.any_eq_true.mpr ⟨c, ?_, ?_⟩
  · rw [parts, begins]
    exact List.mem_append_right _ List.mem_cons_self
  · simp only [List.mem_cons, List.not_mem_nil, or_false] at letter
    rcases letter with rfl | rfl | rfl | rfl <;> decide

theorem Number.read_eq (text : List Char) :
    Number.read text =
      if Text.trim text = [] then .error (.format "empty string is not a number")
      else
        match if (Text.trim text).all fun c => c != '.' && c != 'e' && c != 'E' then
            Int64.read? (Text.trim text) else none with
        | some n => .ok (.int n)
        | none =>
          if (Text.trim text).any isForeign then .error (unreadable (Text.trim text))
          else
            match Decimal.readFloat? (Text.trim text) with
            | some x => .ok (.float x)
            | none => .error (unreadable (Text.trim text)) :=
  rfl

/-- A text is read as a number exactly if it is a numeral between blanks. -/
theorem Number.isOk_read_iff {text : List Char} :
    (Number.read text).isOk = true ↔ Numeral (Text.trim text) := by
  rw [Number.read_eq]
  generalize Text.trim text = core
  constructor
  · intro ok
    split at ok
    · contradiction
    split at ok
    · next n found =>
      obtain ⟨-, integer⟩ := Option.ite_none_right_eq_some.mp found
      exact (Int64.read?_eq_some_iff.mp integer).numeral
    · split at ok
      · contradiction
      · next own =>
        split at ok
        · next x read =>
          have accepted : (Decimal.readFloat? core).isSome = true := by rw [read]; rfl
          exact (Decimal.isSome_readFloat?_iff.mp accepted).resolve_right fun names =>
            own (any_isForeign_of_namesDouble names)
        · contradiction
  · intro numeral
    obtain ⟨x, read⟩ := Option.isSome_iff_exists.mp (Decimal.isSome_readFloat?_iff.mpr (.inl numeral))
    have nonempty : core ≠ [] := by
      rintro rfl
      exact absurd numeral.shape.2 (by decide)
    rw [if_neg nonempty, any_isForeign_of_numeral numeral, read]
    split <;> rfl

theorem Value.isNumeric_text_iff {s : String} :
    (Value.text s).isNumeric = true ↔ Numeral (Text.trim s.toList) :=
  Number.isOk_read_iff

theorem readElements_blanks {gap : List Char} (blanks : Blanks gap) (source : List Char) :
    readElements (gap ++ source) = readElements source := by
  induction gap with
  | nil => rfl
  | cons c gap ih =>
    obtain ⟨first, others⟩ := List.forall_mem_cons.mp blanks
    rw [List.cons_append, readElements_gap first, ih others]

/-- The form of a word shows whether arithmetic can read it: it does exactly for the numerals. In an echo,
such a word stands for a literal, and any other one, unless it begins with a dollar sign or a quote, for an
operator or a function. -/
theorem looksNumeric_eq_isNumeric {word : List Char} (nonempty : word ≠ [])
    (solid : ∀ c ∈ word, Text.isBlank c = false) :
    looksNumeric word = (Value.text (String.ofList word)).isNumeric ∧
      ((Value.text (String.ofList word)).isNumeric = true ↔ Numeral word) ∧
      (word.head? ≠ some '$' → word.head? ≠ some '"' →
        (∀ gap source : List Char, Blanks gap → (∀ c ∈ source.head?, Text.isBlank c = true) →
          readElements (gap ++ (word ++ source)) = (readElements source).map (classify word :: ·)) ∧
        if (Value.text (String.ofList word)).isNumeric then classify word = .literal (String.ofList word)
        else classify word = .operator (String.ofList word) ∨ classify word = .function (String.ofList word)) := by
  have numeric : (Value.text (String.ofList word)).isNumeric = true ↔ Numeral word := by
    rw [Value.isNumeric_text_iff, String.toList_ofList, Text.trim_eq_self solid]
  have agree : looksNumeric word = (Value.text (String.ofList word)).isNumeric := by
    rw [Bool.eq_iff_iff, looksNumeric_iff, numeric]
  refine ⟨agree, numeric, fun unnamed unquoted => ⟨fun gap source blanks ends => ?_, ?_⟩⟩
  · obtain ⟨c, rest, rfl⟩ := List.exists_cons_of_ne_nil nonempty
    rw [readElements_blanks blanks]
    exact readElements_word_append (fun same => unquoted (congrArg some same)) solid ends
  · rw [classify_plain unnamed, agree]
    split
    · rfl
    · split
      · exact .inl rfl
      · exact .inr rfl

/-- A number without digits before its point, with signs and an exponent, behind a blank. -/
theorem looksNumeric_eq_isNumeric_exponent :
    let word := "-.5E+007".toList
    word ≠ [] ∧ (∀ c ∈ word, Text.isBlank c = false) ∧ word.head? ≠ some '$' ∧ word.head? ≠ some '"' ∧
      (Value.text (String.ofList word)).isNumeric = true ∧
      readElements (' ' :: word) = .ok [.literal (String.ofList word)] := by
  intro word
  have nonempty : word ≠ [] := by decide
  have unbroken : (word.all fun c => !Text.isBlank c) = true := by decide
  have solid : ∀ c ∈ word, Text.isBlank c = false := fun c member =>
    (Bool.not_eq_true' _).mp (List.all_eq_true.mp unbroken c member)
  have unnamed : word.head? ≠ some '$' := by decide
  have unquoted : word.head? ≠ some '"' := by decide
  obtain ⟨agree, -, inEcho⟩ := looksNumeric_eq_isNumeric nonempty solid
  obtain ⟨read, classified⟩ := inEcho unnamed unquoted
  have looks : looksNumeric word = true := by decide +kernel
  have numeric := agree.symm.trans looks
  rw [if_pos numeric] at classified
  refine ⟨nonempty, solid, unnamed, unquoted, numeric, ?_⟩
  have alone := read [' '] [] (List.forall_mem_singleton.mpr (by decide)) nofun
  rw [List.append_nil, classified, readElements_nil] at alone
  exact alone

end PageServer.Template
