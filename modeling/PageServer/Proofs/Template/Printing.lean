import Mathlib.Data.List.Infix
import PageServer.Proofs.Template.Nesting

/-! # Printed templates

A template is printed with one blank before each word of a tag and one before the closing mark, with the texts
of loop bounds between quotes as they are, and with escapes in the texts of echoes. From its print a template
is read again, provided that no text, name or word of it could be taken for something else (`Printable`).
-/

namespace PageServer.Template

/-- The spelling of a character between the quotes of an echo's literal. The mark that closes a tag cannot
arise, since its second character follows a backslash. -/
def escape (c : Char) : List Char :=
  if c = '"' ∨ c = '\\' ∨ c = '>' then ['\\', c] else [c]

def Operand.print : Operand → List Char
  | .literal text => '"' :: text.toList ++ ['"']
  | .reference name => '$' :: name.toList

/-- An element of an echo: a literal between quotes, or a word. -/
def Element.print : Element → List Char
  | .literal text => '"' :: text.toList.flatMap escape ++ ['"']
  | .reference name => '$' :: name.toList
  | .operator symbol => symbol.toList
  | .function name => name.toList

def LoopHeader.words (header : LoopHeader) : List (List Char) :=
  let bounds := ["for".toList, header.counter.toList, "=".toList, header.start.print, "to".toList,
    header.stop.print]
  match header.step with
  | none => bounds
  | some step => bounds ++ ["step".toList, step.print]

def spaced : List (List Char) → List Char
  | [] => [' ']
  | word :: rest => ' ' :: word ++ spaced rest

def tagged (content : List Char) : List Char :=
  "<%".toList ++ content ++ "%>".toList

mutual

def Node.print : Node → List Char
  | .text content => content.toList
  | .echo elements => tagged ('=' :: spaced (elements.map Element.print))
  | .loop header body => tagged (spaced header.words) ++ print body ++ tagged (spaced ["end".toList])

def print : List Node → List Char
  | [] => []
  | node :: rest => node.print ++ print rest

end

/-- The text can stand in a word of a tag: it has neither a blank nor a closing mark. -/
structure FitsWord (text : List Char) : Prop where
  solid : ∀ c ∈ text, Text.isBlank c = false
  unmarked : ¬ "%>".toList <:+: text

def Operand.Printable : Operand → Prop
  | .literal text => FitsWord text.toList
  | .reference name => FitsWord name.toList

/-- The word is an operator or a function: it does not start like a literal or a variable. -/
structure IsPlainWord (word : List Char) : Prop extends FitsWord word where
  unquoted : word.head? ≠ some '"'
  unnamed : word.head? ≠ some '$'

/-- Names fit in a word. An operator consists of characters that cannot stand in a name, and a function has one
that can and does not look like a number. Literals are arbitrary. -/
def Element.Printable : Element → Prop
  | .literal _ => True
  | .reference name => FitsWord name.toList
  | .operator symbol =>
    symbol ≠ "" ∧ IsPlainWord symbol.toList ∧ ∀ c ∈ symbol.toList, isNameChar c = false
  | .function name =>
    (∃ c ∈ name.toList, isNameChar c = true) ∧ IsPlainWord name.toList ∧ looksNumeric name.toList = false

/-- The loop variable has a name, and the bounds fit in words. -/
structure LoopHeader.Printable (header : LoopHeader) : Prop where
  nonempty : header.counter ≠ ""
  named : ∀ c ∈ header.counter.toList, isNameChar c = true
  start : header.start.Printable
  stop : header.stop.Printable
  step : ∀ step ∈ header.step, step.Printable

def Node.isText : Node → Bool
  | .text _ => true
  | _ => false

mutual

/-- A text is not empty and has no opening mark, and all else fits in its tags. -/
def Node.Printable : Node → Prop
  | .text content => content ≠ "" ∧ ¬ "<%".toList <:+: content.toList
  | .echo elements => ∀ e ∈ elements, e.Printable
  | .loop header body => header.Printable ∧ Printable body

/-- All parts of a template can be printed, and no two texts meet. -/
def Printable : List Node → Prop
  | [] => True
  | node :: rest =>
    node.Printable ∧ (node.isText = true → ∀ next ∈ rest.head?, next.isText = false) ∧ Printable rest

end

instance (text : List Char) : Decidable (FitsWord text) :=
  decidable_of_iff ((text.all fun c => !Text.isBlank c) = true ∧ ¬ "%>".toList <:+: text)
    ⟨fun h => ⟨by simpa using h.1, h.2⟩, fun h => ⟨by simpa using h.solid, h.unmarked⟩⟩

instance (word : List Char) : Decidable (IsPlainWord word) :=
  decidable_of_iff (FitsWord word ∧ word.head? ≠ some '"' ∧ word.head? ≠ some '$')
    ⟨fun h => ⟨h.1, h.2.1, h.2.2⟩, fun h => ⟨h.toFitsWord, h.unquoted, h.unnamed⟩⟩

instance : (o : Operand) → Decidable o.Printable
  | .literal text => inferInstanceAs (Decidable (FitsWord text.toList))
  | .reference name => inferInstanceAs (Decidable (FitsWord name.toList))

instance : (e : Element) → Decidable e.Printable
  | .literal _ => inferInstanceAs (Decidable True)
  | .reference name => inferInstanceAs (Decidable (FitsWord name.toList))
  | .operator symbol =>
    decidable_of_iff
      (symbol ≠ "" ∧ IsPlainWord symbol.toList ∧ (symbol.toList.all fun c => !isNameChar c) = true)
      (by simp [Element.Printable])
  | .function name =>
    decidable_of_iff
      (name.toList.any isNameChar = true ∧ IsPlainWord name.toList ∧ looksNumeric name.toList = false)
      (by simp [Element.Printable])

instance (header : LoopHeader) : Decidable header.Printable :=
  decidable_of_iff
    (header.counter ≠ "" ∧ header.counter.toList.all isNameChar = true ∧ header.start.Printable ∧
      header.stop.Printable ∧ ∀ step ∈ header.step, step.Printable)
    ⟨fun h => ⟨h.1, by simpa using h.2.1, h.2.2.1, h.2.2.2.1, h.2.2.2.2⟩,
      fun h => ⟨h.nonempty, by simpa using h.named, h.start, h.stop, h.step⟩⟩

mutual

def Node.decidePrintable : (node : Node) → Decidable node.Printable
  | .text content => inferInstanceAs (Decidable (content ≠ "" ∧ ¬ "<%".toList <:+: content.toList))
  | .echo elements => inferInstanceAs (Decidable (∀ e ∈ elements, e.Printable))
  | .loop header body =>
    have := decidePrintable body
    inferInstanceAs (Decidable (header.Printable ∧ Printable body))

def decidePrintable : (nodes : List Node) → Decidable (Printable nodes)
  | [] => .isTrue trivial
  | node :: rest =>
    have := node.decidePrintable
    have := decidePrintable rest
    inferInstanceAs (Decidable
      (node.Printable ∧ (node.isText = true → ∀ next ∈ rest.head?, next.isText = false) ∧ Printable rest))

end

instance : DecidablePred Printable := decidePrintable

theorem not_pair_infix_append_cons {α : Type} {a b c : α} (notFirst : a ≠ c) (notSecond : b ≠ c)
    {front back : List α} (unmarkedFront : ¬ [a, b] <:+: front) (unmarkedBack : ¬ [a, b] <:+: back) :
    ¬ [a, b] <:+: front ++ c :: back := by
  induction front with
  | nil =>
    rw [List.nil_append, List.infix_cons_iff, List.cons_prefix_cons]
    rintro (⟨same, -⟩ | later)
    · exact notFirst same
    · exact unmarkedBack later
  | cons d front ih =>
    rw [List.infix_cons_iff, not_or] at unmarkedFront
    obtain ⟨elsewhere, later⟩ := unmarkedFront
    rw [List.cons_append, List.infix_cons_iff]
    rintro (here | inside)
    · cases front with
      | nil => simp [notSecond] at here
      | cons e front => exact elsewhere (by simpa using here)
    · exact ih later inside

/-- Words without a closing mark stay without it when blanks are put between them. -/
theorem unmarked_spaced {words : List (List Char)} (unmarked : ∀ word ∈ words, ¬ "%>".toList <:+: word)
    {front : List Char} (unmarkedFront : ¬ "%>".toList <:+: front) :
    ¬ "%>".toList <:+: front ++ spaced words := by
  have notFirst : '%' ≠ ' ' := by decide
  have notSecond : '>' ≠ ' ' := by decide
  induction words generalizing front with
  | nil => exact not_pair_infix_append_cons notFirst notSecond unmarkedFront (by decide)
  | cons word rest ih =>
    obtain ⟨first, others⟩ := List.forall_mem_cons.mp unmarked
    apply not_pair_infix_append_cons notFirst notSecond unmarkedFront
    exact ih others first

theorem FitsWord.cons {text : List Char} (fits : FitsWord text) {c : Char} (solid : Text.isBlank c = false)
    (other : c ≠ '%') : FitsWord (c :: text) := by
  refine ⟨List.forall_mem_cons.mpr ⟨solid, fits.solid⟩, ?_⟩
  have unmarked : ¬ ['%', '>'] <:+: text := fits.unmarked
  change ¬ ['%', '>'] <:+: c :: text
  rw [List.infix_cons_iff, List.cons_prefix_cons]
  rintro (⟨same, -⟩ | later)
  · exact other same.symm
  · exact unmarked later

theorem isBlank_of_isNameChar {c : Char} (named : isNameChar c = true) : Text.isBlank c = false := by
  rcases Bool.or_eq_true_iff.mp named with letter | underscore
  · exact Text.isBlank_of_isAlphanumeric letter
  · rw [beq_iff_eq.mp underscore]
    decide

/-- The characters of a name fit in a word. -/
theorem fitsWord_of_named {name : List Char} (named : ∀ c ∈ name, isNameChar c = true) : FitsWord name := by
  have percent : isNameChar '%' = false := by decide +kernel
  refine ⟨fun c member => isBlank_of_isNameChar (named c member), fun marked => ?_⟩
  have inside := named '%' (marked.subset List.mem_cons_self)
  exact Bool.false_ne_true (percent.symm.trans inside)

theorem FitsWord.quotes {text : List Char} (fits : FitsWord text) : FitsWord ('"' :: text ++ ['"']) := by
  have inner : FitsWord (text ++ ['"']) := by
    constructor
    · intro c member
      rcases List.mem_append.mp member with inside | quote
      · exact fits.solid c inside
      · rw [List.mem_singleton.mp quote]
        decide
    · exact not_pair_infix_append_cons (by decide) (by decide) fits.unmarked (by decide)
  exact inner.cons (by decide) (by decide)

theorem divide_spaced {words : List (List Char)} (solid : ∀ word ∈ words, ∀ c ∈ word, Text.isBlank c = false)
    {front : List Char} (solidFront : ∀ c ∈ front, Text.isBlank c = false) :
    Text.divide Text.isBlank (front ++ spaced words) = front :: words ++ [[]] := by
  have blank : Text.isBlank ' ' = true := by decide
  induction words generalizing front with
  | nil => exact Text.divide_append_cons solidFront blank []
  | cons word rest ih =>
    obtain ⟨first, others⟩ := List.forall_mem_cons.mp solid
    rw [spaced, List.cons_append, Text.divide_append_cons solidFront blank, ih others first]
    rfl

/-- The words of spaced words are these. -/
theorem words_spaced {words : List (List Char)} (fits : ∀ word ∈ words, word ≠ [] ∧ FitsWord word) :
    Text.words (spaced words) = words := by
  have divided : Text.divide Text.isBlank ([] ++ spaced words) = [] :: words ++ [[]] :=
    divide_spaced (fun word member => (fits word member).2.solid) (by simp)
  have kept : words.filter (· ≠ []) = words :=
    List.filter_eq_self.mpr fun word member => decide_eq_true (fits word member).1
  rw [List.nil_append] at divided
  rw [Text.words, divided, List.cons_append, List.filter_cons_of_neg (by simp), List.filter_append, kept]
  exact List.append_nil words

theorem Operand.print_ne_nil (o : Operand) : o.print ≠ [] := by
  cases o with
  | literal text => exact List.cons_ne_nil _ _
  | reference name => exact List.cons_ne_nil _ _

theorem Operand.Printable.fits {o : Operand} (printable : o.Printable) : FitsWord o.print := by
  cases o with
  | literal text => exact FitsWord.quotes printable
  | reference name => exact FitsWord.cons printable (by decide) (by decide)

/-- A bound is read from its word. -/
theorem readOperand_print (o : Operand) : readOperand (String.ofList o.print) = o := by
  cases o with
  | literal text =>
    rw [readOperand, Operand.print, String.toList_ofList]
    change Operand.literal (String.ofList (Text.unquote ('"' :: text.toList ++ ['"']))) = .literal text
    rw [Text.unquote_quotes, String.ofList_toList]
  | reference name =>
    rw [readOperand, Operand.print, String.toList_ofList]
    exact congrArg Operand.reference String.ofList_toList

theorem LoopHeader.Printable.fits {header : LoopHeader} (printable : header.Printable) :
    ∀ word ∈ header.words, word ≠ [] ∧ FitsWord word := by
  have counter : header.counter.toList ≠ [] ∧ FitsWord header.counter.toList :=
    ⟨by simpa using printable.nonempty, fitsWord_of_named printable.named⟩
  have bound {o : Operand} (printable : o.Printable) : o.print ≠ [] ∧ FitsWord o.print :=
    ⟨o.print_ne_nil, printable.fits⟩
  have bounds : ∀ word ∈ ["for".toList, header.counter.toList, "=".toList, header.start.print, "to".toList,
      header.stop.print], word ≠ [] ∧ FitsWord word := by
    simp only [List.forall_mem_cons]
    refine ⟨⟨by decide, by decide⟩, counter, ⟨by decide, by decide⟩, bound printable.start,
      ⟨by decide, by decide⟩, bound printable.stop, by simp⟩
  intro word member
  unfold LoopHeader.words at member
  cases present : header.step with
  | none =>
    rw [present] at member
    exact bounds word member
  | some step =>
    rw [present] at member
    rcases List.mem_append.mp member with first | later
    · exact bounds word first
    · have steps : ∀ word ∈ ["step".toList, step.print], word ≠ [] ∧ FitsWord word := by
        simp only [List.forall_mem_cons]
        exact ⟨⟨by decide, by decide⟩, bound (printable.step step present), by simp⟩
      exact steps word later

/-- The words of a header announce it. -/
theorem announces_words {header : LoopHeader} (printable : header.Printable) :
    Announces (header.words.map String.ofList) header := by
  have named : Names header.counter header.counter := ⟨printable.nonempty, printable.named, .inl rfl⟩
  obtain ⟨counter, start, stop, step⟩ := header
  cases step with
  | none =>
    have announced : Announces
        ["for", counter, "=", String.ofList start.print, "to", String.ofList stop.print]
        ⟨counter, readOperand (String.ofList start.print), readOperand (String.ofList stop.print), none⟩ :=
      .byOne named
    simpa [LoopHeader.words, readOperand_print] using announced
  | some step =>
    have announced : Announces
        ["for", counter, "=", String.ofList start.print, "to", String.ofList stop.print, "step",
          String.ofList step.print]
        ⟨counter, readOperand (String.ofList start.print), readOperand (String.ofList stop.print),
          some (readOperand (String.ofList step.print))⟩ :=
      .bySteps named
    simpa [LoopHeader.words, readOperand_print] using announced

/-- What is escaped is read as it was. -/
theorem quotes_escape (text : List Char) : Quotes (text.flatMap escape) text := by
  induction text with
  | nil => exact .done
  | cons c text ih =>
    rw [List.flatMap_cons, escape]
    split
    · next special =>
      have same : unescape c = c := by
        rcases special with rfl | rfl | rfl <;> rfl
      have escaped : Quotes ('\\' :: c :: text.flatMap escape) (unescape c :: text) := .escaped ih
      rwa [same] at escaped
    · next plain =>
      simp only [not_or] at plain
      exact .plain plain.1 plain.2.1 ih

/-- No closing mark arises between the quotes of a literal. -/
theorem unmarked_escape (text : List Char) : ¬ "%>".toList <:+: text.flatMap escape ++ ['"'] := by
  change ¬ ['%', '>'] <:+: text.flatMap escape ++ ['"']
  induction text with
  | nil => decide
  | cons c text ih =>
    -- whatever begins the rest, it is not the second character of the mark
    have begins : (text.flatMap escape ++ ['"']).head? ≠ some '>' := by
      cases text with
      | nil => decide
      | cons d text =>
        rw [List.flatMap_cons, escape]
        split
        · exact fun same => nomatch same
        · next plain => exact fun same => plain (.inr (.inr (Option.some.inj same)))
    have behind : ¬ ['%', '>'] <:+: c :: (text.flatMap escape ++ ['"']) := by
      rw [List.infix_cons_iff, not_or]
      refine ⟨fun here => ?_, ih⟩
      obtain ⟨-, next⟩ := List.cons_prefix_cons.mp here
      obtain ⟨rest, whole⟩ := next
      exact begins (whole ▸ rfl)
    rw [List.flatMap_cons, escape]
    split
    · change ¬ ['%', '>'] <:+: '\\' :: c :: (text.flatMap escape ++ ['"'])
      rw [List.infix_cons_iff, not_or, List.cons_prefix_cons]
      exact ⟨fun here => absurd here.1 (by decide), behind⟩
    · exact behind

theorem classify_reference (name : String) : classify ('$' :: name.toList) = .reference name :=
  congrArg Element.reference String.ofList_toList

/-- A word without a digit does not look like a number. -/
theorem looksNumeric_of_no_digit {word : List Char} (none : ∀ c ∈ word, c.isDigit = false) :
    looksNumeric word = false := by
  have inside : ∀ c ∈ (Decimal.sign word).2, c.isDigit = false := by
    intro c member
    unfold Decimal.sign at member
    split at member
    · exact none c (List.mem_cons_of_mem _ member)
    · exact none c (List.mem_cons_of_mem _ member)
    · exact none c member
  have digitless : (Decimal.sign word).2.any Char.isDigit = false :=
    List.any_eq_false.mpr fun c member => Bool.eq_false_iff.mp (inside c member)
  rw [looksNumeric, digitless, Bool.and_false, Bool.false_and]

theorem isNameChar_of_isDigit {c : Char} (digit : c.isDigit = true) : isNameChar c = true := by
  have ascii : c.isAlphanum = true := by rw [Char.isAlphanum, digit, Bool.or_true]
  rw [isNameChar, Text.isAlphanumeric_of_isAlphanum ascii, Bool.true_or]

theorem classify_plain {word : List Char} (unnamed : word.head? ≠ some '$') :
    classify word =
      if looksNumeric word then .literal (String.ofList word)
      else if word.all fun c => !isNameChar c then .operator (String.ofList word)
      else .function (String.ofList word) := by
  unfold classify
  split
  · exact absurd rfl unnamed
  · rfl

theorem classify_operator {symbol : String} (unnamed : symbol.toList.head? ≠ some '$')
    (others : ∀ c ∈ symbol.toList, isNameChar c = false) : classify symbol.toList = .operator symbol := by
  have digitless : looksNumeric symbol.toList = false := by
    refine looksNumeric_of_no_digit fun c member => Bool.eq_false_iff.mpr fun digit => ?_
    exact Bool.false_ne_true ((others c member).symm.trans (isNameChar_of_isDigit digit))
  have all : (symbol.toList.all fun c => !isNameChar c) = true :=
    List.all_eq_true.mpr fun c member => by rw [others c member, Bool.not_false]
  rw [classify_plain unnamed, digitless, all, String.ofList_toList]
  rfl

theorem classify_function {name : String} (unnamed : name.toList.head? ≠ some '$')
    (named : ∃ c ∈ name.toList, isNameChar c = true) (word : looksNumeric name.toList = false) :
    classify name.toList = .function name := by
  obtain ⟨c, member, letter⟩ := named
  have some : (name.toList.all fun c => !isNameChar c) = false :=
    List.all_eq_false.mpr ⟨c, member, by rw [letter]; decide⟩
  rw [classify_plain unnamed, word, some, String.ofList_toList]
  rfl

/-- A word before a blank is the element that it stands for. -/
theorem spells_word {word source : List Char} {elements : List Element} (nonempty : word ≠ [])
    (unquoted : word.head? ≠ some '"') (fits : FitsWord word)
    (ends : ∀ d ∈ source.head?, Text.isBlank d = true) (more : Spells source elements) :
    Spells (word ++ source) (classify word :: elements) := by
  cases word with
  | nil => exact absurd rfl nonempty
  | cons c word => exact .word (fun same => unquoted (congrArg some same)) fits.solid ends more

theorem spells_print {e : Element} (printable : e.Printable) {source : List Char} {elements : List Element}
    (ends : ∀ d ∈ source.head?, Text.isBlank d = true) (more : Spells source elements) :
    Spells (e.print ++ source) (e :: elements) := by
  cases e with
  | literal text =>
    have spelled := Spells.quoted (quotes_escape text.toList) more
    rw [String.ofList_toList] at spelled
    simpa [Element.print] using spelled
  | reference name =>
    have fits : FitsWord ('$' :: name.toList) := FitsWord.cons printable (by decide) (by decide)
    have spelled := spells_word (List.cons_ne_nil _ _) (by simp) fits ends more
    rwa [classify_reference] at spelled
  | operator symbol =>
    obtain ⟨nonempty, plain, others⟩ := printable
    have word : symbol.toList ≠ [] := by simpa using nonempty
    have spelled := spells_word word plain.unquoted plain.toFitsWord ends more
    rwa [classify_operator plain.unnamed others] at spelled
  | function name =>
    obtain ⟨named, plain, wordy⟩ := printable
    have word : name.toList ≠ [] := by
      obtain ⟨c, member, -⟩ := named
      exact List.ne_nil_of_mem member
    have spelled := spells_word word plain.unquoted plain.toFitsWord ends more
    rwa [classify_function plain.unnamed named wordy] at spelled

/-- Printed elements with blanks between them are read as these elements. -/
theorem spells_spaced {elements : List Element} (printable : ∀ e ∈ elements, e.Printable) :
    Spells (spaced (elements.map Element.print)) elements := by
  have blank : Text.isBlank ' ' = true := by decide
  induction elements with
  | nil => exact .gap blank .done
  | cons e rest ih =>
    obtain ⟨first, others⟩ := List.forall_mem_cons.mp printable
    have ends : ∀ d ∈ (spaced (rest.map Element.print)).head?, Text.isBlank d = true := by
      cases rest <;> simp [spaced, blank]
    rw [List.map_cons, spaced, List.cons_append]
    exact .gap blank (spells_print first ends (ih others))

theorem Element.Printable.unmarked {e : Element} (printable : e.Printable) : ¬ "%>".toList <:+: e.print := by
  cases e with
  | literal text =>
    change ¬ ['%', '>'] <:+: '"' :: (text.toList.flatMap escape ++ ['"'])
    rw [List.infix_cons_iff, not_or, List.cons_prefix_cons]
    exact ⟨fun here => absurd here.1 (by decide), unmarked_escape text.toList⟩
  | reference name => exact (FitsWord.cons printable (by decide) (by decide)).unmarked
  | operator symbol => exact printable.2.1.unmarked
  | function name => exact printable.2.1.unmarked

theorem opening_prefix_tagged (content source : List Char) : "<%".toList <+: tagged content ++ source := by
  simp only [tagged, List.append_assoc]
  exact List.prefix_append _ _

theorem Reads.tagged {content source : List Char} {piece : Piece} {ps : List Piece}
    (unmarked : ¬ "%>".toList <:+: content) (tag : Tags content piece) (more : Reads source ps) :
    Reads (Template.tagged content ++ source) (piece :: ps) :=
  .tag unmarked tag more

/-- What is no text begins with a tag. -/
theorem opening_prefix_print {node : Node} (tag : node.isText = false) (source : List Char) :
    "<%".toList <+: node.print ++ source := by
  cases node with
  | text content => contradiction
  | echo elements => exact opening_prefix_tagged _ source
  | loop header body =>
    rw [Node.print, List.append_assoc, List.append_assoc]
    exact opening_prefix_tagged _ _

theorem reads_closing {source : List Char} {ps : List Piece} (more : Reads source ps) :
    Reads (tagged (spaced ["end".toList]) ++ source) (.closing :: ps) :=
  .tagged (by decide) (.closing (by decide)) more

theorem reads_opening {header : LoopHeader} (printable : header.Printable) {source : List Char}
    {ps : List Piece} (more : Reads source ps) :
    Reads (tagged (spaced header.words) ++ source) (.opening header :: ps) := by
  have announced := announces_words printable
  have fits := printable.fits
  rw [← words_spaced fits] at announced
  have unmarked : ¬ "%>".toList <:+: [] ++ spaced header.words :=
    unmarked_spaced (fun word member => (fits word member).2.unmarked) (by decide)
  exact .tagged unmarked (.opening announced) more

theorem reads_echo {elements : List Element} (printable : ∀ e ∈ elements, e.Printable) {source : List Char}
    {ps : List Piece} (more : Reads source ps) :
    Reads (tagged ('=' :: spaced (elements.map Element.print)) ++ source) (.echo elements :: ps) := by
  have words : ∀ word ∈ elements.map Element.print, ¬ "%>".toList <:+: word := by
    intro word member
    obtain ⟨e, inside, rfl⟩ := List.mem_map.mp member
    exact (printable e inside).unmarked
  have unmarked : ¬ "%>".toList <:+: ['='] ++ spaced (elements.map Element.print) :=
    unmarked_spaced words (by decide)
  exact .tagged unmarked (.echo (spells_spaced printable)) more

mutual

/-- In front of what is read by itself, the print of a node is read as the node. A text needs a tag or the end
behind it. -/
theorem reads_node (node : Node) (printable : node.Printable) {source : List Char} {ps : List Piece}
    (ends : node.isText = true → source = [] ∨ "<%".toList <+: source) (more : Reads source ps) :
    Reads (node.print ++ source) (node.flatten ++ ps) := by
  cases node with
  | text content =>
    have run : content.toList ≠ [] := by simpa using printable.1
    have reads := Reads.text run printable.2 (ends rfl) more
    rwa [String.ofList_toList] at reads
  | echo elements => exact reads_echo printable more
  | loop header body =>
    have closed := reads_closing more
    have inside := reads_print body printable.2 (.inr (opening_prefix_tagged _ source)) closed
    have whole := reads_opening printable.1 inside
    simpa only [Node.print, Node.flatten, List.append_assoc, List.cons_append, List.nil_append] using whole

theorem reads_print (nodes : List Node) (printable : Template.Printable nodes) {source : List Char}
    {ps : List Piece} (ends : source = [] ∨ "<%".toList <+: source) (more : Reads source ps) :
    Reads (print nodes ++ source) (flatten nodes ++ ps) := by
  cases nodes with
  | nil => exact more
  | cons node rest =>
    obtain ⟨first, apart, others⟩ := printable
    have behind := reads_print rest others ends more
    have follows : node.isText = true → print rest ++ source = [] ∨ "<%".toList <+: print rest ++ source := by
      intro isText
      cases rest with
      | nil => exact ends
      | cons next rest =>
        rw [print, List.append_assoc]
        exact .inr (opening_prefix_print (apart isText next rfl) _)
    rw [print, flatten, List.append_assoc, List.append_assoc]
    exact reads_node node first follows behind

end

/-- A template that can be printed is read back from its print. -/
theorem parse_print (document : Document) (printable : Printable document) :
    parse (String.ofList (print document)) = .ok document := by
  have reads := reads_print document printable (.inl rfl) .done
  rw [List.append_nil, List.append_nil] at reads
  rw [parse_eq_ok_iff, String.toList_ofList]
  exact reads

/-- Texts and literals with marks in them, empty names and literals, words near numbers, and nested loops. -/
theorem parse_print_marks :
    let document : Document :=
      [.text "%><", .loop ⟨"i", .literal "", .reference "", some (.literal "\"")⟩
        [.echo [], .loop ⟨"_2", .reference "i", .literal "3", none⟩
          [.text "=", .echo [.literal "%>\"\\n", .reference "", .operator "%", .function "2x"]]],
        .text ">"]
    Printable document ∧ parse (String.ofList (print document)) = .ok document := by
  intro document
  have printable : Printable document := by decide +kernel
  exact ⟨printable, parse_print document printable⟩

/-- A loop with an echo, printed. -/
example :
    String.ofList (print [.text "a", .loop ⟨"i", .literal "1", .reference "n", some (.literal "2")⟩
      [.echo [.reference "i", .literal "x>y", .operator "+"]]]) =
      "a<% for i = \"1\" to $n step \"2\" %><%= $i \"x\\>y\" + %><% end %>" := by
  decide +kernel

end PageServer.Template
