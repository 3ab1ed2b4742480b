import Mathlib.Data.List.TakeWhile
import PageServer.Text.Alphanumeric
import PageServer.Text.Blank

/-! # Taking apart what was put together

The parts that stood between marks are found again, provided that none of them holds the mark, and a
text that equals its own trim is found again between blanks.
-/

namespace PageServer.Text

section Parts

variable {α : Type}

theorem divide_eq_singleton {p : α → Bool} {part : List α} (unmarked : ∀ c ∈ part, p c = false) :
    divide p part = [part] := by
  induction part with
  | nil => rfl
  | cons c part ih =>
    obtain ⟨first, others⟩ := List.forall_mem_cons.mp unmarked
    rw [divide, first, if_neg Bool.false_ne_true, ih others]

/-- The part before the first mark stands by itself. -/
theorem divide_append_cons {p : α → Bool} {part : List α} (unmarked : ∀ c ∈ part, p c = false)
    {mark : α} (marks : p mark = true) (rest : List α) :
    divide p (part ++ mark :: rest) = part :: divide p rest := by
  induction part with
  | nil => rw [List.nil_append, divide, if_pos marks]
  | cons c part ih =>
    obtain ⟨first, others⟩ := List.forall_mem_cons.mp unmarked
    rw [List.cons_append, divide, first, if_neg Bool.false_ne_true, ih others]

/-- No part holds a mark. -/
theorem unmarked_of_mem_divide {p : α → Bool} {s part : List α} (member : part ∈ divide p s) :
    ∀ c ∈ part, p c = false := by
  induction s generalizing part with
  | nil =>
    rw [divide, List.mem_singleton] at member
    simp [member]
  | cons d rest ih =>
    rw [divide] at member
    split at member
    · rcases List.mem_cons.mp member with rfl | later
      · simp
      · exact ih later
    · next unmarked =>
      split at member
      · next none => exact absurd none (divide_ne_nil p rest)
      · next first parts whole =>
        rw [whole] at ih
        rcases List.mem_cons.mp member with rfl | later
        · exact List.forall_mem_cons.mpr ⟨by simpa using unmarked, ih List.mem_cons_self⟩
        · exact ih (List.mem_cons_of_mem first later)

/-- What is no mark begins the first part. -/
theorem divide_cons_of_not {p : α → Bool} {c : α} (unmarked : p c = false) (rest : List α) :
    ∃ part parts, divide p (c :: rest) = (c :: part) :: parts := by
  obtain ⟨part, parts, whole⟩ := List.exists_cons_of_ne_nil (divide_ne_nil p rest)
  refine ⟨part, parts, ?_⟩
  rw [divide, unmarked, if_neg Bool.false_ne_true, whole]

/-- At a mark the parts before it end and those behind it begin. -/
theorem divide_append_mark {p : α → Bool} {mark : α} (marks : p mark = true) (s rest : List α) :
    divide p (s ++ mark :: rest) = divide p s ++ divide p rest := by
  induction s with
  | nil => simp only [List.nil_append, divide, marks, ↓reduceIte, List.cons_append]
  | cons c s ih =>
    by_cases marked : p c = true
    · simp only [List.cons_append, divide, marked, ↓reduceIte, ih]
    · obtain ⟨part, parts, whole⟩ := List.exists_cons_of_ne_nil (divide_ne_nil p s)
      rw [List.cons_append, divide, if_neg marked, ih, divide, if_neg marked, whole]
      rfl

/-- A mark at the end opens an empty part. -/
theorem divide_concat {p : α → Bool} {mark : α} (marks : p mark = true) (s : List α) :
    divide p (s ++ [mark]) = divide p s ++ [[]] :=
  divide_append_mark marks s []

variable [DecidableEq α]

/-- A part without a mark. -/
theorem unmarked_of_not_mem {mark : α} {part : List α} (absent : mark ∉ part) :
    ∀ c ∈ part, (c == mark) = false :=
  fun _ member => beq_eq_false_iff_ne.mpr fun same => absent (same ▸ member)

/-- Parts with a mark behind each are found again before what follows them. -/
theorem divide_flatMap_append {mark : α} {parts : List (List α)} (absent : ∀ part ∈ parts, mark ∉ part)
    (rest : List α) :
    divide (· == mark) (parts.flatMap (· ++ [mark]) ++ rest) = parts ++ divide (· == mark) rest := by
  induction parts with
  | nil => rfl
  | cons part parts ih =>
    obtain ⟨here, later⟩ := List.forall_mem_cons.mp absent
    rw [List.flatMap_cons, List.append_assoc, List.append_assoc, List.singleton_append,
      divide_append_cons (unmarked_of_not_mem here) (beq_self_eq_true mark), ih later, List.cons_append]

/-- Each part has a mark behind it, if the last one gets one. -/
theorem flatMap_divide (mark : α) (s : List α) :
    (divide (· == mark) s).flatMap (· ++ [mark]) = s ++ [mark] := by
  induction s with
  | nil => rfl
  | cons c rest ih =>
    by_cases same : c = mark
    · subst same
      rw [divide, if_pos (beq_self_eq_true c), List.flatMap_cons, ih]
      rfl
    · obtain ⟨part, parts, whole⟩ := List.exists_cons_of_ne_nil (divide_ne_nil (· == mark) rest)
      rw [whole, List.flatMap_cons] at ih
      rw [divide, if_neg (by simpa using same), whole, List.cons_append, ← ih, List.flatMap_cons]
      rfl

/-- What stands before a mark is one part exactly if it does not hold the mark. -/
theorem divide_append_cons_iff {mark : α} {part rest : List α} :
    divide (· == mark) (part ++ mark :: rest) = part :: divide (· == mark) rest ↔ mark ∉ part := by
  constructor
  · intro same member
    have isPart : part ∈ divide (· == mark) (part ++ mark :: rest) := same ▸ List.mem_cons_self
    have other := unmarked_of_mem_divide isPart mark member
    rw [beq_self_eq_true] at other
    contradiction
  · exact fun absent => divide_append_cons (unmarked_of_not_mem absent) (beq_self_eq_true mark) rest

/-- Parts that were joined by marks are found again. -/
theorem divide_intercalate {mark : α} {parts : List (List α)} (nonempty : parts ≠ [])
    (absent : ∀ part ∈ parts, mark ∉ part) : divide (· == mark) ([mark].intercalate parts) = parts := by
  induction parts with
  | nil => contradiction
  | cons part parts ih =>
    obtain ⟨here, later⟩ := List.forall_mem_cons.mp absent
    have unmarked := unmarked_of_not_mem here
    cases parts with
    | nil => rw [List.intercalate_singleton, divide_eq_singleton unmarked]
    | cons other parts =>
      rw [List.intercalate_cons_cons, List.append_assoc, List.singleton_append,
        divide_append_cons unmarked (beq_self_eq_true mark), ih (List.cons_ne_nil _ _) later]

theorem breakOn_eq_none_iff {mark s : List α} : breakOn mark s = none ↔ ¬ mark <:+: s := by
  induction s with
  | nil => simp [breakOn]
  | cons c rest ih =>
    by_cases here : mark <+: c :: rest
    · simp [breakOn, List.infix_cons_iff, here]
    · simp [breakOn, List.infix_cons_iff, here, ih]

/-- Before its first place, the mark does not stand anywhere. -/
theorem not_infix_of_breakOn {mark s before after : List α} (nonempty : mark ≠ [])
    (found : breakOn mark s = some (before, after)) : ¬ mark <:+: before := by
  induction s generalizing before with
  | nil => simp [breakOn, nonempty] at found
  | cons c rest ih =>
    have whole := breakOn_eq_some found
    rw [breakOn] at found
    split at found
    · cases found
      simpa using nonempty
    · next elsewhere =>
      obtain ⟨⟨first, second⟩, later, same⟩ := Option.map_eq_some_iff.mp found
      cases same
      rw [List.infix_cons_iff, not_or]
      refine ⟨fun here => elsewhere ?_, ih later⟩
      rw [List.isPrefixOf_iff_prefix, whole, List.append_assoc]
      exact here.trans (List.prefix_append _ _)

/-- A mark of two different elements is found where it was put, unless it stands before. -/
theorem breakOn_append_pair {a b : α} (different : a ≠ b) {before : List α}
    (unmarked : ¬ [a, b] <:+: before) (after : List α) :
    breakOn [a, b] (before ++ a :: b :: after) = some (before, after) := by
  induction before with
  | nil => simp [breakOn]
  | cons c before ih =>
    rw [List.infix_cons_iff, not_or] at unmarked
    obtain ⟨elsewhere, later⟩ := unmarked
    -- the mark cannot begin inside `before` and end behind it, since it would overlap with itself
    have not_here : ¬ [a, b] <+: c :: (before ++ a :: b :: after) := by
      cases before with
      | nil => simpa using fun _ => different.symm
      | cons d before => simpa using elsewhere
    simp only [List.cons_append, breakOn, List.isPrefixOf_iff_prefix, if_neg not_here, ih later,
      Option.map_some]

theorem cut_append_cons {c : α} {before : List α} (unmarked : c ∉ before) (after : List α) :
    cut c (before ++ c :: after) = some (before, after) := by
  induction before with
  | nil => simp [cut, breakOn]
  | cons d before ih =>
    rw [List.mem_cons, not_or] at unmarked
    obtain ⟨other, later⟩ := unmarked
    have found : breakOn [c] (before ++ c :: after) = some (before, after) := ih later
    simp [cut, breakOn, other, found]

theorem cut_eq_none {c : α} {text : List α} (unmarked : c ∉ text) : cut c text = none := by
  rw [cut, breakOn_eq_none_iff]
  exact fun inside => unmarked (inside.subset List.mem_cons_self)

theorem cutLast_eq_none {c : α} {text : List α} (unmarked : c ∉ text) : cutLast c text = none := by
  rw [cutLast, cut_eq_none (fun member => unmarked (List.mem_reverse.mp member)), Option.map_none]

theorem cutLast_append_cons {c : α} {after : List α} (unmarked : c ∉ after) (before : List α) :
    cutLast c (before ++ c :: after) = some (before, after) := by
  have reversed : (before ++ c :: after).reverse = after.reverse ++ c :: before.reverse := by simp
  have unmarkedToo : c ∉ after.reverse := fun member => unmarked (List.mem_reverse.mp member)
  simp only [cutLast, reversed, cut_append_cons unmarkedToo, Option.map_some, List.reverse_reverse]

/-- The parts around the last mark are those of which the second one holds no mark. -/
theorem cutLast_eq_some_iff {c : α} {text before after : List α} :
    cutLast c text = some (before, after) ↔ text = before ++ c :: after ∧ c ∉ after := by
  constructor
  · intro found
    refine ⟨cutLast_eq_some found, fun marked => ?_⟩
    obtain ⟨⟨tail, front⟩, first, same⟩ := Option.map_eq_some_iff.mp found
    cases same
    obtain ⟨left, right, whole⟩ := List.append_of_mem (List.mem_reverse.mp marked)
    exact not_infix_of_breakOn (List.cons_ne_nil c []) first ⟨left, right, by simp [whole]⟩
  · rintro ⟨rfl, unmarked⟩
    exact cutLast_append_cons unmarked before

end Parts

theorem trim_cons_of_blank {c : Char} (blank : isBlank c = true) (text : List Char) :
    trim (c :: text) = trim text := by
  simp only [trim, List.dropWhile_cons_of_pos blank]

theorem trim_append_of_blank {gap : List Char} (blank : ∀ c ∈ gap, isBlank c = true)
    (text : List Char) : trim (gap ++ text) = trim text := by
  induction gap with
  | nil => rfl
  | cons c gap ih =>
    obtain ⟨first, others⟩ := List.forall_mem_cons.mp blank
    rw [List.cons_append, trim_cons_of_blank first, ih others]

theorem length_trim_le (text : List Char) : (trim text).length ≤ text.length := by
  have front := (List.dropWhile_sublist isBlank (l := text)).length_le
  have back := (List.dropWhile_sublist isBlank (l := (text.dropWhile isBlank).reverse)).length_le
  simp only [trim, List.length_reverse] at back ⊢
  omega

/-- A text that equals its own trim does not start with a blank. -/
theorem isBlank_head_of_trimmed {c : Char} {text : List Char} (trimmed : trim (c :: text) = c :: text) :
    isBlank c = false := by
  cases blank : isBlank c with
  | false => rfl
  | true =>
    have shorter := length_trim_le text
    rw [← trim_cons_of_blank blank, trimmed, List.length_cons] at shorter
    omega

theorem trim_append_of_blank_end (text : List Char) {gap : List Char}
    (blank : ∀ c ∈ gap, isBlank c = true) : trim (text ++ gap) = trim text := by
  have nothing : gap.dropWhile isBlank = [] := List.dropWhile_eq_nil_iff.mpr blank
  have nothingBack : gap.reverse.dropWhile isBlank = [] :=
    List.dropWhile_eq_nil_iff.mpr fun c member => blank c (List.mem_reverse.mp member)
  simp only [trim, List.dropWhile_append]
  split
  · next empty =>
    rw [List.isEmpty_iff.mp empty, nothing]
  · rw [List.reverse_append, List.dropWhile_append, nothingBack]
    rfl

/-- A text without blanks is its own trim. -/
theorem trim_eq_self {text : List Char} (solid : ∀ c ∈ text, isBlank c = false) : trim text = text := by
  have kept {part : List Char} (solid : ∀ c ∈ part, isBlank c = false) : part.dropWhile isBlank = part := by
    cases part with
    | nil => rfl
    | cons c rest =>
      exact List.dropWhile_cons_of_neg (Bool.eq_false_iff.mp (solid c List.mem_cons_self))
  have back : text.reverse.dropWhile isBlank = text.reverse :=
    kept fun c member => solid c (List.mem_reverse.mp member)
  rw [trim, kept solid, back, List.reverse_reverse]

/-- A text that neither starts nor ends with a blank is its own trim. -/
theorem trim_of_solid_ends {a b : Char} (first : isBlank a = false) (last : isBlank b = false)
    (inner : List Char) : trim (a :: inner ++ [b]) = a :: inner ++ [b] := by
  have front : (a :: inner ++ [b]).dropWhile isBlank = a :: inner ++ [b] :=
    List.dropWhile_cons_of_neg (Bool.eq_false_iff.mp first)
  have back : (b :: (a :: inner).reverse).dropWhile isBlank = b :: (a :: inner).reverse :=
    List.dropWhile_cons_of_neg (Bool.eq_false_iff.mp last)
  rw [trim, front, List.reverse_append, List.reverse_singleton, List.singleton_append, back,
    List.reverse_cons, List.reverse_reverse]

/-- What stands between blanks is what is left when they are trimmed. -/
theorem trim_between {front core back : List Char} (blankFront : ∀ c ∈ front, isBlank c = true)
    (blankBack : ∀ c ∈ back, isBlank c = true) (solid : ∀ c ∈ core, isBlank c = false) :
    trim (front ++ core ++ back) = core := by
  rw [trim_append_of_blank_end _ blankBack, trim_append_of_blank blankFront, trim_eq_self solid]

def Blanks (gap : List Char) : Prop :=
  ∀ c ∈ gap, isBlank c = true

theorem blanks_takeWhile (text : List Char) : Blanks (text.takeWhile isBlank) :=
  List.all_eq_true.mp List.all_takeWhile

/-- Only blanks are trimmed away. -/
theorem exists_blanks_trim (text : List Char) :
    ∃ front back, Blanks front ∧ Blanks back ∧ text = front ++ trim text ++ back := by
  let rest := (text.dropWhile isBlank).reverse
  refine ⟨text.takeWhile isBlank, (rest.takeWhile isBlank).reverse, blanks_takeWhile text,
    fun c member => blanks_takeWhile rest c (List.mem_reverse.mp member), ?_⟩
  have back : trim text ++ (rest.takeWhile isBlank).reverse = text.dropWhile isBlank := by
    rw [trim, ← List.reverse_append, List.takeWhile_append_dropWhile, List.reverse_reverse]
  rw [List.append_assoc, back, List.takeWhile_append_dropWhile]

theorem mem_of_mem_trim {text : List Char} {c : Char} (member : c ∈ trim text) : c ∈ text := by
  obtain ⟨front, back, -, -, whole⟩ := exists_blanks_trim text
  rw [whole]
  exact List.mem_append_left _ (List.mem_append_right _ member)

def IsWord (text : List Char) : Prop :=
  ∀ c ∈ text, c.isAlpha = true

theorem IsWord.not_mem {text : List Char} (word : IsWord text) {c : Char} (other : c.isAlpha = false) :
    c ∉ text := fun member => Bool.false_ne_true (other.symm.trans (word c member))

theorem Blanks.not_mem {gap : List Char} (blank : Blanks gap) {c : Char} (other : isBlank c = false) :
    c ∉ gap := fun member => Bool.false_ne_true (other.symm.trans (blank c member))

theorem toNat_of_isAlpha {c : Char} (letter : c.isAlpha = true) : 65 ≤ c.toNat ∧ c.toNat ≤ 122 := by
  rcases Bool.or_eq_true_iff.mp letter with upper | lower
  · obtain ⟨least, greatest⟩ : 65 ≤ c.toNat ∧ c.toNat ≤ 90 := of_decide_eq_true upper
    omega
  · obtain ⟨least, greatest⟩ : 97 ≤ c.toNat ∧ c.toNat ≤ 122 :=
      (Bool.and_eq_true_iff.mp lower).imp of_decide_eq_true of_decide_eq_true
    omega

theorem isBlank_of_isAlpha {c : Char} (letter : c.isAlpha = true) : isBlank c = false := by
  have range := toNat_of_isAlpha letter
  simp only [isBlank, Bool.or_eq_false_iff, Bool.and_eq_false_iff, decide_eq_false_iff_not]
  omega

theorem isBlank_of_isDigit {c : Char} (digit : c.isDigit = true) : isBlank c = false := by
  obtain ⟨least, greatest⟩ : 48 ≤ c.toNat ∧ c.toNat ≤ 57 :=
    (Bool.and_eq_true_iff.mp digit).imp of_decide_eq_true of_decide_eq_true
  simp only [isBlank, Bool.or_eq_false_iff, Bool.and_eq_false_iff, decide_eq_false_iff_not]
  omega

def blankCodes : List Nat :=
  [9, 10, 11, 12, 13, 0x20, 0x85, 0xA0, 0x1680, 0x2000, 0x2001, 0x2002, 0x2003, 0x2004, 0x2005, 0x2006,
   0x2007, 0x2008, 0x2009, 0x200A, 0x2028, 0x2029, 0x202F, 0x205F, 0x3000]

theorem toNat_mem_of_isBlank {c : Char} (blank : isBlank c = true) : c.toNat ∈ blankCodes := by
  simp only [isBlank, Bool.or_eq_true, Bool.and_eq_true, decide_eq_true_eq] at blank
  simp only [blankCodes, List.mem_cons, List.not_mem_nil]
  omega

/-- No letter or number of any script is a blank. -/
theorem isBlank_of_isAlphanumeric {c : Char} (solid : isAlphanumeric c = true) : isBlank c = false := by
  have outside : ∀ n ∈ blankCodes, (alphanumericRanges.any fun r => r.1 ≤ n && n ≤ r.2) = false := by
    decide +kernel
  rcases Bool.or_eq_true_iff.mp solid with ascii | later
  · rcases Bool.or_eq_true_iff.mp ascii with letter | digit
    · exact isBlank_of_isAlpha letter
    · exact isBlank_of_isDigit digit
  · refine Bool.eq_false_iff.mpr fun blank => ?_
    have inside := (Bool.and_eq_true_iff.mp later).2
    have code := outside c.toNat (toNat_mem_of_isBlank blank)
    exact Bool.false_ne_true (code.symm.trans inside)

theorem IsWord.solid {text : List Char} (word : IsWord text) : ∀ c ∈ text, isBlank c = false :=
  fun c member => isBlank_of_isAlpha (word c member)

end PageServer.Text
