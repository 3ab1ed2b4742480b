import PageServer.Proofs.Number.Numeral

/-! # The texts that are read as doubles

A numeral is a sign or none, digits with at most one point and at least one digit, and an exponent or none.
Exactly the numerals and the words for the infinities and for "not a number" are read as doubles
(`isSome_readFloat?_iff`). The two kinds have nothing in common, since a numeral holds no letters but the mark
of its exponent, and a word holds others.
-/

namespace PageServer.Decimal

open Text (lower)

/-- The sign of a number may be left out. -/
inductive IsSign : List Char → Prop
  | minus : IsSign ['-']
  | plus : IsSign ['+']
  | absent : IsSign []

theorem SignOf.isSign {n : Int} {mark : List Char} (fits : SignOf n mark) : IsSign mark := by
  cases fits with
  | minus => exact .minus
  | plus => exact .plus
  | absent => exact .absent

/-- What does not begin with a sign itself is left when a sign is taken off. -/
theorem sign_append {mark body : List Char} (isSign : IsSign mark)
    (unsigned : ∀ c ∈ body.head?, c ≠ '-' ∧ c ≠ '+') : (sign (mark ++ body)).2 = body := by
  cases isSign with
  | minus | plus => rfl
  | absent =>
    rw [List.nil_append]
    unfold sign
    split
    · exact absurd rfl (unsigned '-' rfl).1
    · exact absurd rfl (unsigned '+' rfl).2
    · rfl

theorem exists_sign (text : List Char) : ∃ mark, IsSign mark ∧ text = mark ++ (sign text).2 := by
  obtain ⟨mark, parts, fits⟩ := signOf_sign text 0
  exact ⟨mark, fits.isSign, parts⟩

def AreDigits (text : List Char) : Prop :=
  ∀ c ∈ text, c.isDigit = true

theorem AreDigits.unsigned {ds : List Char} (digits : AreDigits ds) :
    ∀ c ∈ ds.head?, c ≠ '-' ∧ c ≠ '+' := by
  intro c first
  have digit := digits c (List.mem_of_mem_head? first)
  constructor
  · rintro rfl
    exact absurd digit (by decide)
  · rintro rfl
    exact absurd digit (by decide)

theorem areDigits_takeWhile (text : List Char) : AreDigits (text.takeWhile Char.isDigit) :=
  List.all_eq_true.mp List.all_takeWhile

/-- Digits with a point or without one. There is at least one digit, before the point or behind it. -/
inductive Mantissa : List Char → Prop
  | whole {ds : List Char} (nonempty : ds ≠ []) (digits : AreDigits ds) : Mantissa ds
  | point {ds part : List Char} (nonempty : ds ++ part ≠ []) (digits : AreDigits ds)
      (partDigits : AreDigits part) : Mantissa (ds ++ '.' :: part)

/-- A mark, a sign or none, and digits. The exponent may be left out. -/
inductive Exponent : List Char → Prop
  | absent : Exponent []
  | present {mark : Char} {signs ds : List Char} (marks : mark = 'e' ∨ mark = 'E') (isSign : IsSign signs)
      (nonempty : ds ≠ []) (digits : AreDigits ds) : Exponent (mark :: (signs ++ ds))

/-- The text spells a number in decimal. -/
def Numeral (text : List Char) : Prop :=
  ∃ signs mantissa exponent, IsSign signs ∧ Mantissa mantissa ∧ Exponent exponent ∧
    text = signs ++ (mantissa ++ exponent)

theorem exponent?_cons (mark : Char) (rest : List Char) :
    exponent? (mark :: rest) =
      if (mark = 'e' ∨ mark = 'E') ∧ (sign rest).2 ≠ [] ∧ (sign rest).2.all Char.isDigit then
        some (exponentOf (sign rest).1 ((sign rest).2.map digitValue))
      else none :=
  rfl

theorem isSome_exponent?_iff {text : List Char} : (exponent? text).isSome = true ↔ Exponent text := by
  constructor
  · intro read
    cases text with
    | nil => exact .absent
    | cons mark rest =>
      rw [exponent?_cons] at read
      obtain ⟨signs, isSign, parts⟩ := exists_sign rest
      obtain ⟨marks, nonempty, digits⟩ := Option.isSome_ite.mp read
      rw [parts]
      exact .present marks isSign nonempty (List.all_eq_true.mp digits)
  · intro exponent
    cases exponent with
    | absent => rfl
    | present marks isSign nonempty digits =>
      rw [exponent?_cons, sign_append isSign digits.unsigned]
      exact Option.isSome_ite.mpr ⟨marks, nonempty, List.all_eq_true.mpr digits⟩

/-- Behind a mantissa an exponent is left, which begins neither with a digit nor with a point. -/
theorem Exponent.ends {text : List Char} (exponent : Exponent text) :
    text.takeWhile Char.isDigit = [] ∧ fraction text = ([], text) := by
  cases exponent with
  | absent => exact ⟨rfl, rfl⟩
  | present marks isSign nonempty digits =>
    rcases marks with rfl | rfl
    · exact ⟨rfl, rfl⟩
    · exact ⟨rfl, rfl⟩

def digitsOf (body : List Char) : List Char × List Char × List Char :=
  (body.takeWhile Char.isDigit, fraction (body.dropWhile Char.isDigit))

theorem digitsOf_append {mantissa rest : List Char} (isMantissa : Mantissa mantissa)
    (exponent : Exponent rest) :
    ¬ ((digitsOf (mantissa ++ rest)).1 = [] ∧ (digitsOf (mantissa ++ rest)).2.1 = []) ∧
      (digitsOf (mantissa ++ rest)).2.2 = rest := by
  obtain ⟨unread, noPoint⟩ := exponent.ends
  cases isMantissa with
  | whole nonempty digits =>
    obtain ⟨taken, dropped⟩ := takeWhile_digits digits rest unread
    rw [digitsOf, taken, dropped, noPoint]
    exact ⟨fun none => nonempty none.1, rfl⟩
  | @point ds part nonempty digits partDigits =>
    obtain ⟨taken, dropped⟩ := takeWhile_digits digits ('.' :: (part ++ rest)) rfl
    obtain ⟨takenPart, droppedPart⟩ := takeWhile_digits partDigits rest unread
    have pointed : fraction ('.' :: (part ++ rest)) = (part, rest) := by
      rw [fraction, takenPart, droppedPart]
    rw [List.append_assoc, List.cons_append, digitsOf, taken, dropped, pointed]
    exact ⟨fun none => nonempty (List.append_eq_nil_iff.mpr none), rfl⟩

theorem exists_mantissa {body : List Char}
    (some : ¬ ((digitsOf body).1 = [] ∧ (digitsOf body).2.1 = [])) :
    ∃ mantissa, Mantissa mantissa ∧ body = mantissa ++ (digitsOf body).2.2 := by
  have parts : body = body.takeWhile Char.isDigit ++ body.dropWhile Char.isDigit :=
    List.takeWhile_append_dropWhile.symm
  simp only [digitsOf] at some ⊢
  unfold fraction at some ⊢
  split at some
  · next more pointed =>
    refine ⟨_, .point (fun none => some (List.append_eq_nil_iff.mp none)) (areDigits_takeWhile _)
      (areDigits_takeWhile more), ?_⟩
    dsimp only
    rw [List.append_assoc, List.cons_append, List.takeWhile_append_dropWhile, ← pointed]
    exact parts
  · exact ⟨_, .whole (fun none => some ⟨none, rfl⟩) (areDigits_takeWhile _), parts⟩

/-- A mantissa begins with a digit or a point. -/
theorem Mantissa.first {mantissa : List Char} (isMantissa : Mantissa mantissa) :
    ∃ c rest, mantissa = c :: rest ∧ (c.isDigit = true ∨ c = '.') := by
  cases isMantissa with
  | whole nonempty digits =>
    obtain ⟨c, rest, rfl⟩ := List.exists_cons_of_ne_nil nonempty
    exact ⟨c, rest, rfl, .inl (digits c List.mem_cons_self)⟩
  | @point ds part nonempty digits partDigits =>
    cases ds with
    | nil => exact ⟨'.', part, rfl, .inr rfl⟩
    | cons c ds => exact ⟨c, ds ++ '.' :: part, rfl, .inl (digits c List.mem_cons_self)⟩

theorem Mantissa.exists_digit {mantissa : List Char} (isMantissa : Mantissa mantissa) :
    ∃ c ∈ mantissa, c.isDigit = true := by
  cases isMantissa with
  | whole nonempty digits =>
    obtain ⟨c, member⟩ := List.exists_mem_of_ne_nil _ nonempty
    exact ⟨c, member, digits c member⟩
  | point nonempty digits partDigits =>
    obtain ⟨c, member⟩ := List.exists_mem_of_ne_nil _ nonempty
    rcases List.mem_append.mp member with before | behind
    · exact ⟨c, List.mem_append_left _ before, digits c before⟩
    · exact ⟨c, List.mem_append_right _ (List.mem_cons_of_mem _ behind), partDigits c behind⟩

theorem sign_mantissa {signs mantissa : List Char} (isSign : IsSign signs) (isMantissa : Mantissa mantissa)
    (rest : List Char) : (sign (signs ++ (mantissa ++ rest))).2 = mantissa ++ rest := by
  refine sign_append isSign fun c first => ?_
  obtain ⟨d, more, rfl, digit⟩ := isMantissa.first
  obtain rfl := Option.some.inj first
  constructor
  · rintro rfl
    exact absurd digit (by decide)
  · rintro rfl
    exact absurd digit (by decide)

theorem read?_eq (text : List Char) :
    read? text =
      let found := digitsOf (sign text).2
      if found.1 = [] ∧ found.2.1 = [] then none
      else (exponent? found.2.2).map fun e =>
        ⟨(sign text).1, ofDigits (found.1 ++ found.2.1), e - found.2.1.length⟩ :=
  rfl

theorem isSome_read?_iff {text : List Char} : (read? text).isSome = true ↔ Numeral text := by
  rw [read?_eq]
  dsimp only
  constructor
  · intro read
    split at read
    · contradiction
    · next some =>
      rw [Option.isSome_map, isSome_exponent?_iff] at read
      obtain ⟨signs, isSign, parts⟩ := exists_sign text
      obtain ⟨mantissa, isMantissa, whole⟩ := exists_mantissa some
      exact ⟨signs, mantissa, _, isSign, isMantissa, read, parts.trans (congrArg (signs ++ ·) whole)⟩
  · rintro ⟨signs, mantissa, rest, isSign, isMantissa, exponent, rfl⟩
    obtain ⟨some, left⟩ := digitsOf_append isMantissa exponent
    rw [sign_mantissa isSign isMantissa, if_neg some, left, Option.isSome_map]
    exact isSome_exponent?_iff.mpr exponent

/-- A numeral holds digits, signs, a point and the mark of an exponent, and nothing else. -/
theorem Numeral.of_mem {text : List Char} (numeral : Numeral text) {c : Char} (member : c ∈ text) :
    c.isDigit = true ∨ c ∈ ['-', '+', '.', 'e', 'E'] := by
  have ofSign {signs : List Char} (isSign : IsSign signs) (inside : c ∈ signs) :
      c ∈ ['-', '+', '.', 'e', 'E'] := by
    cases isSign <;> simp_all
  obtain ⟨signs, mantissa, rest, isSign, isMantissa, exponent, rfl⟩ := numeral
  rcases List.mem_append.mp member with inside | behind
  · exact .inr (ofSign isSign inside)
  rcases List.mem_append.mp behind with inside | behind
  · cases isMantissa with
    | whole nonempty digits => exact .inl (digits c inside)
    | point nonempty digits partDigits =>
      rcases List.mem_append.mp inside with before | pointed
      · exact .inl (digits c before)
      rcases List.mem_cons.mp pointed with rfl | part
      · exact .inr (by decide)
      · exact .inl (partDigits c part)
  · cases exponent with
    | absent => contradiction
    | present marks signed nonempty digits =>
      rcases List.mem_cons.mp behind with rfl | behind
      · rcases marks with rfl | rfl
        · exact .inr (by decide)
        · exact .inr (by decide)
      rcases List.mem_append.mp behind with inside | digit
      · exact .inr (ofSign signed inside)
      · exact .inl (digits c digit)

/-- Behind its sign, a numeral begins with a digit or a point, and it has a digit. -/
theorem Numeral.shape {text : List Char} (numeral : Numeral text) :
    (∃ c rest, (sign text).2 = c :: rest ∧ (c.isDigit = true ∨ c = '.')) ∧
      (sign text).2.any Char.isDigit = true := by
  obtain ⟨signs, mantissa, rest, isSign, isMantissa, exponent, rfl⟩ := numeral
  rw [sign_mantissa isSign isMantissa]
  obtain ⟨c, more, begins, first⟩ := isMantissa.first
  obtain ⟨d, member, digit⟩ := isMantissa.exists_digit
  refine ⟨⟨c, more ++ rest, ?_, first⟩, ?_⟩
  · rw [begins, List.cons_append]
  · exact List.any_eq_true.mpr ⟨d, List.mem_append_left rest member, digit⟩

/-- What spells an integer is a numeral. -/
theorem Spells.numeral {n : Int} {text : List Char} (spells : Spells n text) : Numeral text := by
  obtain ⟨zeros, fits⟩ := spells
  have mantissa : Mantissa (List.replicate zeros '0' ++ digits n.natAbs) :=
    .whole (List.append_ne_nil_of_right_ne_nil _ Nat.toDigits_ne_nil) fun _ => isDigit_of_mem_zeros
  exact ⟨_, _, [], fits.isSign, mantissa, .absent, by rw [List.append_nil]⟩

/-- The text is a word for an infinity or for "not a number", in any case and perhaps with a sign. -/
def NamesDouble (text : List Char) : Prop :=
  ∃ signs word, IsSign signs ∧ text = signs ++ word ∧
    (lower word = "inf".toList ∨ lower word = "infinity".toList ∨ lower word = "nan".toList)

/-- Such a word begins with one of two letters. -/
theorem first_of_lower {word : List Char}
    (named : lower word = "inf".toList ∨ lower word = "infinity".toList ∨ lower word = "nan".toList) :
    ∃ c rest, word = c :: rest ∧ c ∈ ['i', 'I', 'n', 'N'] := by
  have begins (large : Char) {small : Char} {more : List Char} (same : lower word = small :: more)
      (pair : large.toNat + 32 = small.toNat) (listed : small ∈ ['i', 'I', 'n', 'N'])
      (listedToo : large ∈ ['i', 'I', 'n', 'N']) : ∃ c rest, word = c :: rest ∧ c ∈ ['i', 'I', 'n', 'N'] := by
    obtain ⟨c, rest, rfl, first, -⟩ := List.map_eq_cons_iff.mp same
    refine ⟨c, rest, rfl, ?_⟩
    rcases Text.eq_or_eq_of_toLower_eq first pair with rfl | rfl
    · exact listed
    · exact listedToo
  rcases named with same | same | same
  · exact begins 'I' same (by decide) (by decide) (by decide)
  · exact begins 'I' same (by decide) (by decide) (by decide)
  · exact begins 'N' same (by decide) (by decide) (by decide)

theorem readWord?_eq (text : List Char) :
    readWord? text =
      if lower (sign text).2 = "inf".toList ∨ lower (sign text).2 = "infinity".toList then
        some (Binary64.toFloat (sign text).1 Binary64.infinity)
      else if lower (sign text).2 = "nan".toList then some (0.0 / 0.0)
      else none :=
  rfl

theorem NamesDouble.sign {text : List Char} (names : NamesDouble text) :
    (∃ c rest, (sign text).2 = c :: rest ∧ c ∈ ['i', 'I', 'n', 'N']) ∧
      (lower (sign text).2 = "inf".toList ∨ lower (sign text).2 = "infinity".toList ∨
        lower (sign text).2 = "nan".toList) := by
  obtain ⟨signs, word, isSign, rfl, named⟩ := names
  obtain ⟨c, rest, begins, letter⟩ := first_of_lower named
  have left : (Decimal.sign (signs ++ word)).2 = word := by
    refine sign_append isSign fun d first => ?_
    rw [begins] at first
    obtain rfl := Option.some.inj first
    constructor
    · rintro rfl
      exact absurd letter (by decide)
    · rintro rfl
      exact absurd letter (by decide)
  rw [left]
  exact ⟨⟨c, rest, begins, letter⟩, named⟩

theorem isSome_readWord?_iff {text : List Char} : (readWord? text).isSome = true ↔ NamesDouble text := by
  rw [readWord?_eq]
  constructor
  · intro read
    obtain ⟨signs, isSign, parts⟩ := exists_sign text
    refine ⟨signs, _, isSign, parts, ?_⟩
    split at read
    · next named => exact named.imp id .inl
    · split at read
      · next named => exact .inr (.inr named)
      · contradiction
  · intro names
    obtain ⟨-, inf | infinity | nan⟩ := names.sign
    · rw [if_pos (.inl inf)]
      rfl
    · rw [if_pos (.inr infinity)]
      rfl
    · split
      · rfl
      · rfl

/-- What is read as a double is a numeral or a word for one. -/
theorem isSome_readFloat?_iff {text : List Char} :
    (readFloat? text).isSome = true ↔ Numeral text ∨ NamesDouble text := by
  rw [readFloat?, Option.isSome_or, Option.isSome_map, Bool.or_eq_true, isSome_read?_iff,
    isSome_readWord?_iff]

end PageServer.Decimal
