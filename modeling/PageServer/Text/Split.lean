/-! # Taking texts apart

A list is divided at every element of a class, or at the first or last place where a mark stands.
The laws say that nothing is lost: the parts and the marks, put together again, are the whole.
-/

namespace PageServer.Text

variable {α : Type}

/-- The parts between the elements at which `p` holds. There is one part more than such elements. -/
def divide (p : α → Bool) : List α → List (List α)
  | [] => [[]]
  | c :: rest =>
    if p c then [] :: divide p rest
    else
      match divide p rest with
      | [] => [[c]]
      | part :: parts => (c :: part) :: parts

theorem divide_ne_nil (p : α → Bool) (s : List α) : divide p s ≠ [] := by
  cases s with
  | nil => simp [divide]
  | cons c rest =>
    unfold divide
    split
    · simp
    · split <;> simp

variable [DecidableEq α]

/-- The parts around the first place where `mark` stands. -/
def breakOn (mark : List α) : List α → Option (List α × List α)
  | [] => if mark = [] then some ([], []) else none
  | c :: rest =>
    if mark.isPrefixOf (c :: rest) then some ([], (c :: rest).drop mark.length)
    else (breakOn mark rest).map fun (before, after) => (c :: before, after)

theorem breakOn_eq_some {mark s before after : List α} (found : breakOn mark s = some (before, after)) :
    s = before ++ mark ++ after := by
  induction s generalizing before with
  | nil =>
    simp only [breakOn] at found
    split at found
    · next empty => simp_all
    · contradiction
  | cons c rest ih =>
    simp only [breakOn] at found
    split at found
    · next here =>
      obtain ⟨tail, whole⟩ := List.isPrefixOf_iff_prefix.mp here
      simp only [Option.some.injEq, Prod.mk.injEq] at found
      obtain ⟨rfl, rfl⟩ := found
      simp [← whole]
    · obtain ⟨⟨first, second⟩, later, same⟩ := Option.map_eq_some_iff.mp found
      simp only [Prod.mk.injEq] at same
      obtain ⟨rfl, rfl⟩ := same
      simp [ih later]

/-- What follows a mark that was found is shorter than the whole. -/
theorem length_after_of_breakOn {mark s before after : List α}
    (found : breakOn mark s = some (before, after)) :
    after.length + mark.length ≤ s.length := by
  have whole := congrArg List.length (breakOn_eq_some found)
  simp only [List.length_append] at whole
  omega

/-- The parts around the first `c`. -/
def cut (c : α) (s : List α) : Option (List α × List α) :=
  breakOn [c] s

/-- The parts around the last `c`. -/
def cutLast (c : α) (s : List α) : Option (List α × List α) :=
  (cut c s.reverse).map fun (after, before) => (before.reverse, after.reverse)

theorem cut_eq_some {c : α} {s before after : List α} (found : cut c s = some (before, after)) :
    s = before ++ c :: after := by
  simpa using breakOn_eq_some found

theorem cutLast_eq_some {c : α} {s before after : List α}
    (found : cutLast c s = some (before, after)) : s = before ++ c :: after := by
  obtain ⟨⟨tail, front⟩, first, same⟩ := Option.map_eq_some_iff.mp found
  simp only [Prod.mk.injEq] at same
  obtain ⟨rfl, rfl⟩ := same
  have whole := congrArg List.reverse (cut_eq_some first)
  simpa using whole

/-- The text between two double quotes, or the text itself if it does not stand between two. -/
def unquote : List Char → List Char
  | '"' :: rest => if rest.getLast? = some '"' then rest.dropLast else '"' :: rest
  | text => text

/-- Quotes that were put around a text are taken off. -/
@[simp] theorem unquote_quotes (text : List Char) : unquote ('"' :: text ++ ['"']) = text := by
  simp [unquote]

end PageServer.Text
