import Mathlib.Logic.Function.Basic
import PageServer.Stacks

/-! # Stacks are lists by name

Whoever uses stacks through their operations sees a list for each name and nothing else: a name that was
never used has the empty list, as has a name that has run empty. An operation looks at the entry of its name
only and changes no other (`answer_perform`, `getElem?_perform`). From this one step come the runs: what is
answered is what the lists answer (`run_eq_onLists`), and what is answered about one name is what would be
answered without the other names (`run_filter_name`). `areLists` puts this together.
-/

namespace PageServer.Stacks

variable {α : Type}

inductive Operation (α : Type)
  | push (name : String) (value : α)
  | pop (name : String)
  | peek (name : String)
  /-- Changes the top entry in its place. -/
  | update (name : String) (change : α → α)
  | isEmpty (name : String)
  | depth (name : String)
  | drain (name : String)

inductive Answer (α : Type)
  /-- It is done, and there is nothing to say. -/
  | done
  | underflow (failure : Underflow)
  /-- The top entry: the one that was taken or seen, or what a change has made of it. -/
  | entry (value : α)
  | emptiness (isEmpty : Bool)
  | size (depth : Nat)
  | entries (values : List α)

def Operation.name : Operation α → String
  | .push name _ | .pop name | .peek name | .update name _ | .isEmpty name | .depth name
  | .drain name => name

/-- Whether an operation needs a top entry. -/
def Operation.needsEntry : Operation α → Bool
  | .pop _ | .peek _ | .update _ _ => true
  | .push _ _ | .isEmpty _ | .depth _ | .drain _ => false

/-- What an operation answers, and the stacks after it. After one that fails, they are those before it. -/
def perform (s : Stacks α) : Operation α → Answer α × Stacks α
  | .push name value => (.done, s.push name value)
  | .pop name =>
    match s.pop name with
    | .error failure => (.underflow failure, s)
    | .ok (top, rest) => (.entry top, rest)
  | .peek name =>
    match s.peek name with
    | .error failure => (.underflow failure, s)
    | .ok top => (.entry top, s)
  | .update name change =>
    match s.peek name with
    | .error failure => (.underflow failure, s)
    | .ok top =>
      match s.setTop name (change top) with
      | .error failure => (.underflow failure, s)
      | .ok changed => (.entry (change top), changed)
  | .isEmpty name => (.emptiness (s.isEmpty name), s)
  | .depth name => (.size (s.depth name), s)
  | .drain name => (.entries (s.drain name).1, (s.drain name).2)

/-- Does operations one after the other. Each stands with its answer in what is returned. -/
def runBy {σ : Type} (perform : σ → Operation α → Answer α × σ) (s : σ) :
    List (Operation α) → List (Operation α × Answer α) × σ
  | [] => ([], s)
  | o :: rest =>
    let later := runBy perform (perform s o).2 rest
    ((o, (perform s o).1) :: later.1, later.2)

abbrev run (s : Stacks α) : List (Operation α) → List (Operation α × Answer α) × Stacks α :=
  runBy perform s

/-- What an operation answers if its name has this list, top first, and the list that it leaves. -/
def Operation.onList : Operation α → List α → Answer α × List α
  | .push _ value, values => (.done, value :: values)
  | .pop name, [] | .peek name, [] | .update name _, [] => (.underflow ⟨name⟩, [])
  | .pop _, top :: rest => (.entry top, rest)
  | .peek _, top :: rest => (.entry top, top :: rest)
  | .update _ change, top :: rest => (.entry (change top), change top :: rest)
  | .isEmpty _, values => (.emptiness values.isEmpty, values)
  | .depth _, values => (.size values.length, values)
  | .drain _, values => (.entries values, [])

/-- What an operation answers where each name has a list, and the lists after it. -/
def performOnLists (lists : String → List α) (o : Operation α) : Answer α × (String → List α) :=
  ((o.onList (lists o.name)).1, Function.update lists o.name (o.onList (lists o.name)).2)

/-- Does operations on a list for each name, one after the other. -/
abbrev runOnLists (lists : String → List α) :
    List (Operation α) → List (Operation α × Answer α) × (String → List α) :=
  runBy performOnLists lists

section Step

variable {s t : Stacks α} {name other : String} {values : List α}

theorem list_eq (s : Stacks α) (name : String) : s.list name = s.entries[name]?.getD [] :=
  Std.ExtTreeMap.getD_eq_getD_getElem?

theorem getElem?_set (s : Stacks α) (name other : String) (values : List α) :
    (s.set name values).entries[other]? = if name = other then some values else s.entries[other]? := by
  simp [set, Std.ExtTreeMap.getElem?_insert]

/-- Nothing but the entries of the names makes a difference between stacks. -/
theorem eq_of_getElem? (same : ∀ name : String, s.entries[name]? = t.entries[name]?) : s = t :=
  congrArg Stacks.mk (Std.ExtTreeMap.ext_getElem? fun {name} => same name)

/-- To replace entries by the same ones changes nothing. -/
theorem set_eq_self (held : s.entries[name]? = some values) : s.set name values = s := by
  refine eq_of_getElem? fun other => ?_
  rw [getElem?_set]
  split
  · next same => rw [← same, held]
  · rfl

/-- What an operation makes of the entry of its name. Only a push brings a name in, and none goes. -/
def Operation.leave (o : Operation α) (entry : Option (List α)) : Option (List α) :=
  match o with
  | .push _ value => some (value :: entry.getD [])
  | o => entry.map fun values => (o.onList values).2

/-- An operation answers what it answers on the list of its name. -/
theorem answer_perform (s : Stacks α) (o : Operation α) :
    (s.perform o).1 = (o.onList (s.list o.name)).1 := by
  cases o with
  | push | drain | depth => rfl
  | isEmpty name =>
    simp only [perform, isEmpty, depth, Operation.name, Operation.onList]
    cases s.list name <;> rfl
  | pop name | peek name =>
    simp only [perform, pop, peek, Operation.name]
    cases s.list name <;> rfl
  | update name change =>
    simp only [perform, peek, setTop, Operation.name]
    cases s.list name <;> rfl

/-- An operation leaves the stacks as they are, or replaces the entry of its name. -/
theorem perform_snd (s : Stacks α) (o : Operation α) :
    (s.perform o).2 = (o.leave s.entries[o.name]?).elim s (s.set o.name) := by
  cases held : s.entries[o.name]? with
  | none =>
    have nothing : s.list o.name = [] := by rw [list_eq, held]; rfl
    have absent : s.entries.contains o.name = false := by
      rw [Std.ExtTreeMap.contains_eq_isSome_getElem?, held]; rfl
    cases o with
    | push name value => exact congrArg (fun values => s.set name (value :: values)) nothing
    | drain name => exact if_neg (Bool.eq_false_iff.mp absent)
    | isEmpty | depth => rfl
    | pop name | peek name | update name change =>
      change s.list name = [] at nothing
      simp only [perform, pop, peek, nothing]
      rfl
  | some values =>
    have listed : s.list o.name = values := by rw [list_eq, held]; rfl
    have present : s.entries.contains o.name = true := by
      rw [Std.ExtTreeMap.contains_eq_isSome_getElem?, held]; rfl
    -- an operation that leaves the list alone replaces it by itself
    cases o with
    | push name value => exact congrArg (fun values => s.set name (value :: values)) listed
    | drain name => exact if_pos present
    | isEmpty name | depth name => exact (set_eq_self held).symm
    | peek name =>
      change s.list name = values at listed
      cases values <;> simp only [perform, peek, listed] <;> exact (set_eq_self held).symm
    | pop name | update name change =>
      change s.list name = values at listed
      cases values with
      | nil =>
        simp only [perform, pop, peek, listed]
        exact (set_eq_self held).symm
      | cons top rest =>
        simp only [perform, pop, peek, setTop, listed]
        rfl

theorem Operation.eq_none_of_leave {o : Operation α} {entry : Option (List α)} (none : o.leave entry = none) :
    entry = Option.none := by
  cases o with
  | push => contradiction
  | pop | peek | update | isEmpty | depth | drain => exact Option.map_eq_none_iff.mp none

/-- An operation changes the entry of its name and no other. -/
theorem getElem?_perform (s : Stacks α) (o : Operation α) (other : String) :
    (s.perform o).2.entries[other]? =
      if o.name = other then o.leave s.entries[other]? else s.entries[other]? := by
  rw [perform_snd]
  cases left : o.leave s.entries[o.name]? with
  | none =>
    have absent : s.entries[o.name]? = none := Operation.eq_none_of_leave left
    split
    · next same =>
      rw [← same, left]
      exact absent
    · rfl
  | some values =>
    refine (getElem?_set s o.name other values).trans ?_
    split
    · next same => rw [← same, left]
    · rfl

/-- To the list of its name, an operation does what it does to that list, and nothing to any other. -/
theorem list_perform (s : Stacks α) (o : Operation α) :
    (s.perform o).2.list = Function.update s.list o.name (o.onList (s.list o.name)).2 := by
  funext other
  rw [list_eq, getElem?_perform, Function.update_apply]
  by_cases same : o.name = other
  · subst same
    rw [if_pos rfl, if_pos rfl, list_eq]
    cases s.entries[o.name]? with
    | none => cases o <;> rfl
    | some values => cases o <;> rfl
  · rw [if_neg same, if_neg (Ne.symm same), list_eq]

/-- An operation does to the stacks what it does to their lists. -/
theorem performOnLists_list (s : Stacks α) (o : Operation α) :
    performOnLists s.list o = ((s.perform o).1, (s.perform o).2.list) := by
  rw [performOnLists, answer_perform, list_perform]

/-- Operations on two names can be done in either order. -/
theorem perform_comm (s : Stacks α) {a b : Operation α} (different : a.name ≠ b.name) :
    ((s.perform a).2.perform b).1 = (s.perform b).1 ∧
      ((s.perform a).2.perform b).2 = ((s.perform b).2.perform a).2 := by
  constructor
  · rw [answer_perform, answer_perform, list_perform, Function.update_of_ne different.symm]
  · refine eq_of_getElem? fun name => ?_
    simp only [getElem?_perform]
    by_cases first : a.name = name
    · have second : b.name ≠ name := fun same => different (first.trans same.symm)
      simp only [first, second, ↓reduceIte]
    · simp only [first, ↓reduceIte]

/-- An operation fails exactly if it needs an entry and its name has none. -/
theorem underflow_iff (s : Stacks α) (o : Operation α) (failure : Underflow) :
    (s.perform o).1 = .underflow failure ↔
      o.needsEntry = true ∧ s.list o.name = [] ∧ failure = ⟨o.name⟩ := by
  rw [answer_perform]
  cases s.list o.name with
  | nil => cases o <;> simp [Operation.onList, Operation.needsEntry, Operation.name, eq_comm]
  | cons top rest => cases o <;> simp [Operation.onList]

/-- An operation that fails changes nothing. -/
theorem perform_of_underflow {o : Operation α} {failure : Underflow}
    (failed : (s.perform o).1 = .underflow failure) : (s.perform o).2 = s := by
  obtain ⟨needs, empty, -⟩ := (underflow_iff s o failure).mp failed
  cases o with
  | push | isEmpty | depth | drain => contradiction
  | pop name | peek name | update name change =>
    change s.list name = [] at empty
    simp only [perform, pop, peek, empty]

end Step

/-- What is popped was on top of what is left. -/
theorem list_of_pop {s rest : Stacks α} {name : String} {top : α} (popped : s.pop name = .ok (top, rest)) :
    s.list name = top :: rest.list name := by
  rw [pop] at popped
  split at popped
  · contradiction
  · next held =>
    cases popped
    rw [held, list_set_self]

/-- Pops a name until that fails: what was popped, in order, and the stacks that are left. -/
def popAll (s : Stacks α) (name : String) : List α × Stacks α :=
  match _ : s.pop name with
  | .error _ => ([], s)
  | .ok (top, rest) => (top :: (rest.popAll name).1, (rest.popAll name).2)
termination_by s.depth name
decreasing_by
  all_goals
    next popped =>
      rw [depth, depth, list_of_pop popped]
      exact Nat.lt_add_one _

theorem popAll_of_error {s : Stacks α} {name : String} {failure : Underflow}
    (failed : s.pop name = .error failure) : s.popAll name = ([], s) := by
  rw [popAll]
  split
  · rfl
  · next popped =>
    rw [failed] at popped
    contradiction

theorem popAll_of_ok {s rest : Stacks α} {name : String} {top : α} (popped : s.pop name = .ok (top, rest)) :
    s.popAll name = (top :: (rest.popAll name).1, (rest.popAll name).2) := by
  rw [popAll]
  split
  · next failed =>
    rw [popped] at failed
    contradiction
  · next popped' =>
    rw [popped] at popped'
    cases popped'
    rfl

/-- To drain a name is to pop it until that fails. -/
theorem drain_eq_popAll (s : Stacks α) (name : String) : s.drain name = s.popAll name := by
  induction held : s.list name generalizing s with
  | nil =>
    have failed : s.pop name = .error ⟨name⟩ := by rw [pop, held]
    rw [popAll_of_error failed, drain, held]
    split
    · next present =>
      rw [Std.ExtTreeMap.contains_eq_isSome_getElem?, Option.isSome_iff_exists] at present
      obtain ⟨values, entry⟩ := present
      have empty : values = [] := by rwa [list_eq, entry] at held
      rw [set_eq_self (empty ▸ entry)]
    · rfl
  | cons top rest ih =>
    have popped : s.pop name = .ok (top, s.set name rest) := by rw [pop, held]
    have present : s.entries.contains name = true := by
      by_contra absent
      rw [list_eq, Std.ExtTreeMap.getElem?_eq_none_of_contains_eq_false (Bool.eq_false_iff.mpr absent)] at held
      contradiction
    have still : (s.set name rest).entries.contains name = true := Std.ExtTreeMap.contains_insert_self
    rw [popAll_of_ok popped, ← ih (s.set name rest) (list_set_self s name rest), drain, drain, if_pos present,
      if_pos still, held, list_set_self, set_set]

section Runs

/-- Runs agree where each step of the one is a step of the other, seen through a view of its state. -/
theorem runBy_view {σ τ : Type} {perform : σ → Operation α → Answer α × σ}
    {performSeen : τ → Operation α → Answer α × τ} (view : σ → τ)
    (step : ∀ s o, performSeen (view s) o = ((perform s o).1, view (perform s o).2)) (s : σ)
    (operations : List (Operation α)) :
    runBy performSeen (view s) operations =
      ((runBy perform s operations).1, view (runBy perform s operations).2) := by
  induction operations generalizing s with
  | nil => rfl
  | cons o operations ih => simp only [runBy, step, ih]

/-- A run answers what it answers on the lists, and does to them what it does there. -/
theorem run_eq_onLists (s : Stacks α) (operations : List (Operation α)) :
    runOnLists s.list operations = ((s.run operations).1, (s.run operations).2.list) :=
  runBy_view list performOnLists_list s operations

/-- What is answered about a name, and its list in the end, depends on nothing but the operations on that name
and on its list in the beginning. -/
theorem runOnLists_filter_name {name : String} {lists others : String → List α}
    (same : lists name = others name) (operations : List (Operation α)) :
    (runOnLists lists operations).1.filter (fun answered => answered.1.name = name) =
        (runOnLists others (operations.filter fun o => o.name = name)).1 ∧
      (runOnLists lists operations).2 name =
        (runOnLists others (operations.filter fun o => o.name = name)).2 name := by
  induction operations generalizing lists others with
  | nil => exact ⟨rfl, same⟩
  | cons o operations ih =>
    by_cases about : o.name = name
    · subst about
      have answers : (performOnLists lists o).1 = (performOnLists others o).1 := by
        rw [performOnLists, performOnLists, same]
      have next : (performOnLists lists o).2 o.name = (performOnLists others o).2 o.name := by
        simp only [performOnLists, same, Function.update_self]
      obtain ⟨later, last⟩ := ih next
      simp only [runBy, List.filter_cons, decide_true, ↓reduceIte, answers]
      exact ⟨congrArg _ later, last⟩
    · have next : (performOnLists lists o).2 name = others name := by
        simp only [performOnLists, Function.update_of_ne (Ne.symm about), same]
      simp only [runBy, List.filter_cons, about, decide_false, Bool.false_eq_true, ↓reduceIte]
      exact ih next

/-- What is answered about a name is what would be answered if there were no other operations. -/
theorem run_filter_name (s : Stacks α) (operations : List (Operation α)) (name : String) :
    (s.run operations).1.filter (fun answered => answered.1.name = name) =
        (s.run (operations.filter fun o => o.name = name)).1 ∧
      (s.run operations).2.list name = (s.run (operations.filter fun o => o.name = name)).2.list name := by
  have apart := runOnLists_filter_name (rfl : s.list name = s.list name) operations
  rwa [run_eq_onLists, run_eq_onLists] at apart

/-- Stacks of the same lists answer alike, whichever names were used before. -/
theorem run_of_same_lists {s t : Stacks α} (same : s.list = t.list) (operations : List (Operation α)) :
    (s.run operations).1 = (t.run operations).1 := by
  have left := run_eq_onLists s operations
  have right := run_eq_onLists t operations
  rw [same, right] at left
  exact (congrArg Prod.fst left).symm

end Runs

/-- What holds of stacks of one type: they are a list for each name. -/
structure AreLists (α : Type) : Prop where
  /-- Every name has the empty list to begin with. -/
  fresh : (∅ : Stacks α).list = fun _ => []
  /-- Every run answers what it answers on the lists, and leaves the lists that it leaves there. -/
  refined : ∀ (s : Stacks α) (operations : List (Operation α)),
    (s.run operations).1 = (runOnLists s.list operations).1 ∧
      (s.run operations).2.list = (runOnLists s.list operations).2
  /-- No run tells apart stacks of the same lists. A name that has run empty is a name that was never used. -/
  alike : ∀ (s t : Stacks α), s.list = t.list →
    ∀ operations, (s.run operations).1 = (t.run operations).1
  /-- Operations on two names can be done in either order, with the same answers and the same stacks. -/
  commute : ∀ (s : Stacks α) (a b : Operation α), a.name ≠ b.name →
    ((s.perform a).2.perform b).1 = (s.perform b).1 ∧ ((s.perform b).2.perform a).1 = (s.perform a).1 ∧
      ((s.perform a).2.perform b).2 = ((s.perform b).2.perform a).2
  /-- In a run, the answers about a name and its list in the end are those of the operations on that name
  alone. -/
  apart : ∀ (s : Stacks α) (operations : List (Operation α)) (name : String),
    (s.run operations).1.filter (fun answered => answered.1.name = name) =
        (s.run (operations.filter fun o => o.name = name)).1 ∧
      (s.run operations).2.list name = (s.run (operations.filter fun o => o.name = name)).2.list name
  /-- Exactly the operations that need an entry fail where there is none. The failure holds their name, and
  nothing has changed. -/
  underflow : ∀ (s : Stacks α) (o : Operation α) (failure : Underflow),
    ((s.perform o).1 = .underflow failure ↔
        o.needsEntry = true ∧ s.list o.name = [] ∧ failure = ⟨o.name⟩) ∧
      ((s.perform o).1 = .underflow failure → (s.perform o).2 = s)
  /-- To drain a name gives what popping it until that fails gives, and leaves the same stacks. -/
  drained : ∀ (s : Stacks α) (name : String), s.drain name = s.popAll name
  /-- Then the name is empty, every other name is as it was, and what is pushed next stands alone. -/
  emptied : ∀ (s : Stacks α) (name : String),
    (s.drain name).2.list = Function.update s.list name [] ∧
      ∀ value, ((s.drain name).2.push name value).list name = [value]

/-- Stacks by name are lists by name. -/
theorem areLists (α : Type) : AreLists α := by
  constructor
  case fresh => exact funext list_empty
  case refined =>
    intro s operations
    rw [run_eq_onLists]
    exact ⟨rfl, rfl⟩
  case alike => exact fun s t same operations => run_of_same_lists same operations
  case commute =>
    intro s a b different
    obtain ⟨second, both⟩ := s.perform_comm different
    exact ⟨second, (s.perform_comm different.symm).1, both⟩
  case apart => exact run_filter_name
  case underflow => exact fun s o failure => ⟨underflow_iff s o failure, perform_of_underflow⟩
  case drained => exact drain_eq_popAll
  case emptied =>
    intro s name
    have emptied : (s.drain name).2.list = Function.update s.list name [] :=
      list_perform s (.drain name)
    refine ⟨emptied, fun value => ?_⟩
    rw [push, list_set_self, emptied, Function.update_self]

/-- Only the summary shows that a name was used. -/
example : (∅ : Stacks Nat).summary = "\x7b\x7d" ∧
    (((∅ : Stacks Nat).push "i" 1).drain "i").2.summary = "\x7b\"i\": 0\x7d" := by
  decide +kernel

end PageServer.Stacks
