import PageServer.Text.Quoted
import Std.Data.ExtTreeMap

/-! # Stacks by name

Independent stacks, each found by its name. A name that was never used counts as an empty stack. A
name that was used is remembered after its stack has run empty, which only the summary shows.
The laws describe every operation through `Stacks.list`, the list of entries of a name, top first.
-/

namespace PageServer

/-- The name of a stack that had nothing to give. -/
structure Underflow where
  name : String
deriving DecidableEq, Repr

def Underflow.message (u : Underflow) : String :=
  s!"stack '{u.name}' is empty"

/-- Stacks of values of one type, found by their names. -/
structure Stacks (α : Type) where
  entries : Std.ExtTreeMap String (List α)

namespace Stacks

variable {α : Type}

def empty : Stacks α := ⟨∅⟩

instance : EmptyCollection (Stacks α) := ⟨empty⟩

/-- The entries of a name, top first. -/
def list (s : Stacks α) (name : String) : List α :=
  s.entries.getD name []

def set (s : Stacks α) (name : String) (values : List α) : Stacks α :=
  ⟨s.entries.insert name values⟩

/-- Puts a value on top of a name. -/
def push (s : Stacks α) (name : String) (value : α) : Stacks α :=
  s.set name (value :: s.list name)

/-- The top entry of a name and the stacks without it. -/
def pop (s : Stacks α) (name : String) : Except Underflow (α × Stacks α) :=
  match s.list name with
  | [] => .error ⟨name⟩
  | top :: rest => .ok (top, s.set name rest)

def peek (s : Stacks α) (name : String) : Except Underflow α :=
  match s.list name with
  | [] => .error ⟨name⟩
  | top :: _ => .ok top

def setTop (s : Stacks α) (name : String) (value : α) : Except Underflow (Stacks α) :=
  match s.list name with
  | [] => .error ⟨name⟩
  | _ :: rest => .ok (s.set name (value :: rest))

def depth (s : Stacks α) (name : String) : Nat :=
  (s.list name).length

def isEmpty (s : Stacks α) (name : String) : Bool :=
  s.depth name == 0

/-- All entries of a name, top first, and the stacks with that name run empty. A name that was never
used stays unused. -/
def drain (s : Stacks α) (name : String) : List α × Stacks α :=
  (s.list name, if s.entries.contains name then s.set name [] else s)

/-- Every name that was used, in order, with its number of entries. -/
def summary (s : Stacks α) : String :=
  let items := s.entries.toList.map fun (name, values) =>
    Text.quoted name ++ ": " ++ toString values.length
  "\x7b" ++ ", ".intercalate items ++ "\x7d"

@[simp] theorem list_empty (name : String) : (∅ : Stacks α).list name = [] := by
  change (∅ : Std.ExtTreeMap String (List α)).getD name [] = []
  simp

theorem list_set (s : Stacks α) (name other : String) (values : List α) :
    (s.set name values).list other = if name = other then values else s.list other := by
  simp [list, set, Std.ExtTreeMap.getD_insert]

@[simp] theorem list_set_self (s : Stacks α) (name : String) (values : List α) :
    (s.set name values).list name = values := by
  simp [list_set]

/-- Of two replacements of the same entries, the later one counts. -/
theorem set_set (s : Stacks α) (name : String) (first second : List α) :
    (s.set name first).set name second = s.set name second := by
  refine congrArg Stacks.mk (Std.ExtTreeMap.ext_getElem? fun other => ?_)
  simp only [set, Std.ExtTreeMap.getElem?_insert]
  split <;> rfl

theorem list_push (s : Stacks α) (name other : String) (value : α) :
    (s.push name value).list other = if name = other then value :: s.list other else s.list other := by
  simp only [push, list_set]
  split
  · next same => simp [same]
  · rfl

theorem list_drain (s : Stacks α) (name other : String) :
    (s.drain name).2.list other = if name = other then [] else s.list other := by
  simp only [drain]
  split
  · exact list_set s name other []
  · next unused =>
    split
    · next same =>
      subst same
      have absent : s.entries[name]? = none := by simpa using unused
      simp [list, Std.ExtTreeMap.getD_eq_getD_getElem?, absent]
    · rfl

@[simp] theorem drain_fst (s : Stacks α) (name : String) : (s.drain name).1 = s.list name := rfl

end Stacks

end PageServer
