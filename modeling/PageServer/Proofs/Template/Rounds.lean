import Mathlib.Logic.Basic
import Mathlib.Logic.Relation
import PageServer.Proofs.Template.StackBalance

/-! # What the bound on rounds decides

A computation that takes a bound on the rounds of loops is either unfinished or the same under every larger
bound (`Stable`), and so it comes to at most one end. It is endless from a state if it is unfinished under all
bounds. For stable computations the first part that is endless decides: a sequence is endless if its first
part is, or if that leads to a state from which the second part is (`endless_bind_iff`). A repetition is
endless if one of its rounds is, or if its rounds go on for ever (`endless_iterate_iff`).
-/

namespace PageServer.Template.Eval

variable {α β : Type}

/-- The bound on rounds was too small. -/
def Unfinished (result : EStateM.Result (Halt ScriptError) Machine α) : Prop :=
  ∃ m, result = .error .unfinished m

/-- Whatever the first bound is large enough for, the second one does not change. -/
def Approximates (few many : EStateM.Result (Halt ScriptError) Machine α) : Prop :=
  Unfinished few ∨ few = many

/-- Whatever is not unfinished under a bound has the same result under each larger one. -/
def Stable (work : Nat → Eval α) : Prop :=
  ∀ m few many, few ≤ many → Approximates (work few m) (work many m)

/-- No bound is large enough. -/
def Endless (work : Nat → Eval α) (m : Machine) : Prop :=
  ∀ rounds, Unfinished (work rounds m)

/-- Some bound is large enough to succeed. -/
def LeadsTo (work : Nat → Eval α) (m : Machine) (a : α) (next : Machine) : Prop :=
  ∃ rounds, work rounds m = .ok a next

/-- The computation is never unfinished. -/
def Finishes (e : Eval α) : Prop :=
  ∀ m, ¬ Unfinished (e m)

variable {m next : Machine} {a : α}

theorem not_unfinished_ok : ¬ Unfinished (.ok a m : EStateM.Result (Halt ScriptError) Machine α) := by
  rintro ⟨_, wrong⟩
  contradiction

theorem not_unfinished_failed (error : ScriptError) :
    ¬ Unfinished (.error (.failed error) m : EStateM.Result (Halt ScriptError) Machine α) := by
  rintro ⟨_, wrong⟩
  cases wrong

theorem Approximates.refl (result : EStateM.Result (Halt ScriptError) Machine α) :
    Approximates result result := .inr rfl

theorem Approximates.unfinished {few many : EStateM.Result (Halt ScriptError) Machine α}
    (approximates : Approximates few many) (unfinished : Unfinished many) : Unfinished few := by
  rcases approximates with already | rfl
  · exact already
  · exact unfinished

theorem bind_apply (e : Eval α) (f : α → Eval β) (m : Machine) :
    (e >>= f) m = match e m with
      | .ok a next => f a next
      | .error halt next => .error halt next := by
  simp only [bind, EStateM.bind]
  cases e m with
  | ok | error => rfl

/-- A sequence is unfinished in its first part or in its second one. -/
theorem unfinished_bind_iff {e : Eval α} {f : α → Eval β} :
    Unfinished ((e >>= f) m) ↔ Unfinished (e m) ∨ ∃ a next, e m = .ok a next ∧ Unfinished (f a next) := by
  rw [bind_apply]
  cases e m with
  | ok a next =>
    constructor
    · intro late
      exact .inr ⟨a, next, rfl, late⟩
    · rintro (early | ⟨_, _, same, late⟩)
      · exact absurd early not_unfinished_ok
      · cases same
        exact late
  | error halt next =>
    constructor
    · rintro ⟨_, stopped⟩
      cases stopped
      exact .inl ⟨next, rfl⟩
    · rintro (⟨_, stopped⟩ | ⟨_, _, wrong, -⟩)
      · cases stopped
        exact ⟨next, rfl⟩
      · contradiction

theorem Approximates.bind {e g : Eval α} {f h : α → Eval β} (first : Approximates (e m) (g m))
    (second : ∀ a next, Approximates (f a next) (h a next)) :
    Approximates ((e >>= f) m) ((g >>= h) m) := by
  rcases first with unfinished | same
  · exact .inl (unfinished_bind_iff.mpr (.inl unfinished))
  · rw [bind_apply, bind_apply, ← same]
    cases e m with
    | ok a next => exact second a next
    | error halt next => exact .refl _

theorem finishes_pure (a : α) : Finishes (pure a : Eval α) :=
  fun _ => not_unfinished_ok

theorem finishes_fail (error : ScriptError) : Finishes (fail error : Eval α) :=
  fun _ => not_unfinished_failed error

theorem Finishes.bind {e : Eval α} {f : α → Eval β} (first : Finishes e) (second : ∀ a, Finishes (f a)) :
    Finishes (e >>= f) := by
  intro m unfinished
  rcases unfinished_bind_iff.mp unfinished with early | ⟨a, next, -, late⟩
  · exact first m early
  · exact second a next late

theorem Finishes.not_endless {e : Eval α} (finishes : Finishes e) (m : Machine) : ¬ Endless (fun _ => e) m :=
  fun endless => finishes m (endless 0)

theorem finishes_ofExcept (result : Except ScriptError α) : Finishes (ofExcept result) := by
  cases result with
  | ok a => exact finishes_pure a
  | error e => exact finishes_fail e

theorem finishes_modifyExchange (change : Exchange → Exchange) : Finishes (modifyExchange change) :=
  fun _ => not_unfinished_ok

theorem finishes_push (name : String) (value : Value) : Finishes (push name value) :=
  fun _ => not_unfinished_ok

theorem finishes_peek (name : String) : Finishes (peek name) :=
  Finishes.bind (fun _ => not_unfinished_ok) fun _ => finishes_ofExcept _

theorem finishes_pop (name : String) : Finishes (pop name) := by
  intro m
  simp only [pop]
  cases m.memory.pop name with
  | ok found => exact not_unfinished_ok
  | error u => exact not_unfinished_failed _

theorem finishes_discard_pop (name : String) : Finishes (discard (pop name)) := by
  intro m
  simp only [discard, Functor.discard, Functor.mapConst, Function.comp, EStateM.map, pop]
  cases m.memory.pop name with
  | ok found => exact not_unfinished_ok
  | error u => exact not_unfinished_failed _

theorem finishes_setTop (name : String) (value : Value) : Finishes (setTop name value) := by
  intro m
  simp only [setTop]
  cases m.memory.setTop name value with
  | ok memory => exact not_unfinished_ok
  | error u => exact not_unfinished_failed _

theorem finishes_emit (text : String) : Finishes (emit text) := by
  intro m
  simp only [emit]
  cases Exchange.writeText text m.exchange with
  | ok | error => exact not_unfinished_ok

theorem finishes_onExchange (step : Exchange.Step α) : Finishes (onExchange step.run) := by
  intro m
  simp only [onExchange, Exchange.Step.run]
  cases step m.exchange with
  | ok a x => exact not_unfinished_ok
  | error e x => exact not_unfinished_failed _

theorem finishes_pushFrom (scope : Exchange → Scope) (name default : Value) :
    Finishes (pushFrom scope name default) :=
  Finishes.bind (fun _ => not_unfinished_ok) fun _ => finishes_push _ _

theorem finishes_callUnary (f : Unary) (a : Value) : Finishes (callUnary none f a) := by
  cases f with
  | sin | format => exact (finishes_ofExcept a.toFloat).bind fun _ => finishes_push _ _
  | dup => exact (finishes_push _ _).bind fun _ => finishes_push _ _
  | mime => exact finishes_onExchange _
  | dropTemporary => exact finishes_modifyExchange (·.dropTemporary a.render)
  | dropAttribute => exact finishes_modifyExchange (·.dropAttribute a.render)
  | includePath => exact finishes_fail _

theorem finishes_callBinary (f : Binary) (a b : Value) : Finishes (callBinary f a b) := by
  cases f with
  | swap => exact (finishes_push _ _).bind fun _ => finishes_push _ _
  | parameter => exact finishes_pushFrom (·.parameters) a b
  | temporary => exact finishes_pushFrom (·.temporary) a b
  | setTemporary => exact finishes_modifyExchange (·.setTemporary a.render b.render)
  | «attribute» => exact finishes_pushFrom (·.session.attributes) a b
  | setAttribute => exact finishes_modifyExchange (·.setAttribute a.render b.render)

theorem finishes_element (e : Element) : Finishes (element none e) := by
  cases e with
  | literal text => exact finishes_push _ _
  | reference name => exact (finishes_peek name).bind fun _ => finishes_push _ _
  | operator symbol =>
    simp only [element]
    split
    · exact finishes_fail _
    · exact (finishes_pop _).bind fun right => (finishes_pop _).bind fun left =>
        (finishes_ofExcept _).bind fun _ => finishes_push _ _
  | function name =>
    simp only [element]
    split
    · exact finishes_fail _
    · next f _ =>
      cases f with
      | unary f => exact (finishes_pop _).bind fun a => finishes_callUnary f a
      | binary f => exact (finishes_pop _).bind fun b => (finishes_pop _).bind fun a => finishes_callBinary f a b

theorem finishes_elements (es : List Element) : Finishes (elements none es) := by
  induction es with
  | nil => exact finishes_pure ()
  | cons e rest ih => exact (finishes_element e).bind fun _ => ih

/-- Without a way of including, echoes have no loops in them. -/
theorem finishes_echo (es : List Element) : Finishes (echo none es) := by
  refine (finishes_elements es).bind fun _ => Finishes.bind (fun _ => not_unfinished_ok) fun values => ?_
  dsimp only
  split
  · exact finishes_pure ()
  · exact finishes_emit _

theorem stable_const (e : Eval α) : Stable fun _ => e :=
  fun _ _ _ _ => .refl _

namespace Stable

variable {work : Nat → Eval α} (stable : Stable work)

include stable

theorem bind {rest : Nat → α → Eval β} (second : ∀ a, Stable fun rounds => rest rounds a) :
    Stable fun rounds => work rounds >>= rest rounds :=
  fun m few many less => (stable m few many less).bind fun a next => second a next few many less

/-- Under two bounds that are large enough, the result is the same. -/
theorem eq_of_finished {few many : Nat} (first : ¬ Unfinished (work few m)) (second : ¬ Unfinished (work many m)) :
    work few m = work many m := by
  rcases Nat.le_total few many with less | less
  · exact (stable m few many less).resolve_left first
  · exact ((stable m many few less).resolve_left second).symm

/-- What succeeds under some bound succeeds so under all that are large enough. -/
theorem approximates_of_leadsTo (leads : LeadsTo work m a next) (rounds : Nat) :
    Approximates (work rounds m) (.ok a next) := by
  obtain ⟨enough, ran⟩ := leads
  by_cases unfinished : Unfinished (work rounds m)
  · exact .inl unfinished
  · rw [← ran]
    exact .inr (stable.eq_of_finished unfinished (ran ▸ not_unfinished_ok))

theorem leadsTo_unique {b : α} {other : Machine} (first : LeadsTo work m a next) (second : LeadsTo work m b other) :
    a = b ∧ next = other := by
  obtain ⟨rounds, ran⟩ := second
  rcases stable.approximates_of_leadsTo first rounds with unfinished | same
  · exact absurd (ran ▸ unfinished) not_unfinished_ok
  · rw [ran] at same
    cases same
    exact ⟨rfl, rfl⟩

end Stable

/-- A sequence of stable computations is endless if the first one is, or if it leads to where the second one
is. -/
theorem endless_bind_iff {work : Nat → Eval α} {rest : Nat → α → Eval β} (first : Stable work)
    (second : ∀ a, Stable fun rounds => rest rounds a) :
    Endless (fun rounds => work rounds >>= rest rounds) m ↔
      Endless work m ∨ ∃ a next, LeadsTo work m a next ∧ Endless (fun rounds => rest rounds a) next := by
  constructor
  · intro endless
    by_cases early : Endless work m
    · exact .inl early
    obtain ⟨enough, finished⟩ := not_forall.mp early
    -- beyond a bound that is large enough for the first part, it is the second part that is unfinished
    have behind (rounds : Nat) :
        ∃ a next, work enough m = .ok a next ∧ Unfinished (rest (max enough rounds) a next) := by
      have same := (first m enough (max enough rounds) (Nat.le_max_left _ _)).resolve_left finished
      rcases unfinished_bind_iff.mp (endless (max enough rounds)) with unfinished | late
      · exact absurd (same ▸ unfinished) finished
      · rwa [← same] at late
    obtain ⟨a, next, ran, -⟩ := behind 0
    refine .inr ⟨a, next, ⟨enough, ran⟩, fun rounds => ?_⟩
    obtain ⟨b, other, again, unfinished⟩ := behind rounds
    rw [ran] at again
    cases again
    exact (second a next rounds (max enough rounds) (Nat.le_max_right _ _)).unfinished unfinished
  · rintro (early | ⟨a, next, leads, late⟩) rounds
    · exact unfinished_bind_iff.mpr (.inl (early rounds))
    · rcases first.approximates_of_leadsTo leads rounds with unfinished | ran
      · exact unfinished_bind_iff.mpr (.inl unfinished)
      · exact unfinished_bind_iff.mpr (.inr ⟨a, next, ran, late rounds⟩)

theorem Finishes.endless_bind_iff {e : Eval α} {rest : Nat → α → Eval β} (finishes : Finishes e)
    (second : ∀ a, Stable fun rounds => rest rounds a) :
    Endless (fun rounds => e >>= rest rounds) m ↔
      ∃ a next, e m = .ok a next ∧ Endless (fun rounds => rest rounds a) next := by
  rw [Eval.endless_bind_iff (stable_const e) second]
  constructor
  · rintro (early | ⟨a, next, ⟨_, ran⟩, late⟩)
    · exact absurd (early 0) (finishes m)
    · exact ⟨a, next, ran, late⟩
  · rintro ⟨a, next, ran, late⟩
    exact .inr ⟨a, next, ⟨0, ran⟩, late⟩

section Repetition

variable {round : Nat → Eval Bool} (stable : Stable round)

/-- The states that rounds lead to, none of them the last one. -/
def Reaches (round : Nat → Eval Bool) : Machine → Machine → Prop :=
  Relation.ReflTransGen fun x y => LeadsTo round x true y

/-- Behind each round there is another one. -/
def GoesOn (round : Nat → Eval Bool) (x : Machine) : Prop :=
  ∀ y, Reaches round x y → ∃ z, LeadsTo round y true z

theorem GoesOn.of_reaches {x y : Machine} (goesOn : GoesOn round x) (reached : Reaches round x y) :
    GoesOn round y :=
  fun z further => goesOn z (reached.trans further)

include stable

theorem approximates_iterate {few many : Nat} (less : few ≤ many) {k l : Nat} (fewer : k ≤ l) (m : Machine) :
    Approximates (iterate (round few) k m) (iterate (round many) l m) := by
  induction k generalizing l m with
  | zero => exact .inl ⟨m, rfl⟩
  | succ k ih =>
    cases l with
    | zero => contradiction
    | succ l =>
      refine (stable m few many less).bind fun more next => ?_
      cases more with
      | false => exact .refl _
      | true => exact ih (Nat.le_of_succ_le_succ fewer) next

theorem stable_iterate : Stable fun rounds => iterate (round rounds) rounds :=
  fun m _ _ less => approximates_iterate stable less less m

/-- A repetition is endless if its first round is, or if that leads to where the repetition is. -/
theorem endless_iterate_iff_first :
    Endless (fun rounds => iterate (round rounds) rounds) m ↔
      Endless round m ∨ ∃ next, LeadsTo round m true next ∧
        Endless (fun rounds => iterate (round rounds) rounds) next := by
  constructor
  · intro endless
    by_cases early : Endless round m
    · exact .inl early
    obtain ⟨enough, finished⟩ := not_forall.mp early
    -- under every bound that is large enough for the first round, the others are unfinished
    have behind (rounds : Nat) : ∃ next, LeadsTo round m true next ∧ Unfinished (iterate (round rounds) rounds next) := by
      have same := (stable m enough (max enough rounds + 1) (by omega)).resolve_left finished
      rcases unfinished_bind_iff.mp (endless (max enough rounds + 1)) with unfinished | ⟨more, next, ran, late⟩
      · exact absurd (same ▸ unfinished) finished
      · cases more with
        | false => exact absurd late not_unfinished_ok
        | true =>
          have fewer : Approximates (iterate (round rounds) rounds next)
              (iterate (round (max enough rounds + 1)) (max enough rounds) next) :=
            approximates_iterate stable (by omega) (by omega) next
          exact ⟨next, ⟨_, ran⟩, fewer.unfinished late⟩
    obtain ⟨next, leads, -⟩ := behind 0
    refine .inr ⟨next, leads, fun rounds => ?_⟩
    obtain ⟨other, again, unfinished⟩ := behind rounds
    obtain ⟨-, rfl⟩ := stable.leadsTo_unique leads again
    exact unfinished
  · intro ends rounds
    cases rounds with
    | zero => exact ⟨m, rfl⟩
    | succ k =>
      refine unfinished_bind_iff.mpr ?_
      rcases ends with early | ⟨next, leads, late⟩
      · exact .inl (early (k + 1))
      · have fewer : Approximates (iterate (round (k + 1)) k next) (iterate (round (k + 1)) (k + 1) next) :=
          approximates_iterate stable (Nat.le_refl _) k.le_succ next
        exact (stable.approximates_of_leadsTo leads (k + 1)).imp_right fun ran =>
          ⟨true, next, ran, fewer.unfinished (late (k + 1))⟩

/-- A repetition that leads to where it is endless is endless itself. -/
theorem endless_iterate_of_reaches {x : Machine} (reached : Reaches round m x)
    (endless : Endless (fun rounds => iterate (round rounds) rounds) x) :
    Endless (fun rounds => iterate (round rounds) rounds) m := by
  induction reached using Relation.ReflTransGen.head_induction_on with
  | refl => exact endless
  | head step _ ih => exact (endless_iterate_iff_first stable).mpr (.inr ⟨_, step, ih⟩)

/-- A repetition is endless if it comes to a round that is, or if its rounds go on for ever. -/
theorem endless_iterate_iff :
    Endless (fun rounds => iterate (round rounds) rounds) m ↔
      (∃ x, Reaches round m x ∧ Endless round x) ∨ GoesOn round m := by
  constructor
  · intro endless
    by_cases inside : ∃ x, Reaches round m x ∧ Endless round x
    · exact .inl inside
    · refine .inr fun y reached => ?_
      have first {x : Machine} (reached : Reaches round m x)
          (endless : Endless (fun rounds => iterate (round rounds) rounds) x) :
          ∃ next, LeadsTo round x true next ∧ Endless (fun rounds => iterate (round rounds) rounds) next :=
        ((endless_iterate_iff_first stable).mp endless).resolve_left fun own => inside ⟨x, reached, own⟩
      have endless : Endless (fun rounds => iterate (round rounds) rounds) y := by
        induction reached with
        | refl => exact endless
        | tail reached step ih =>
          obtain ⟨next, leads, endless⟩ := first reached ih
          obtain ⟨-, rfl⟩ := stable.leadsTo_unique leads step
          exact endless
      obtain ⟨next, leads, -⟩ := first reached endless
      exact ⟨next, leads⟩
  · rintro (⟨x, reached, endless⟩ | goesOn)
    · exact endless_iterate_of_reaches stable reached ((endless_iterate_iff_first stable).mpr (.inl endless))
    · -- the state in which the bound is used up is reached like all others
      have unfinished (rounds k : Nat) (x : Machine) (goesOn : GoesOn round x) :
          Unfinished (iterate (round rounds) k x) := by
        induction k generalizing x with
        | zero => exact ⟨x, rfl⟩
        | succ k ih =>
          obtain ⟨y, leads⟩ := goesOn x .refl
          refine unfinished_bind_iff.mpr ((stable.approximates_of_leadsTo leads rounds).imp_right fun ran => ?_)
          exact ⟨true, y, ran, ih y (goesOn.of_reaches (.single leads))⟩
      exact fun rounds => unfinished rounds rounds m goesOn

end Repetition

end PageServer.Template.Eval
