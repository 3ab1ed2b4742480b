import PageServer.Template.Evaluation

/-! # What a template leaves on its stacks

An echo changes the echo stack alone, and takes everything off it in the end. A loop takes off what it
put on. A loop over the name of the echo stack shares it with the echoes inside: the first of them
takes the variable away, and the round cannot go on. So whatever ran to its end left each stack as it
was, but for the echo stack, which may have run empty (`Kept`). This is what every part of a template
preserves, whatever its loops are called; `list_visitAll` is the case of an echo stack that was empty
before.
-/

namespace PageServer.Template

/-- The stacks of all names but that of echoes hold what they held. -/
def SameVariables (before after : Stacks Value) : Prop :=
  ∀ name, name ≠ echoStack → after.list name = before.list name

/-- Each stack holds what it held, except that the echo stack may have run empty. -/
def Kept (before after : Stacks Value) : Prop :=
  ∀ name, after.list name = before.list name ∨ name = echoStack ∧ after.list name = []

variable {before middle after : Stacks Value}

instance : Std.Refl SameVariables where
  refl _ _ _ := rfl

instance : Trans SameVariables SameVariables SameVariables where
  trans first second name other := (second name other).trans (first name other)

instance : Std.Refl Kept where
  refl _ _ := .inl rfl

instance : Trans Kept Kept Kept where
  trans first second := by
    intro name
    rcases second name with same | empty
    · rw [same]
      exact first name
    · exact .inr empty

theorem Kept.sameVariables (kept : Kept before after) : SameVariables before after := by
  intro name other
  rcases kept name with same | ⟨echo, -⟩
  · exact same
  · exact absurd echo other

theorem SameVariables.kept (same : SameVariables before after)
    (empty : after.list echoStack = []) : Kept before after := by
  intro name
  by_cases echo : name = echoStack
  · exact .inr ⟨echo, echo ▸ empty⟩
  · exact .inl (same name echo)

/-- Where the echo stack was empty, nothing has changed. -/
theorem Kept.list_eq (kept : Kept before after) (empty : before.list echoStack = []) (name : String) :
    after.list name = before.list name := by
  rcases kept name with same | ⟨rfl, drained⟩
  · exact same
  · rw [drained, empty]

/-- Below the top entry of a name there is what was there before the push. -/
theorem Kept.below {name : String} {value top : Value} {rest : List Value}
    (kept : Kept (before.push name value) after) (held : after.list name = top :: rest) :
    rest = before.list name := by
  rcases kept name with same | ⟨-, empty⟩
  · rw [held, Stacks.list_push, if_pos rfl] at same
    exact (List.cons.inj same).2
  · rw [held] at empty
    contradiction

/-- The top entry of a name can be replaced in place. -/
theorem Kept.setTop {name : String} {value top next : Value} {rest : List Value}
    (kept : Kept (before.push name value) after) (held : after.list name = top :: rest) :
    Kept (before.push name next) (after.set name (next :: rest)) := by
  intro other
  rw [Stacks.list_set, Stacks.list_push]
  split
  · next same =>
    rw [kept.below held, same]
    exact .inl rfl
  · next different =>
    have elsewhere := kept other
    rwa [Stacks.list_push, if_neg different] at elsewhere

/-- Taking off the entry that was pushed leaves everything as before the push. -/
theorem Kept.pop {name : String} {value top : Value} {rest : List Value}
    (kept : Kept (before.push name value) after) (held : after.list name = top :: rest) :
    Kept before (after.set name rest) := by
  intro other
  rw [Stacks.list_set]
  split
  · next same =>
    rw [kept.below held, same]
    exact .inl rfl
  · next different =>
    have elsewhere := kept other
    rwa [Stacks.list_push, if_neg different] at elsewhere

namespace Eval

variable {α β : Type} {m next : Machine} {name : String} {value : Value}

theorem bind_eq_ok {x : Eval α} {f : α → Eval β} {b : β} :
    (x >>= f) m = .ok b next ↔ ∃ a between, x m = .ok a between ∧ f a between = .ok b next := by
  simp only [bind, EStateM.bind]
  cases x m with
  | ok a between =>
    constructor
    · intro rest
      exact ⟨a, between, rfl, rest⟩
    · rintro ⟨_, _, first, rest⟩
      cases first
      exact rest
  | error halt between =>
    constructor
    · intro ran
      contradiction
    · rintro ⟨_, _, first, -⟩
      contradiction

theorem ofExcept_eq_ok {result : Except ScriptError α} {a : α}
    (ran : ofExcept result m = .ok a next) : result = .ok a ∧ next = m := by
  cases result with
  | ok b =>
    cases ran
    exact ⟨rfl, rfl⟩
  | error e => contradiction

theorem peek_eq_ok (ran : peek name m = .ok value next) :
    (∃ rest, m.memory.list name = value :: rest) ∧ next = m := by
  obtain ⟨same, between, read, found⟩ := bind_eq_ok.mp ran
  cases read
  obtain ⟨top, rfl⟩ := ofExcept_eq_ok found
  simp only [Stacks.peek] at top
  cases held : next.memory.list name with
  | nil =>
    rw [held] at top
    contradiction
  | cons first rest =>
    rw [held] at top
    cases top
    exact ⟨⟨rest, rfl⟩, rfl⟩

theorem pop_eq_ok (ran : pop name m = .ok value next) :
    ∃ rest, m.memory.list name = value :: rest ∧
      next = { m with memory := m.memory.set name rest } := by
  simp only [pop, Stacks.pop] at ran
  cases held : m.memory.list name with
  | nil => simp [held] at ran
  | cons top rest =>
    simp only [held] at ran
    cases ran
    exact ⟨rest, rfl, rfl⟩

theorem setTop_eq_ok (ran : setTop name value m = .ok () next) :
    ∃ top rest, m.memory.list name = top :: rest ∧
      next = { m with memory := m.memory.set name (value :: rest) } := by
  simp only [setTop, Stacks.setTop] at ran
  cases held : m.memory.list name with
  | nil => simp [held] at ran
  | cons top rest =>
    simp only [held] at ran
    cases ran
    exact ⟨top, rest, rfl, rfl⟩

/-- All that a round of a loop can do when it succeeds: its variable is past the end and nothing
happens, or the body is run and the step added to what the body left on top. -/
theorem loopRound_eq_ok {stop step : Value} {body : Eval Unit} {more : Bool}
    (ran : loopRound name stop step body m = .ok more next) :
    ∃ current rest order, m.memory.list name = current :: rest ∧
      current.numericCompare stop = .ok order ∧
      (order = .gt ∧ more = false ∧ next = m ∨
        order ≠ .gt ∧ more = true ∧ ∃ between top below sum, body m = .ok () between ∧
          between.memory.list name = top :: below ∧ top.combine .add step = .ok sum ∧
          next = { between with memory := between.memory.set name (sum :: below) }) := by
  obtain ⟨current, m₁, read, tested⟩ := bind_eq_ok.mp ran
  obtain ⟨⟨rest, held⟩, rfl⟩ := peek_eq_ok read
  obtain ⟨order, m₂, compared, decided⟩ := bind_eq_ok.mp tested
  obtain ⟨ordered, rfl⟩ := ofExcept_eq_ok compared
  refine ⟨current, rest, order, held, ordered, ?_⟩
  split at decided
  · next past =>
    cases decided
    exact .inl ⟨past, rfl, rfl⟩
  · next before =>
    obtain ⟨_, m₃, done, advanced⟩ := bind_eq_ok.mp decided
    obtain ⟨top, m₄, reread, summed⟩ := bind_eq_ok.mp advanced
    obtain ⟨⟨below, stacked⟩, rfl⟩ := peek_eq_ok reread
    obtain ⟨sum, m₅, added, stored⟩ := bind_eq_ok.mp summed
    obtain ⟨total, rfl⟩ := ofExcept_eq_ok added
    obtain ⟨_, m₆, replaced, last⟩ := bind_eq_ok.mp stored
    obtain ⟨_, _, again, rfl⟩ := setTop_eq_ok replaced
    cases last
    rw [stacked] at again
    cases again
    exact .inr ⟨before, rfl, _, top, below, sum, done, stacked, total, rfl⟩

/-- Whenever the computation succeeds, the stacks before and after it are so related. -/
def Ensures (relation : Stacks Value → Stacks Value → Prop) (e : Eval α) : Prop :=
  ∀ m a next, e m = .ok a next → relation m.memory next.memory

variable {relation : Stacks Value → Stacks Value → Prop}

theorem ensures_fail (error : ScriptError) : Ensures relation (fail error : Eval α) := by
  intro m a next ran
  contradiction

theorem Ensures.bind [Trans relation relation relation] {x : Eval α} {f : α → Eval β}
    (first : Ensures relation x) (second : ∀ a, Ensures relation (f a)) :
    Ensures relation (x >>= f) := by
  intro m b next ran
  obtain ⟨a, between, start, rest⟩ := bind_eq_ok.mp ran
  exact Trans.trans (first m a between start) (second a between b next rest)

variable [Std.Refl relation]

theorem ensures_pure (a : α) : Ensures relation (pure a) := by
  intro m b next ran
  cases ran
  exact Std.Refl.refl m.memory

theorem ensures_ofExcept (result : Except ScriptError α) : Ensures relation (ofExcept result) := by
  cases result with
  | ok a => exact ensures_pure a
  | error e => exact ensures_fail e

theorem ensures_peek (name : String) : Ensures relation (peek name) := by
  intro m a next ran
  obtain ⟨-, rfl⟩ := peek_eq_ok ran
  exact Std.Refl.refl next.memory

theorem ensures_onExchange (run : Run α) : Ensures relation (onExchange run) := by
  intro m a next ran
  simp only [onExchange] at ran
  split at ran
  · cases ran
    exact Std.Refl.refl m.memory
  · contradiction

theorem ensures_modifyExchange (change : Exchange → Exchange) :
    Ensures relation (modifyExchange change) := by
  intro m a next ran
  cases ran
  exact Std.Refl.refl m.memory

theorem ensures_emit (text : String) : Ensures relation (emit text) := by
  intro m a next ran
  simp only [emit] at ran
  split at ran
  all_goals
    cases ran
    exact Std.Refl.refl m.memory

theorem ensures_push_echo (value : Value) : Ensures SameVariables (push echoStack value) := by
  intro m _ next ran name other
  cases ran
  exact (Stacks.list_push m.memory echoStack name value).trans (if_neg (Ne.symm other))

theorem ensures_pop_echo : Ensures SameVariables (pop echoStack) := by
  intro m value next ran name other
  obtain ⟨rest, -, rfl⟩ := pop_eq_ok ran
  rw [Stacks.list_set, if_neg (Ne.symm other)]

theorem ensures_pushFrom (scope : Exchange → Scope) (name default : Value) :
    Ensures SameVariables (pushFrom scope name default) := by
  intro m _ next ran
  obtain ⟨same, between, read, pushed⟩ := bind_eq_ok.mp ran
  cases read
  exact ensures_push_echo _ m _ next pushed

theorem ensures_callUnary (include? : Option Include) (f : Unary) (a : Value) :
    Ensures SameVariables (callUnary include? f a) := by
  cases f with
  | sin | format => exact (ensures_ofExcept a.toFloat).bind fun _ => ensures_push_echo _
  | dup => exact (ensures_push_echo a).bind fun _ => ensures_push_echo a
  | mime => exact ensures_onExchange _
  | dropTemporary => exact ensures_modifyExchange (·.dropTemporary a.render)
  | dropAttribute => exact ensures_modifyExchange (·.dropAttribute a.render)
  | includePath =>
    cases include? with
    | none => exact ensures_fail _
    | some runPath => exact ensures_onExchange _

theorem ensures_callBinary (f : Binary) (a b : Value) :
    Ensures SameVariables (callBinary f a b) := by
  cases f with
  | swap => exact (ensures_push_echo b).bind fun _ => ensures_push_echo a
  | parameter => exact ensures_pushFrom (·.parameters) a b
  | temporary => exact ensures_pushFrom (·.temporary) a b
  | setTemporary => exact ensures_modifyExchange (·.setTemporary a.render b.render)
  | «attribute» => exact ensures_pushFrom (·.session.attributes) a b
  | setAttribute => exact ensures_modifyExchange (·.setAttribute a.render b.render)

theorem ensures_call (include? : Option Include) (f : Builtin) :
    Ensures SameVariables (call include? f) := by
  cases f with
  | unary f => exact ensures_pop_echo.bind fun a => ensures_callUnary include? f a
  | binary f =>
    exact ensures_pop_echo.bind fun b => ensures_pop_echo.bind fun a => ensures_callBinary f a b

theorem ensures_element (include? : Option Include) (e : Element) :
    Ensures SameVariables (element include? e) := by
  cases e with
  | literal text => exact ensures_push_echo _
  | reference name => exact (ensures_peek name).bind fun _ => ensures_push_echo _
  | operator symbol =>
    simp only [element]
    split
    · exact ensures_fail _
    · exact ensures_pop_echo.bind fun right => ensures_pop_echo.bind fun left =>
        (ensures_ofExcept _).bind fun _ => ensures_push_echo _
  | function name =>
    simp only [element]
    split
    · exact ensures_fail _
    · exact ensures_call include? _

theorem ensures_elements (include? : Option Include) (es : List Element) :
    Ensures SameVariables (elements include? es) := by
  induction es with
  | nil => exact ensures_pure ()
  | cons e rest ih => exact (ensures_element include? e).bind fun _ => ih

/-- An echo leaves the variables alone and the echo stack empty. -/
theorem ensures_echo (include? : Option Include) (es : List Element) :
    Ensures Kept (echo include? es) := by
  intro m _ next ran
  obtain ⟨_, between, evaluated, rest⟩ := bind_eq_ok.mp ran
  obtain ⟨values, drained, taken, written⟩ := bind_eq_ok.mp rest
  have empty : Kept m.memory drained.memory := by
    have same := ensures_elements include? es m _ between evaluated
    cases taken
    refine SameVariables.kept (fun name other => ?_) ?_
    · exact (Stacks.list_drain between.memory echoStack name).trans
        ((if_neg (Ne.symm other)).trans (same name other))
    · exact (Stacks.list_drain between.memory echoStack echoStack).trans (if_pos rfl)
  have output : Ensures Kept
      (if String.join (values.map Value.render) = "" then pure ()
        else emit (String.join (values.map Value.render))) := by
    split
    · exact ensures_pure ()
    · exact ensures_emit _
  exact Trans.trans empty (output drained _ next written)

theorem operand_eq_ok {o : Operand} (ran : operand o m = .ok value next) : next = m := by
  cases o with
  | literal text =>
    cases ran
    rfl
  | reference name => exact (peek_eq_ok ran).2

theorem loopStep_eq_ok {step : Option Operand} (ran : loopStep step m = .ok value next) :
    next = m := by
  cases step with
  | none =>
    cases ran
    rfl
  | some o => exact operand_eq_ok ran

theorem requirePositive_eq_ok {step : Value} (ran : requirePositive name step m = .ok () next) :
    next = m ∧ step.numericCompare (.int 0) = .ok .gt := by
  obtain ⟨order, m₁, compared, decided⟩ := bind_eq_ok.mp ran
  obtain ⟨ordered, rfl⟩ := ofExcept_eq_ok compared
  split at decided
  · next positive =>
    cases decided
    exact ⟨rfl, positive ▸ ordered⟩
  · contradiction

/-- What holds before a loop and is kept by each round holds after it. -/
theorem iterate_invariant {round : Eval Bool} {invariant : Machine → Prop}
    (step : ∀ m more next, invariant m → round m = .ok more next → invariant next) {rounds : Nat}
    {m next : Machine} (start : invariant m) (ran : iterate round rounds m = .ok () next) :
    invariant next := by
  induction rounds generalizing m with
  | zero => contradiction
  | succ rounds ih =>
    obtain ⟨more, between, first, rest⟩ := bind_eq_ok.mp ran
    have held := step m more between start first
    cases more with
    | false =>
      cases rest
      exact held
    | true => exact ih held rest

/-- A loop takes off what it put on, whatever its variable is called. -/
theorem ensures_runLoop (rounds : Nat) (header : LoopHeader) {body : Eval Unit}
    (kept : Ensures Kept body) : Ensures Kept (runLoop rounds header body) := by
  intro m _ next ran
  obtain ⟨start, m₁, begun, ran₁⟩ := bind_eq_ok.mp ran
  obtain ⟨stop, m₂, ended, ran₂⟩ := bind_eq_ok.mp ran₁
  obtain ⟨step, m₃, stepped, ran₃⟩ := bind_eq_ok.mp ran₂
  obtain ⟨_, ready, positive, ran₄⟩ := bind_eq_ok.mp ran₃
  obtain ⟨_, m₅, pushed, ran₅⟩ := bind_eq_ok.mp ran₄
  obtain ⟨_, finished, iterated, ran₆⟩ := bind_eq_ok.mp ran₅
  obtain ⟨_, m₇, popped, last⟩ := bind_eq_ok.mp ran₆
  obtain rfl := operand_eq_ok begun
  obtain rfl := operand_eq_ok ended
  obtain rfl := loopStep_eq_ok stepped
  obtain ⟨rfl, -⟩ := requirePositive_eq_ok positive
  cases pushed
  cases last
  -- between rounds, the variable's current value stands where its first one was pushed
  let Shadowed (x : Machine) : Prop :=
    ∃ value, Kept (ready.memory.push header.counter value) x.memory
  have shadowed : Shadowed finished := by
    refine iterate_invariant ?_ ⟨start, Std.Refl.refl _⟩ iterated
    rintro x more after ⟨value, held⟩ round
    obtain ⟨_, _, _, _, _, ends⟩ := loopRound_eq_ok round
    rcases ends with ⟨-, -, rfl⟩ | ⟨-, -, between, top, below, sum, done, found, -, rfl⟩
    · exact ⟨value, held⟩
    · have inside : Kept (ready.memory.push header.counter value) between.memory :=
        Trans.trans held (kept x _ between done)
      exact ⟨sum, inside.setTop found⟩
  obtain ⟨value, held⟩ := shadowed
  obtain ⟨below, found, rfl⟩ := pop_eq_ok popped
  exact held.pop found

mutual

/-- Every part of a template that succeeds keeps the stacks. -/
theorem ensures_visit (services : Services) (node : Node) : Ensures Kept (visit services node) := by
  cases node with
  | text content => exact ensures_emit content
  | echo es => exact ensures_echo services.include? es
  | loop header body =>
    exact ensures_runLoop services.rounds header (ensures_visitAll services body)

theorem ensures_visitAll (services : Services) (nodes : List Node) :
    Ensures Kept (visitAll services nodes) := by
  cases nodes with
  | nil => exact ensures_pure ()
  | cons node rest =>
    exact (ensures_visit services node).bind fun _ => ensures_visitAll services rest

end

/-- A template that runs to its end from an empty echo stack leaves every stack as it was, and the
echo stack empty. -/
theorem list_visitAll (services : Services) (document : Document) (m next : Machine)
    (empty : m.memory.list echoStack = []) (ran : visitAll services document m = .ok () next) :
    (∀ name, next.memory.list name = m.memory.list name) ∧
      next.memory.list echoStack = [] := by
  have same := (ensures_visitAll services document m () next ran).list_eq empty
  exact ⟨same, (same echoStack).trans empty⟩

/-- A loop inside a loop over the same name, itself over a name that holds a value, with echoes that
read it at both depths. -/
theorem list_visitAll_shadowing :
    let inner : Node := .loop ⟨"i", .literal "5", .literal "6", none⟩
      [.echo [.reference "i", .literal "1", .operator "+"]]
    let document : Document :=
      [.loop ⟨"i", .literal "1", .literal "2", none⟩ [inner, .echo [.reference "i"]]]
    let m : Machine := { memory := (∅ : Stacks Value).push "i" (.int 7), exchange := .blank }
    m.memory.list echoStack = [] ∧ ∃ next, visitAll {} document m = .ok () next ∧
      (∀ name, next.memory.list name = m.memory.list name) ∧ next.memory.list echoStack = [] := by
  intro inner document m
  have empty : m.memory.list echoStack = [] := by decide +kernel
  have succeeds : (EStateM.run' (visitAll {} document) m).isSome = true := by decide +kernel
  refine ⟨empty, ?_⟩
  cases ran : visitAll {} document m with
  | ok _ next => exact ⟨next, rfl, list_visitAll {} document m next empty ran⟩
  | error halt next =>
    delta EStateM.run' EStateM.run at succeeds
    rw [ran] at succeeds
    contradiction

end Eval

end PageServer.Template
