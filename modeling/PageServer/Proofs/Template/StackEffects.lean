import PageServer.Proofs.Template.Expression

/-! # Stack effects

Each element of an echo needs a number of values on the echo stack and leaves a number of values there, which
can be read off the element alone (`Element.effect?`). An element that finds what it needs leaves that many
values, or fails for another reason than an empty echo stack (`changes_element`); one that does not find it
fails (`element_short`). So the depths that are counted along an echo tell where it fails for want of values,
if it does not fail before (`echo_by_effects`).

The element that comes short fails for want of values, unless it is an operator that does not exist: such an
operator is refused before anything is taken off the stack (`echo_unknown_operator`).
-/

namespace PageServer.Template

/-- What an element takes off the echo stack and puts there. -/
structure Effect where
  need : Nat
  puts : Nat
deriving DecidableEq, Repr

/-- By how much the echo stack becomes deeper. -/
def Effect.net (effect : Effect) : Int :=
  effect.puts - effect.need

/-- The effect of a function. An include runs other templates and has none of its own. -/
def Builtin.effect? : Builtin → Option Effect
  | .unary .sin | .unary .format => some ⟨1, 1⟩
  | .unary .dup => some ⟨1, 2⟩
  | .unary .mime | .unary .dropTemporary | .unary .dropAttribute => some ⟨1, 0⟩
  | .unary .includePath => none
  | .binary .swap => some ⟨2, 2⟩
  | .binary .parameter | .binary .temporary | .binary .attribute => some ⟨2, 1⟩
  | .binary .setTemporary | .binary .setAttribute => some ⟨2, 0⟩

namespace Element

/-- The effect of an element. A variable that is named like the echo stack has none. -/
def effect? : Element → Option Effect
  | .literal _ => some ⟨0, 1⟩
  | .reference name => if name = echoStack then none else some ⟨0, 1⟩
  | .operator _ => some ⟨2, 1⟩
  | .function name => (Builtin.ofName? name).bind Builtin.effect?

def need (e : Element) : Nat :=
  (e.effect?.map Effect.need).getD 0

/-- By how much an element makes the echo stack deeper. -/
def net (e : Element) : Int :=
  (e.effect?.map Effect.net).getD 0

theorem need_of_effect {e : Element} {effect : Effect} (has : e.effect? = some effect) :
    e.need = effect.need := by
  rw [need, has, Option.map_some, Option.getD_some]

theorem net_of_effect {e : Element} {effect : Effect} (has : e.effect? = some effect) :
    e.net = effect.puts - effect.need := by
  rw [net, has, Option.map_some, Option.getD_some, Effect.net]

/-- What needs values has an effect. -/
theorem exists_effect {e : Element} (needs : 0 < e.need) : ∃ effect, e.effect? = some effect := by
  cases has : e.effect? with
  | none =>
    rw [need, has] at needs
    contradiction
  | some effect => exact ⟨effect, rfl⟩

/-- How an element fails that does not find the values that it needs. -/
def shortage : Element → ScriptError
  | .operator symbol =>
    match BinaryOp.ofSymbol? symbol with
    | none => .unsupported s!"operator '{symbol}'"
    | some _ => .emptyStack echoStack
  | _ => .emptyStack echoStack

end Element

/-- The depth of the echo stack behind these elements, if it was empty before them. -/
def depthBehind : List Element → Int
  | [] => 0
  | e :: rest => e.net + depthBehind rest

/-- From this depth on, no element needs more than the depth before it. -/
def CoveredFrom (depth : Int) (es : List Element) : Prop :=
  ∀ before e after, es = before ++ e :: after → (e.need : Int) ≤ depth + depthBehind before

theorem coveredFrom_nil (depth : Int) : CoveredFrom depth [] := by
  rintro (_ | ⟨_, _⟩) e after split <;> contradiction

theorem coveredFrom_cons_iff {depth : Int} {e : Element} {rest : List Element} :
    CoveredFrom depth (e :: rest) ↔ (e.need : Int) ≤ depth ∧ CoveredFrom (depth + e.net) rest := by
  constructor
  · intro covered
    refine ⟨?_, fun before e' after split => ?_⟩
    · have first := covered [] e rest rfl
      rwa [depthBehind, Int.add_zero] at first
    · have later := covered (e :: before) e' after (by rw [split, List.cons_append])
      rwa [depthBehind, ← Int.add_assoc] at later
  · rintro ⟨first, later⟩ before e' after split
    cases before with
    | nil =>
      obtain ⟨rfl, -⟩ := List.cons.inj split
      rwa [depthBehind, Int.add_zero]
    | cons d before =>
      obtain ⟨rfl, same⟩ := List.cons.inj split
      rw [depthBehind, ← Int.add_assoc]
      exact later before e' after same

instance decidableCoveredFrom : (depth : Int) → (es : List Element) → Decidable (CoveredFrom depth es)
  | depth, [] => .isTrue (coveredFrom_nil depth)
  | depth, e :: rest =>
    have := decidableCoveredFrom (depth + e.net) rest
    decidable_of_iff _ coveredFrom_cons_iff.symm

def Machine.depth (m : Machine) : Nat :=
  m.memory.depth echoStack

/-- Nothing was written from one state of a machine to another. -/
structure Silent (before after : Machine) : Prop where
  sink : after.exchange.sink = before.exchange.sink
  phase : after.exchange.phase = before.exchange.phase
  written : after.exchange.written = before.exchange.written

instance : Std.Refl Silent where
  refl _ := ⟨rfl, rfl, rfl⟩

instance : Trans Silent Silent Silent where
  trans first second := ⟨second.sink.trans first.sink, second.phase.trans first.phase,
    second.written.trans first.written⟩

theorem bind_ne_error {ε α β : Type} {error : ε} {x : Except ε α} {f : α → Except ε β}
    (first : x ≠ .error error) (second : ∀ a, f a ≠ .error error) : (x >>= f) ≠ .error error := by
  cases x with
  | ok a => exact second a
  | error _ => exact fun same => first (congrArg Except.error (Except.error.inj same))

theorem map_ne_error {ε α β : Type} {error : ε} {x : Except ε α} {f : α → β}
    (first : x ≠ .error error) : x.map f ≠ .error error := by
  cases x with
  | ok a =>
    intro same
    contradiction
  | error _ => exact fun same => first (congrArg Except.error (Except.error.inj same))

theorem Number.read_ne_emptyStack (text : List Char) (name : String) :
    Number.read text ≠ .error (.emptyStack name) := by
  simp only [Number.read, Number.unreadable]
  repeat' split
  all_goals simp

theorem Number.compute_ne_emptyStack (op : BinaryOp) (a b : Number) (name : String) :
    Number.compute op a b ≠ .error (.emptyStack name) := by
  simp only [Number.compute, Number.divisionByZero, Number.overflow]
  repeat' split
  all_goals simp

namespace Value

theorem number_ne_emptyStack (v : Value) (name : String) :
    v.number ≠ .error (.emptyStack name) := by
  cases v with
  | int | float =>
    intro same
    contradiction
  | text s => exact Number.read_ne_emptyStack s.toList name

theorem toFloat_ne_emptyStack (v : Value) (name : String) :
    v.toFloat ≠ .error (.emptyStack name) :=
  map_ne_error (v.number_ne_emptyStack name)

theorem combine_ne_emptyStack (op : BinaryOp) (left right : Value) (name : String) :
    left.combine op right ≠ .error (.emptyStack name) := by
  refine bind_ne_error (left.number_ne_emptyStack name) fun a => ?_
  refine bind_ne_error (right.number_ne_emptyStack name) fun b => ?_
  exact map_ne_error (Number.compute_ne_emptyStack op a b name)

end Value

namespace Eval

variable {α β : Type} {d d' d'' : Nat}

/-- A computation has come to this depth, or has failed for another reason than an empty echo stack, and it
has written nothing. -/
inductive Ends (start : Machine) (depth : Nat) : EStateM.Result (Halt ScriptError) Machine α → Prop
  | done {a : α} {next : Machine} (reached : next.depth = depth) (silent : Silent start next) :
      Ends start depth (.ok a next)
  | failed {error : ScriptError} {next : Machine} (other : error ≠ .emptyStack echoStack)
      (silent : Silent start next) : Ends start depth (.error (.failed error) next)

theorem Ends.after {start between : Machine} (silent : Silent start between)
    {result : EStateM.Result (Halt ScriptError) Machine α} (ends : Ends between d result) :
    Ends start d result := by
  cases ends with
  | done reached later => exact .done reached (Trans.trans silent later)
  | failed other later => exact .failed other (Trans.trans silent later)

/-- From one depth of the echo stack the computation comes to the other. -/
def Changes (d d' : Nat) (e : Eval α) : Prop :=
  ∀ m, m.depth = d → Ends m d' (e m)

/-- At this depth of the echo stack the computation fails for want of values. -/
def Lacks (d : Nat) (e : Eval α) : Prop :=
  ∀ m, m.depth = d → ∃ next, e m = .error (.failed (.emptyStack echoStack)) next ∧ Silent m next

theorem Changes.bind {x : Eval α} {f : α → Eval β} (first : Changes d d' x)
    (second : ∀ a, Changes d' d'' (f a)) : Changes d d'' (x >>= f) := by
  intro m depth
  have ends := first m depth
  simp only [Bind.bind, EStateM.bind]
  generalize x m = result at ends
  cases ends with
  | done reached silent => exact (second _ _ reached).after silent
  | failed other silent => exact .failed other silent

theorem changes_pure (a : α) : Changes d d (pure a) := by
  intro m depth
  exact .done depth (Std.Refl.refl m)

theorem changes_fail {error : ScriptError} (other : error ≠ .emptyStack echoStack) :
    Changes d d' (fail error : Eval α) :=
  fun m _ => .failed other (Std.Refl.refl m)

theorem changes_ofExcept {result : Except ScriptError α}
    (other : result ≠ .error (.emptyStack echoStack)) : Changes d d (ofExcept result) := by
  cases result with
  | ok a => exact changes_pure a
  | error error => exact changes_fail fun same => other (congrArg Except.error same)

theorem changes_peek {name : String} (other : name ≠ echoStack) : Changes d d (peek name) := by
  intro m depth
  change Ends m d (ofExcept ((m.memory.peek name).mapError .ofUnderflow) m)
  rw [Stacks.peek]
  split
  · exact .failed (fun same => other (ScriptError.emptyStack.inj same)) (Std.Refl.refl m)
  · exact .done depth (Std.Refl.refl m)

theorem changes_modifyExchange (change : Exchange → Exchange)
    (silent : ∀ m : Machine, Silent m { m with exchange := change m.exchange }) :
    Changes d d (modifyExchange change) :=
  fun m depth => .done depth (silent m)

theorem changes_setMediaType (mediaType : String) :
    Changes d d (onExchange (Exchange.setMediaType mediaType).run) := by
  intro m depth
  cases phase : m.exchange.phase with
  | pending =>
    simp only [onExchange, Exchange.Step.run, Exchange.setMediaType, Exchange.modifyHead, phase]
    exact .done depth ⟨rfl, phase.symm, rfl⟩
  | sent =>
    simp only [onExchange, Exchange.Step.run, Exchange.setMediaType, Exchange.modifyHead, phase,
      Halt.map, ScriptError.ofServer]
    exact .failed (by simp) ⟨rfl, rfl, rfl⟩

theorem changes_push (value : Value) : Changes d (d + 1) (push echoStack value) := by
  intro m depth
  refine .done ?_ ⟨rfl, rfl, rfl⟩
  change ((m.memory.push echoStack value).list echoStack).length = d + 1
  rw [Stacks.list_push, if_pos rfl, List.length_cons, ← depth]
  rfl

theorem changes_pushFrom (scope : Exchange → Scope) (name default : Value) :
    Changes d (d + 1) (pushFrom scope name default) :=
  fun m depth => changes_push _ m depth

theorem pop_of_depth {m : Machine} (depth : m.depth = d + 1) :
    ∃ value next, pop echoStack m = .ok value next ∧ next.depth = d ∧ Silent m next := by
  obtain ⟨value, rest, held⟩ := List.exists_cons_of_length_eq_add_one depth
  refine ⟨value, { m with memory := m.memory.set echoStack rest }, ?_, ?_, ⟨rfl, rfl, rfl⟩⟩
  · simp only [pop, Stacks.pop, held]
  · change ((m.memory.set echoStack rest).list echoStack).length = d
    change (m.memory.list echoStack).length = d + 1 at depth
    rw [held, List.length_cons] at depth
    rw [Stacks.list_set_self]
    omega

theorem changes_pop : Changes (d + 1) d (pop echoStack) := by
  intro m depth
  obtain ⟨value, next, popped, reached, silent⟩ := pop_of_depth depth
  rw [popped]
  exact .done reached silent

theorem lacks_pop : Lacks 0 (pop echoStack) := by
  intro m depth
  have none : m.memory.list echoStack = [] := List.eq_nil_of_length_eq_zero depth
  refine ⟨m, ?_, Std.Refl.refl m⟩
  simp only [pop, Stacks.pop, none, ScriptError.ofUnderflow]

theorem Lacks.bind {x : Eval α} (lacks : Lacks d x) (f : α → Eval β) : Lacks d (x >>= f) := by
  intro m depth
  obtain ⟨next, failed, silent⟩ := lacks m depth
  exact ⟨next, by simp only [Bind.bind, EStateM.bind, failed], silent⟩

/-- One value is not enough where another one is taken. -/
theorem Lacks.pop {f : Value → Eval β} (lacks : ∀ a, Lacks d (f a)) :
    Lacks (d + 1) (pop echoStack >>= f) := by
  intro m depth
  obtain ⟨value, between, popped, reached, silent⟩ := pop_of_depth depth
  obtain ⟨next, failed, later⟩ := lacks value between reached
  refine ⟨next, ?_, Trans.trans silent later⟩
  simp only [Bind.bind, EStateM.bind, popped]
  exact failed

/-- What takes two values first fails where there are fewer. -/
theorem lacks_pops {f : Value → Value → Eval α} (few : d < 2) :
    Lacks d (do
      let b ← pop echoStack
      let a ← pop echoStack
      f a b) := by
  match d, few with
  | 0, _ => exact lacks_pop.bind _
  | 1, _ => exact Lacks.pop fun b => lacks_pop.bind _

theorem changes_callUnary (include? : Option Include) {f : Unary} {effect : Effect}
    (has : Builtin.effect? (.unary f) = some effect) (a : Value) :
    Changes d (d + effect.puts) (callUnary include? f a) := by
  cases f with
  | sin | format =>
    cases has
    exact (changes_ofExcept (a.toFloat_ne_emptyStack echoStack)).bind fun _ => changes_push _
  | dup =>
    cases has
    exact (changes_push a).bind fun _ => changes_push a
  | mime =>
    cases has
    exact changes_setMediaType a.render
  | dropTemporary =>
    cases has
    exact changes_modifyExchange (·.dropTemporary a.render) fun _ => ⟨rfl, rfl, rfl⟩
  | dropAttribute =>
    cases has
    exact changes_modifyExchange (·.dropAttribute a.render) fun _ => ⟨rfl, rfl, rfl⟩
  | includePath => contradiction

theorem changes_callBinary {f : Binary} {effect : Effect}
    (has : Builtin.effect? (.binary f) = some effect) (a b : Value) :
    Changes d (d + effect.puts) (callBinary f a b) := by
  cases f with
  | swap =>
    cases has
    exact (changes_push b).bind fun _ => changes_push a
  | parameter =>
    cases has
    exact changes_pushFrom (·.parameters) a b
  | temporary =>
    cases has
    exact changes_pushFrom (·.temporary) a b
  | «attribute» =>
    cases has
    exact changes_pushFrom (·.session.attributes) a b
  | setTemporary =>
    cases has
    exact changes_modifyExchange (·.setTemporary a.render b.render) fun _ => ⟨rfl, rfl, rfl⟩
  | setAttribute =>
    cases has
    exact changes_modifyExchange (·.setAttribute a.render b.render) fun _ => ⟨rfl, rfl, rfl⟩

/-- A function needs as many values as it has arguments. -/
theorem need_eq_arity {f : Builtin} {effect : Effect} (has : f.effect? = some effect) :
    effect.need = f.arity := by
  rcases f with f | f <;> cases f <;> cases has <;> rfl

theorem changes_call (include? : Option Include) {f : Builtin} {effect : Effect}
    (has : f.effect? = some effect) (below : Nat) :
    Changes (below + effect.need) (below + effect.puts) (call include? f) := by
  rw [need_eq_arity has]
  cases f with
  | unary f => exact changes_pop.bind fun a => changes_callUnary include? has a
  | binary f =>
    exact changes_pop.bind fun b => changes_pop.bind fun a => changes_callBinary has a b

/-- An element that finds what it needs leaves there what it puts. -/
theorem changes_element (include? : Option Include) {e : Element} {effect : Effect}
    (has : e.effect? = some effect) (below : Nat) :
    Changes (below + effect.need) (below + effect.puts) (element include? e) := by
  cases e with
  | literal text =>
    cases has
    exact changes_push _
  | reference name =>
    simp only [Element.effect?] at has
    split at has
    · contradiction
    · next other =>
      cases has
      exact (changes_peek other).bind fun _ => changes_push _
  | operator symbol =>
    cases has
    simp only [element]
    split
    · exact changes_fail fun same => by contradiction
    · exact changes_pop.bind fun right => changes_pop.bind fun left =>
        (changes_ofExcept (left.combine_ne_emptyStack _ right echoStack)).bind fun _ => changes_push _
  | function name =>
    simp only [element]
    obtain ⟨f, found, has⟩ := Option.bind_eq_some_iff.mp has
    rw [found]
    exact changes_call include? has below

theorem lacks_call (include? : Option Include) {f : Builtin} (short : d < f.arity) :
    Lacks d (call include? f) := by
  cases f with
  | unary f =>
    obtain rfl : d = 0 := Nat.lt_one_iff.mp short
    exact lacks_pop.bind _
  | binary f => exact lacks_pops short

/-- An element that does not find what it needs fails. -/
theorem element_short (include? : Option Include) {e : Element} {m : Machine}
    (short : m.depth < e.need) :
    ∃ next, element include? e m = .error (.failed e.shortage) next ∧ Silent m next := by
  obtain ⟨effect, has⟩ := Element.exists_effect (Nat.zero_lt_of_lt short)
  rw [Element.need_of_effect has] at short
  cases e with
  | literal text =>
    cases has
    contradiction
  | reference name =>
    simp only [Element.effect?] at has
    split at has
    · contradiction
    · cases has
      contradiction
  | operator symbol =>
    cases has
    simp only [element, Element.shortage]
    cases BinaryOp.ofSymbol? symbol with
    | none => exact ⟨m, rfl, Std.Refl.refl m⟩
    | some op => exact lacks_pops short m rfl
  | function name =>
    obtain ⟨f, found, has⟩ := Option.bind_eq_some_iff.mp has
    rw [need_eq_arity has] at short
    simp only [element, found]
    exact lacks_call include? short m rfl

/-- Elements that always find what they need go through the depths that are counted along them. -/
theorem changes_elements (include? : Option Include) {es : List Element}
    (plain : ∀ e ∈ es, e.effect?.isSome) (depth : Nat) (covered : CoveredFrom depth es) :
    ∃ reached : Nat, (reached : Int) = depth + depthBehind es ∧
      Changes depth reached (elements include? es) := by
  induction es generalizing depth with
  | nil => exact ⟨depth, (Int.add_zero _).symm, changes_pure ()⟩
  | cons e rest ih =>
    obtain ⟨here, later⟩ := List.forall_mem_cons.mp plain
    obtain ⟨effect, has⟩ := Option.isSome_iff_exists.mp here
    obtain ⟨enough, covered⟩ := coveredFrom_cons_iff.mp covered
    have net := Element.net_of_effect has
    rw [Element.need_of_effect has, Int.ofNat_le] at enough
    obtain ⟨below, rfl⟩ := Nat.exists_eq_add_of_le' enough
    have between : ((below + effect.need : Nat) : Int) + e.net = (below + effect.puts : Nat) := by
      omega
    rw [between] at covered
    obtain ⟨reached, same, changes⟩ := ih later _ covered
    refine ⟨reached, ?_, (changes_element include? has below).bind fun _ => changes⟩
    rw [depthBehind, ← Int.add_assoc, between, same]

/-- The elements before this one run, and this one fails. -/
def FailsBehind (include? : Option Include) (m : Machine) (before : List Element) (e : Element)
    (error : ScriptError) (next : Machine) : Prop :=
  ∃ between, elements include? before m = .ok () between ∧
    element include? e between = .error (.failed error) next

/-- Elements that fail have a first one that fails. -/
theorem failsBehind_of_elements {include? : Option Include} {es : List Element} {m next : Machine}
    {error : ScriptError} (ran : elements include? es m = .error (.failed error) next) :
    ∃ before e after, es = before ++ e :: after ∧ FailsBehind include? m before e error next := by
  induction es generalizing m with
  | nil => contradiction
  | cons e rest ih =>
    simp only [elements, bind, EStateM.bind] at ran
    cases head : element include? e m with
    | error halt between =>
      rw [head] at ran
      exact ⟨[], e, rest, rfl, m, rfl, head.trans ran⟩
    | ok _ between =>
      rw [head] at ran
      obtain ⟨before, e', after, rfl, start, first, failed⟩ := ih ran
      refine ⟨e :: before, e', after, rfl, start, ?_, failed⟩
      exact bind_eq_ok.mpr ⟨(), between, head, first⟩

theorem FailsBehind.elements {include? : Option Include} {m next : Machine} {before : List Element}
    {e : Element} {error : ScriptError} (fails : FailsBehind include? m before e error next)
    (after : List Element) :
    elements include? (before ++ e :: after) m = .error (.failed error) next := by
  obtain ⟨between, first, failed⟩ := fails
  rw [elements_append_of_ok first]
  simp only [Eval.elements, bind, EStateM.bind, failed]

/-- An echo fails if its elements fail, and only then, since it does not matter whether its text can be
written. -/
theorem echo_eq_error_iff {include? : Option Include} {es : List Element} {m next : Machine}
    {halt : Halt ScriptError} :
    echo include? es m = .error halt next ↔ elements include? es m = .error halt next := by
  simp only [echo, bind, EStateM.bind]
  cases elements include? es m with
  | error => rfl
  | ok _ between =>
    refine iff_of_false (fun failed => ?_) fun failed => ?_
    · simp only [drain] at failed
      split at failed
      · contradiction
      · rw [emit_eq] at failed
        contradiction
    · contradiction

/-- An element that does not find what it needs behind elements that do makes the echo fail, there or at an
element before for another reason. -/
theorem echo_short (include? : Option Include) {before : List Element} {m : Machine} {e : Element}
    (plain : ∀ earlier ∈ before, earlier.effect?.isSome) (start : m.depth = 0)
    (covered : CoveredFrom 0 before) (short : depthBehind before < e.need) (after : List Element) :
    ∃ error next, echo include? (before ++ e :: after) m = .error (.failed error) next ∧
      Silent m next ∧
      (FailsBehind include? m before e error next ∧ error = e.shortage ∨
        ∃ first earlier rest, before = first ++ earlier :: rest ∧
          FailsBehind include? m first earlier error next ∧ error ≠ .emptyStack echoStack) := by
  obtain ⟨reached, same, changes⟩ := changes_elements include? plain 0 covered
  have ends := changes m start
  cases ran : elements include? before m with
  | ok _ between =>
    rw [ran] at ends
    cases ends with
    | done depth silent =>
      obtain ⟨next, failed, later⟩ := element_short include? (show between.depth < e.need by omega)
      have fails : FailsBehind include? m before e e.shortage next := ⟨between, ran, failed⟩
      exact ⟨_, next, echo_eq_error_iff.mpr (fails.elements after), Trans.trans silent later,
        .inl ⟨fails, rfl⟩⟩
  | error halt next =>
    rw [ran] at ends
    cases ends with
    | failed other silent =>
      obtain ⟨first, earlier, rest, rfl, fails⟩ := failsBehind_of_elements ran
      exact ⟨_, next, echo_eq_error_iff.mpr (elements_append_of_error ran _), silent,
        .inr ⟨first, earlier, rest, rfl, fails, other⟩⟩

/-- An echo whose elements always find what they need never fails for want of values, and it drains as
many values as are counted along it. If one does not find what it needs, the echo fails and writes nothing:
it fails there, or at an element before for another reason. -/
theorem echo_by_effects (include? : Option Include) (es : List Element) (m : Machine)
    (plain : ∀ e ∈ es, e.effect?.isSome) (empty : m.memory.list echoStack = []) :
    (CoveredFrom 0 es →
      (∀ next, echo include? es m ≠ .error (.failed (.emptyStack echoStack)) next) ∧
      ∀ next, echo include? es m = .ok () next →
        ∃ between values drained, elements include? es m = .ok () between ∧
          drain echoStack between = .ok values drained ∧ (values.length : Int) = depthBehind es) ∧
    ∀ before e after, es = before ++ e :: after → CoveredFrom 0 before → depthBehind before < e.need →
      ∃ error next, echo include? es m = .error (.failed error) next ∧ Silent m next ∧
        (FailsBehind include? m before e error next ∧ error = e.shortage ∨
          ∃ first earlier rest, before = first ++ earlier :: rest ∧
            FailsBehind include? m first earlier error next ∧ error ≠ .emptyStack echoStack) := by
  have start : m.depth = 0 := congrArg List.length empty
  constructor
  · intro covered
    obtain ⟨reached, same, changes⟩ := changes_elements include? plain 0 covered
    have ends := changes m start
    constructor
    · intro next failed
      rw [echo_eq_error_iff.mp failed] at ends
      cases ends with
      | failed other => exact other rfl
    · intro next ran
      obtain ⟨_, between, first, -⟩ := bind_eq_ok.mp ran
      rw [first] at ends
      cases ends with
      | done depth =>
        refine ⟨between, _, _, first, rfl, ?_⟩
        change (between.memory.list echoStack).length = reached at depth
        omega
  · rintro before e after rfl covered short
    have earlier := fun e' (member : e' ∈ before) => plain e' (List.mem_append_left _ member)
    exact echo_short include? earlier start covered short after

/-- A square and a text are two values. An exchange behind a sum finds one value, and one behind the sine of
a word is not reached. -/
theorem echo_by_effects_swap :
    let square : List Element := [.literal "3", .function "dup", .operator "*", .literal "x"]
    let sum : List Element := [.literal "1", .literal "2", .operator "+"]
    let word : List Element := [.literal "a", .function "sin"]
    let swap : Element := .function "swap"
    let m : Machine := { exchange := .blank }
    m.memory.list echoStack = [] ∧ CoveredFrom 0 square ∧
      (∃ next, echo none square m = .ok () next) ∧ depthBehind square = 2 ∧
      (∀ next, echo none square m ≠ .error (.failed (.emptyStack echoStack)) next) ∧
      (∀ before ∈ [sum, word], CoveredFrom 0 before ∧ depthBehind before < swap.need ∧
        ∃ error next, echo none (before ++ [swap]) m = .error (.failed error) next ∧ Silent m next) ∧
      (∃ next, echo none (sum ++ [swap]) m = .error (.failed (.emptyStack echoStack)) next) ∧
      ∃ next, echo none (word ++ [swap]) m = .error (.failed (Number.unreadable ['a'])) next := by
  intro square sum word swap m
  have empty : m.memory.list echoStack = [] := by rfl
  have plainSquare : ∀ e ∈ square, e.effect?.isSome := by decide
  have coveredSquare : CoveredFrom 0 square := by decide
  obtain ⟨never, -⟩ := (echo_by_effects none square m plainSquare empty).1 coveredSquare
  refine ⟨empty, coveredSquare, ⟨_, rfl⟩, by decide, never, ?_, ⟨_, rfl⟩, ⟨_, rfl⟩⟩
  intro before member
  have plain : ∀ e ∈ before ++ [swap], e.effect?.isSome := by revert before; decide
  have covered : CoveredFrom 0 before := by revert before; decide
  have short : depthBehind before < swap.need := by revert before; decide
  obtain ⟨error, next, failed, silent, -⟩ :=
    (echo_by_effects none (before ++ [swap]) m plain empty).2 before swap [] rfl covered short
  exact ⟨covered, short, error, next, failed, silent⟩

/-- An operator that does not exist is refused although there are no values for it. -/
theorem echo_unknown_operator :
    let power : Element := .operator "**"
    let m : Machine := { exchange := .blank }
    m.memory.list echoStack = [] ∧ power.effect? = some ⟨2, 1⟩ ∧ depthBehind [] < power.need ∧
      (∃ next, echo none [power] m = .error (.failed (.unsupported "operator '**'")) next) ∧
      ∀ next, echo none [power] m ≠ .error (.failed (.emptyStack echoStack)) next := by
  intro power m
  have refused : echo none [power] m = .error (.failed (.unsupported "operator '**'")) m := by rfl
  refine ⟨by rfl, by rfl, by decide, ⟨m, refused⟩, fun next failed => ?_⟩
  rw [refused] at failed
  cases failed

end Eval

end PageServer.Template
