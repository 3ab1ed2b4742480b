import Mathlib.Data.Set.Function
import PageServer.Proofs.Template.Nesting
import PageServer.Proofs.Template.Simulation

/-! # The names of variables

A template and the same template under other names of its variables are run side by side. Each stack of the
one stands under the new name in the other, and echoes are evaluated on one stack in both. Every operation
keeps it so, provided that two different stacks are never brought together (`Apart`): the new names are
different, and none of them becomes the name of the echo stack or was it. Then both runs come to the same
end, and at most the name of a variable in a failure differs.

The name of the echo stack is open to loop variables, and there the condition is needed: a renaming that
keeps names apart from each other is harmless exactly if it keeps them apart from that one, too
(`harmless_iff`).
-/

namespace PageServer.Template

def Operand.rename (rename : String → String) : Operand → Operand
  | .literal text => .literal text
  | .reference name => .reference (rename name)

def Element.rename (rename : String → String) : Element → Element
  | .reference name => .reference (rename name)
  | other => other

def LoopHeader.rename (rename : String → String) (header : LoopHeader) : LoopHeader where
  counter := rename header.counter
  start := header.start.rename rename
  stop := header.stop.rename rename
  step := header.step.map (Operand.rename rename)

mutual

def Node.rename (rename : String → String) : Node → Node
  | .text content => .text content
  | .echo es => .echo (es.map (Element.rename rename))
  | .loop header body => .loop (header.rename rename) (renameAll rename body)

/-- A template under other names of its variables. -/
def renameAll (rename : String → String) : List Node → List Node
  | [] => []
  | node :: rest => node.rename rename :: renameAll rename rest

end

mutual

/-- The names of variables in a part of a template, whether they are bound or read. -/
def Node.names : Node → List String
  | .text _ => []
  | .echo es => es.flatMap Element.free
  | .loop header body => header.counter :: (header.free ++ namesAll body)

def namesAll : List Node → List String
  | [] => []
  | node :: rest => node.names ++ namesAll rest

end

section Stacks

variable (names : Set String) (rename : String → String)

/-- Different names become different ones, and only the name of the echo stack becomes itself. -/
structure Apart : Prop where
  injective : Set.InjOn rename names
  echo : ∀ name ∈ names, rename name = echoStack ↔ name = echoStack

/-- What stands under the first name stands under the second one after the renaming. -/
def Becomes (name other : String) : Prop :=
  name ∈ names ∧ other = rename name ∨ name = echoStack ∧ other = echoStack

/-- The second machine has the stacks of the first one under their new names, and the same response. -/
structure Renamed (m n : Machine) : Prop where
  exchange : n.exchange = m.exchange
  list : ∀ name other, Becomes names rename name other → n.memory.list other = m.memory.list name

/-- The loop failed for its step. -/
def stepFailure (counter : String) (step : Value) : ScriptError :=
  .arithmetic s!"loop over '{counter}' needs a positive step, got {step.render}"

/-- Halts that differ at most in the name of a variable, which is the new one in the second halt. -/
inductive SameHalt : Halt ScriptError → Halt ScriptError → Prop
  | same (halt : Halt ScriptError) : SameHalt halt halt
  | emptyStack (name : String) :
      SameHalt (.failed (.emptyStack name)) (.failed (.emptyStack (rename name)))
  | step (counter : String) (step : Value) :
      SameHalt (.failed (stepFailure counter step)) (.failed (stepFailure (rename counter) step))

/-- Both succeed with the same result, or both halt for the same reason, on machines that are so related. -/
inductive Matched (good bad : Machine → Machine → Prop) {α : Type} :
    EStateM.Result (Halt ScriptError) Machine α → EStateM.Result (Halt ScriptError) Machine α → Prop
  | ok {a : α} {m n : Machine} (related : good m n) : Matched good bad (.ok a m) (.ok a n)
  | error {h k : Halt ScriptError} {m n : Machine} (same : SameHalt rename h k) (related : bad m n) :
      Matched good bad (.error h m) (.error k n)

/-- Both runs come to the same end, with the same response. -/
abbrev SameOutcome :
    EStateM.Result (Halt ScriptError) Machine Unit → EStateM.Result (Halt ScriptError) Machine Unit → Prop :=
  Matched rename Eq Eq

/-- The machines match again after a success, and their responses do in any case. -/
abbrev InTune {α : Type} :
    EStateM.Result (Halt ScriptError) Machine α → EStateM.Result (Halt ScriptError) Machine α → Prop :=
  Matched rename (Renamed names rename) fun m n => n.exchange = m.exchange

end Stacks

variable {names : Set String} {rename : String → String} {name other : String} {m n : Machine}

theorem becomes_echo : Becomes names rename echoStack echoStack :=
  .inr ⟨rfl, rfl⟩

theorem becomes_rename (known : name ∈ names) : Becomes names rename name (rename name) :=
  .inl ⟨known, rfl⟩

/-- No two stacks are brought together. -/
theorem Apart.eq_iff (apart : Apart names rename) {name' other' : String}
    (first : Becomes names rename name other) (second : Becomes names rename name' other') :
    other = other' ↔ name = name' := by
  rcases first with ⟨known, rfl⟩ | ⟨rfl, rfl⟩ <;> rcases second with ⟨known', rfl⟩ | ⟨rfl, rfl⟩
  · exact apart.injective.eq_iff known known'
  · exact apart.echo name known
  · rw [eq_comm, apart.echo name' known', eq_comm]
  · simp only

/-- An empty stack is reported under its name. -/
theorem Becomes.sameHalt (becomes : Becomes names rename name other) :
    SameHalt rename (.failed (.emptyStack name)) (.failed (.emptyStack other)) := by
  rcases becomes with ⟨-, rfl⟩ | ⟨rfl, rfl⟩
  · exact .emptyStack name
  · exact .same _

theorem Renamed.set (apart : Apart names rename) (renamed : Renamed names rename m n)
    (becomes : Becomes names rename name other) (values : List Value) :
    Renamed names rename { m with memory := m.memory.set name values }
      { n with memory := n.memory.set other values } := by
  refine ⟨renamed.exchange, fun name' other' becomes' => ?_⟩
  simp only [Stacks.list_set, apart.eq_iff becomes becomes']
  split
  · rfl
  · exact renamed.list name' other' becomes'

theorem Renamed.push (apart : Apart names rename) (renamed : Renamed names rename m n)
    (becomes : Becomes names rename name other) (value : Value) :
    Renamed names rename { m with memory := m.memory.push name value }
      { n with memory := n.memory.push other value } := by
  rw [Stacks.push, Stacks.push, renamed.list name other becomes]
  exact renamed.set apart becomes (value :: m.memory.list name)

namespace Eval

variable {α β : Type}

theorem Matched.bind {good better bad : Machine → Machine → Prop} {x y : Eval α} {f g : α → Eval β}
    (first : Matched rename good bad (x m) (y n))
    (second : ∀ a s t, good s t → Matched rename better bad (f a s) (g a t)) :
    Matched rename better bad ((x >>= f) m) ((y >>= g) n) := by
  simp only [Bind.bind, EStateM.bind]
  generalize x m = left at first
  generalize y n = right at first
  cases first with
  | ok related => exact second _ _ _ related
  | error same related => exact .error same related

section Operations

variable (renamed : Renamed names rename m n)

include renamed

theorem inTune_fail (error : ScriptError) :
    InTune names rename ((fail error : Eval α) m) ((fail error : Eval α) n) :=
  .error (.same _) renamed.exchange

theorem inTune_ofExcept (result : Except ScriptError α) :
    InTune names rename (ofExcept result m) (ofExcept result n) := by
  cases result with
  | ok a => exact .ok renamed
  | error e => exact inTune_fail renamed e

theorem inTune_peek (becomes : Becomes names rename name other) :
    InTune names rename (peek name m) (peek other n) := by
  change InTune names rename (ofExcept ((m.memory.peek name).mapError .ofUnderflow) m)
    (ofExcept ((n.memory.peek other).mapError .ofUnderflow) n)
  simp only [Stacks.peek, renamed.list name other becomes]
  cases m.memory.list name with
  | nil => exact .error becomes.sameHalt renamed.exchange
  | cons top rest => exact .ok renamed

theorem inTune_onExchange (run : Run α) :
    InTune names rename (onExchange run m) (onExchange run n) := by
  simp only [onExchange, renamed.exchange]
  cases run m.exchange with
  | ok a x => exact .ok ⟨rfl, renamed.list⟩
  | error halt x => exact .error (.same _) rfl

theorem inTune_modifyExchange (change : Exchange → Exchange) :
    InTune names rename (modifyExchange change m) (modifyExchange change n) :=
  .ok ⟨congrArg change renamed.exchange, renamed.list⟩

theorem inTune_emit (text : String) : InTune names rename (emit text m) (emit text n) := by
  rw [emit_eq, emit_eq, renamed.exchange]
  exact .ok ⟨rfl, renamed.list⟩

variable (apart : Apart names rename)

include apart

theorem inTune_push (becomes : Becomes names rename name other) (value : Value) :
    InTune names rename (push name value m) (push other value n) :=
  .ok (renamed.push apart becomes value)

theorem inTune_pop (becomes : Becomes names rename name other) :
    InTune names rename (pop name m) (pop other n) := by
  simp only [pop, Stacks.pop, renamed.list name other becomes]
  cases m.memory.list name with
  | nil => exact .error becomes.sameHalt renamed.exchange
  | cons top rest => exact .ok (renamed.set apart becomes rest)

theorem inTune_setTop (becomes : Becomes names rename name other) (value : Value) :
    InTune names rename (setTop name value m) (setTop other value n) := by
  simp only [setTop, Stacks.setTop, renamed.list name other becomes]
  cases m.memory.list name with
  | nil => exact .error becomes.sameHalt renamed.exchange
  | cons top rest => exact .ok (renamed.set apart becomes (value :: rest))

theorem inTune_drain_echo : InTune names rename (drain echoStack m) (drain echoStack n) := by
  simp only [drain, Stacks.drain_fst, renamed.list echoStack echoStack becomes_echo]
  refine .ok ⟨renamed.exchange, fun name other becomes => ?_⟩
  simp only [Stacks.list_drain, apart.eq_iff becomes_echo becomes]
  split
  · rfl
  · exact renamed.list name other becomes

theorem inTune_push_echo (value : Value) :
    InTune names rename (push echoStack value m) (push echoStack value n) :=
  inTune_push renamed apart becomes_echo value

theorem inTune_pop_echo : InTune names rename (pop echoStack m) (pop echoStack n) :=
  inTune_pop renamed apart becomes_echo

theorem inTune_pushFrom (scope : Exchange → Scope) (key default : Value) :
    InTune names rename (pushFrom scope key default m) (pushFrom scope key default n) := by
  change InTune names rename
    (push echoStack (((scope m.exchange)[key.render]?.map Value.text).getD default) m)
    (push echoStack (((scope n.exchange)[key.render]?.map Value.text).getD default) n)
  rw [renamed.exchange]
  exact inTune_push_echo renamed apart _

theorem inTune_callUnary (include? : Option Include) (f : Unary) (a : Value) :
    InTune names rename (callUnary include? f a m) (callUnary include? f a n) := by
  cases f with
  | sin | format =>
    exact Matched.bind (inTune_ofExcept renamed a.toFloat) fun _ _ _ renamed =>
      inTune_push_echo renamed apart _
  | dup =>
    exact Matched.bind (inTune_push_echo renamed apart a) fun _ _ _ renamed =>
      inTune_push_echo renamed apart a
  | mime => exact inTune_onExchange renamed _
  | dropTemporary => exact inTune_modifyExchange renamed (·.dropTemporary a.render)
  | dropAttribute => exact inTune_modifyExchange renamed (·.dropAttribute a.render)
  | includePath =>
    cases include? with
    | none => exact inTune_fail renamed _
    | some runPath => exact inTune_onExchange renamed _

theorem inTune_callBinary (f : Binary) (a b : Value) :
    InTune names rename (callBinary f a b m) (callBinary f a b n) := by
  cases f with
  | swap =>
    exact Matched.bind (inTune_push_echo renamed apart b) fun _ _ _ renamed =>
      inTune_push_echo renamed apart a
  | parameter => exact inTune_pushFrom renamed apart (·.parameters) a b
  | temporary => exact inTune_pushFrom renamed apart (·.temporary) a b
  | setTemporary => exact inTune_modifyExchange renamed (·.setTemporary a.render b.render)
  | «attribute» => exact inTune_pushFrom renamed apart (·.session.attributes) a b
  | setAttribute => exact inTune_modifyExchange renamed (·.setAttribute a.render b.render)

theorem inTune_call (include? : Option Include) (f : Builtin) :
    InTune names rename (call include? f m) (call include? f n) := by
  cases f with
  | unary f =>
    exact Matched.bind (inTune_pop_echo renamed apart) fun a _ _ renamed =>
      inTune_callUnary renamed apart include? f a
  | binary f =>
    exact Matched.bind (inTune_pop_echo renamed apart) fun b _ _ renamed =>
      Matched.bind (inTune_pop_echo renamed apart) fun a _ _ renamed =>
        inTune_callBinary renamed apart f a b

theorem inTune_element (include? : Option Include) (e : Element) (known : ∀ name ∈ e.free, name ∈ names) :
    InTune names rename (element include? e m) (element include? (e.rename rename) n) := by
  cases e with
  | literal text => exact inTune_push_echo renamed apart _
  | reference name =>
    have read := inTune_peek renamed (becomes_rename (known name List.mem_cons_self))
    exact Matched.bind read fun _ _ _ renamed => inTune_push_echo renamed apart _
  | operator symbol =>
    simp only [Element.rename, element]
    cases BinaryOp.ofSymbol? symbol with
    | none => exact inTune_fail renamed _
    | some op =>
      exact Matched.bind (inTune_pop_echo renamed apart) fun b _ _ renamed =>
        Matched.bind (inTune_pop_echo renamed apart) fun a _ _ renamed =>
          Matched.bind (inTune_ofExcept renamed _) fun _ _ _ renamed => inTune_push_echo renamed apart _
  | function name =>
    simp only [Element.rename, element]
    cases Builtin.ofName? name with
    | none => exact inTune_fail renamed _
    | some f => exact inTune_call renamed apart include? f

omit renamed in
theorem inTune_elements (renamed : Renamed names rename m n) (include? : Option Include)
    (es : List Element) (known : ∀ name ∈ es.flatMap Element.free, name ∈ names) :
    InTune names rename (elements include? es m) (elements include? (es.map (Element.rename rename)) n) := by
  induction es generalizing m n with
  | nil => exact .ok renamed
  | cons e rest ih =>
    rw [List.flatMap_cons, List.forall_mem_append] at known
    exact Matched.bind (inTune_element renamed apart include? e known.1) fun _ _ _ renamed =>
      ih renamed known.2

theorem inTune_echo (include? : Option Include) (es : List Element)
    (known : ∀ name ∈ es.flatMap Element.free, name ∈ names) :
    InTune names rename (echo include? es m) (echo include? (es.map (Element.rename rename)) n) := by
  refine Matched.bind (inTune_elements apart renamed include? es known) fun _ _ _ renamed =>
    Matched.bind (inTune_drain_echo renamed apart) fun values _ _ renamed => ?_
  by_cases silent : String.join (values.map Value.render) = ""
  · simp only [silent, ↓reduceIte]
    exact .ok renamed
  · simp only [silent, ↓reduceIte]
    exact inTune_emit renamed _

end Operations

theorem inTune_operand (renamed : Renamed names rename m n) (o : Operand)
    (known : ∀ name ∈ o.free, name ∈ names) :
    InTune names rename (operand o m) (operand (o.rename rename) n) := by
  cases o with
  | literal text => exact .ok renamed
  | reference name => exact inTune_peek renamed (becomes_rename (known name List.mem_cons_self))

theorem inTune_loopStep (renamed : Renamed names rename m n) (step : Option Operand)
    (known : ∀ name ∈ (step.map Operand.free).getD [], name ∈ names) :
    InTune names rename (loopStep step m) (loopStep (step.map (Operand.rename rename)) n) := by
  cases step with
  | none => exact .ok renamed
  | some o => exact inTune_operand renamed o known

theorem inTune_requirePositive (renamed : Renamed names rename m n) (counter : String) (step : Value) :
    InTune names rename (requirePositive counter step m) (requirePositive (rename counter) step n) := by
  refine Matched.bind (inTune_ofExcept renamed _) fun order _ _ renamed => ?_
  by_cases positive : order = .gt
  · simp only [positive, ↓reduceIte]
    exact .ok renamed
  · simp only [positive, ↓reduceIte]
    exact .error (.step counter step) renamed.exchange

section Loops

variable {counter counter' : String} {stop step : Value} {left right : Eval Unit}
  (apart : Apart names rename) (becomes : Becomes names rename counter counter')
  (bodies : ∀ m n, Renamed names rename m n → InTune names rename (left m) (right n))

include apart becomes bodies

theorem inTune_loopRound (renamed : Renamed names rename m n) :
    InTune names rename (loopRound counter stop step left m) (loopRound counter' stop step right n) := by
  refine Matched.bind (inTune_peek renamed becomes) fun current _ _ renamed =>
    Matched.bind (inTune_ofExcept renamed _) fun order _ _ renamed => ?_
  by_cases past : order = .gt
  · simp only [past, ↓reduceIte]
    exact .ok renamed
  · simp only [past, ↓reduceIte]
    exact Matched.bind (bodies _ _ renamed) fun _ _ _ renamed =>
      Matched.bind (inTune_peek renamed becomes) fun top _ _ renamed =>
        Matched.bind (inTune_ofExcept renamed _) fun sum _ _ renamed =>
          Matched.bind (inTune_setTop renamed apart becomes sum) fun _ _ _ renamed => .ok renamed

/-- By induction on the rounds that are left. -/
theorem inTune_iterate (rounds : Nat) (renamed : Renamed names rename m n) :
    InTune names rename (iterate (loopRound counter stop step left) rounds m)
      (iterate (loopRound counter' stop step right) rounds n) := by
  induction rounds generalizing m n with
  | zero => exact .error (.same _) renamed.exchange
  | succ rounds ih =>
    refine Matched.bind (inTune_loopRound apart becomes bodies renamed) fun more _ _ renamed => ?_
    cases more with
    | false => exact .ok renamed
    | true => exact ih renamed

end Loops

theorem inTune_runLoop (apart : Apart names rename) (rounds : Nat) (header : LoopHeader)
    (known : ∀ name ∈ header.counter :: header.free, name ∈ names) {left right : Eval Unit}
    (bodies : ∀ m n, Renamed names rename m n → InTune names rename (left m) (right n))
    (renamed : Renamed names rename m n) :
    InTune names rename (runLoop rounds header left m) (runLoop rounds (header.rename rename) right n) := by
  simp only [LoopHeader.free, List.forall_mem_cons, List.forall_mem_append] at known
  obtain ⟨counts, ⟨starts, stops⟩, steps⟩ := known
  have becomes : Becomes names rename header.counter (rename header.counter) := becomes_rename counts
  refine Matched.bind (inTune_operand renamed header.start starts) fun start _ _ renamed =>
    Matched.bind (inTune_operand renamed header.stop stops) fun stop _ _ renamed =>
      Matched.bind (inTune_loopStep renamed header.step steps) fun step _ _ renamed =>
        Matched.bind (inTune_requirePositive renamed header.counter step) fun _ _ _ renamed =>
          Matched.bind (inTune_push renamed apart becomes start) fun _ _ _ renamed =>
            Matched.bind (inTune_iterate apart becomes bodies rounds renamed) fun _ _ _ renamed => ?_
  exact Matched.bind (inTune_pop renamed apart becomes) fun _ _ _ renamed => .ok renamed

mutual

theorem inTune_visit (apart : Apart names rename) (services : Services) (node : Node)
    (known : ∀ name ∈ node.names, name ∈ names) {m n : Machine} (renamed : Renamed names rename m n) :
    InTune names rename (visit services node m) (visit services (node.rename rename) n) := by
  cases node with
  | text content => exact inTune_emit renamed content
  | echo es => exact inTune_echo renamed apart services.include? es known
  | loop header body =>
    rw [Node.names, ← List.cons_append, List.forall_mem_append] at known
    exact inTune_runLoop apart services.rounds header known.1
      (fun _ _ renamed => inTune_visitAll apart services body known.2 renamed) renamed

/-- A template does the same under other names, on stacks that stand under those names. -/
theorem inTune_visitAll (apart : Apart names rename) (services : Services) (nodes : List Node)
    (known : ∀ name ∈ namesAll nodes, name ∈ names) {m n : Machine} (renamed : Renamed names rename m n) :
    InTune names rename (visitAll services nodes m) (visitAll services (renameAll rename nodes) n) := by
  cases nodes with
  | nil => exact .ok renamed
  | cons node rest =>
    rw [namesAll, List.forall_mem_append] at known
    exact Matched.bind (inTune_visit apart services node known.1 renamed) fun _ _ _ renamed =>
      inTune_visitAll apart services rest known.2 renamed

end

theorem sameOutcome_execute (apart : Apart names rename) (services : Services) (document : Document)
    (known : ∀ name ∈ namesAll document, name ∈ names) (x : Exchange) :
    SameOutcome rename (execute services document { exchange := x })
      (execute services (renameAll rename document) { exchange := x }) := by
  have fresh : Renamed names rename { exchange := x } { exchange := x } := by
    refine ⟨rfl, fun name other _ => ?_⟩
    rw [Stacks.list_empty, Stacks.list_empty]
  have visited := inTune_visitAll apart services document known fresh
  simp only [execute]
  generalize visitAll services document { exchange := x } = first at visited
  generalize visitAll services (renameAll rename document) { exchange := x } = second at visited
  cases visited with
  | ok renamed => exact .ok (by rw [renamed.exchange])
  | error same related => exact .error same (by rw [related])

def ended : EStateM.Result (Halt ScriptError) Machine Unit → Bool
  | .ok _ _ => true
  | .error _ _ => false

theorem ended_eq_of_sameOutcome {first second : EStateM.Result (Halt ScriptError) Machine Unit}
    (same : SameOutcome rename first second) : ended first = ended second := by
  cases same <;> rfl

/-- A template that writes the numbers one and two, counted by a variable of this name. -/
def countToTwo (name : String) : Document :=
  [.loop ⟨name, .literal "1", .literal "2", none⟩ [.echo [.reference name]]]

/-- Any name but that of the echo stack serves as well as `i`. The echo takes a variable of that one name
away. -/
theorem ended_countToTwo_iff (name : String) :
    ended (execute {} (countToTwo name) { exchange := .blank }) = true ↔ name ≠ echoStack := by
  constructor
  · rintro succeeds rfl
    have fails : ended (execute {} (countToTwo echoStack) { exchange := .blank }) = false := by
      decide +kernel
    exact Bool.false_ne_true (fails.symm.trans succeeds)
  · intro other
    have apart : Apart {name} (fun _ => "i") := by
      refine ⟨Set.injOn_singleton _ _, ?_⟩
      rintro _ rfl
      simp only [other, iff_false]
      decide
    have known : ∀ used ∈ namesAll (countToTwo name), used ∈ ({name} : Set String) := by
      simp [countToTwo, namesAll, Node.names, LoopHeader.free, Operand.free, Element.free]
    have same := sameOutcome_execute apart {} (countToTwo name) known .blank
    have succeeds : ended (execute {} (countToTwo "i") { exchange := .blank }) = true := by
      decide +kernel
    exact (ended_eq_of_sameOutcome same).trans succeeds

/-- A renaming that keeps the names of variables apart from each other changes nothing but these names,
whatever the template and the response are, exactly if it keeps them apart from the name of the echo stack,
too. -/
theorem harmless_iff (names : Set String) (rename : String → String) (injective : Set.InjOn rename names) :
    (∀ (services : Services) (document : Document) (x : Exchange),
      (∀ name ∈ namesAll document, name ∈ names) →
        SameOutcome rename (execute services document { exchange := x })
          (execute services (renameAll rename document) { exchange := x })) ↔
      ∀ name ∈ names, rename name = echoStack ↔ name = echoStack := by
  constructor
  · intro harmless name member
    have known : ∀ used ∈ namesAll (countToTwo name), used ∈ names := by
      simpa [countToTwo, namesAll, Node.names, LoopHeader.free, Operand.free, Element.free] using member
    have same := ended_eq_of_sameOutcome (harmless {} (countToTwo name) .blank known)
    have before := ended_countToTwo_iff name
    have behind := ended_countToTwo_iff (rename name)
    rw [← not_iff_not, ← ne_eq, ← ne_eq, ← before, ← behind, same]
    rfl
  · intro echo services document x known
    exact sameOutcome_execute ⟨injective, echo⟩ services document known x

/-- Two variables that change their names, in nested loops one of which is bounded by the other, and then an
echo of one that is not bound any more. -/
theorem harmless_iff_swapped :
    let rename := Equiv.swap "i" "j"
    let names : Set String := {"i", "j"}
    let inner : Node :=
      .loop ⟨"j", .literal "1", .reference "i", none⟩ [.echo [.reference "i", .reference "j"]]
    let document : Document :=
      [.loop ⟨"i", .literal "1", .literal "2", none⟩ [inner], .echo [.reference "i"]]
    Set.InjOn rename names ∧ (∀ name ∈ names, rename name = echoStack ↔ name = echoStack) ∧
      SameOutcome rename (execute {} document { exchange := .blank })
        (execute {} (renameAll rename document) { exchange := .blank }) := by
  intro rename names inner document
  have injective : Set.InjOn rename names := rename.injective.injOn
  have echo : ∀ name ∈ names, rename name = echoStack ↔ name = echoStack := by
    rintro name (rfl | rfl) <;> decide
  have known : ∀ name ∈ namesAll document, name = "i" ∨ name = "j" := by decide
  exact ⟨injective, echo, (harmless_iff names rename injective).mpr echo {} document .blank known⟩

/-- Under the name of the echo stack, which the reader takes for a loop variable, the counter is gone with the
first echo: `11` is written and not `12`, and the stack is empty where the step is to be added. -/
theorem countToTwo_renamed_fails :
    let rename := Equiv.swap "i" echoStack
    let outcome (name : String) :=
      match execute {} (countToTwo name) { exchange := .blank } with
      | .ok _ m => (none, m.exchange.sink.bytes.drop 58)
      | .error halt m => (some halt, m.exchange.sink.bytes.drop 58)
    Function.Injective rename ∧ rename "i" = "temp" ∧
      (parse "<% for temp = 1 to 2 %><%= $temp %><% end %>").map flatten =
        .ok (flatten (renameAll rename (countToTwo "i"))) ∧
      outcome "i" = (none, Text.encode "12") ∧
      outcome "temp" = (some (.failed (.emptyStack "temp")), Text.encode "11") := by
  intro rename outcome
  exact ⟨rename.injective, by decide, by decide +kernel, by decide +kernel, by decide +kernel⟩

end Eval

end PageServer.Template
