import PageServer.Proofs.Template.Simulation

/-! # Echoes as expressions

An echo that holds the elements of expressions in postfix order computes their values: each expression
leaves its value on the echo stack, above whatever was there before, and touches nothing else
(`run_elements`). The expressions are evaluated from left to right, and an operator behind its operands,
so that an echo that fails does so at the first operator that cannot be applied. What is left is written
at once, the last value first (`echo_expressions`).
-/

namespace PageServer.Template

/-- An expression over texts, loop variables and the operators with two operands. -/
inductive Expression
  | literal (text : String)
  | reference (name : String)
  | binary (op : BinaryOp) (left right : Expression)

namespace Expression

/-- The elements of an expression: an operator stands behind its operands. -/
def elements : Expression → List Element
  | .literal text => [.literal text]
  | .reference name => [.reference name]
  | .binary op left right => left.elements ++ right.elements ++ [.operator op.symbol]

/-- The value of an expression. A variable has the top value of its stack. -/
def eval (memory : Stacks Value) : Expression → Except ScriptError Value
  | .literal text => .ok (.text text)
  | .reference name => (memory.peek name).mapError .ofUnderflow
  | .binary op left right => do
    let a ← left.eval memory
    let b ← right.eval memory
    a.combine op b

def names : Expression → List String
  | .literal _ => []
  | .reference name => [name]
  | .binary _ left right => left.names ++ right.names

/-- The parts of an expression that apply an operator, in the order in which the operators stand. -/
def operations : Expression → List Expression
  | .literal _ | .reference _ => []
  | .binary op left right => left.operations ++ right.operations ++ [.binary op left right]

/-- An expression can be read if its variables are bound loop variables, none of them named like the
echo stack. -/
def Readable (memory : Stacks Value) (e : Expression) : Prop :=
  ∀ name ∈ e.names, name ≠ echoStack ∧ memory.list name ≠ []

variable {memory : Stacks Value}

theorem Readable.operands {op : BinaryOp} {left right : Expression}
    (readable : (binary op left right).Readable memory) :
    left.Readable memory ∧ right.Readable memory :=
  List.forall_mem_append.mp readable

theorem eval_reference {name : String} {top : Value} {rest : List Value}
    (held : memory.list name = top :: rest) : (reference name).eval memory = .ok top := by
  rw [eval, Stacks.peek, held]
  rfl

/-- An operator is applied to the values of its operands. -/
theorem eval_binary {op : BinaryOp} {left right : Expression} {a b : Value}
    (leftValue : left.eval memory = .ok a) (rightValue : right.eval memory = .ok b) :
    (binary op left right).eval memory = a.combine op b := by
  simp only [eval, leftValue, rightValue, bind, Except.bind]

theorem eval_binary_of_left {op : BinaryOp} {left right : Expression} {e : ScriptError}
    (failed : left.eval memory = .error e) : (binary op left right).eval memory = .error e := by
  simp only [eval, failed, bind, Except.bind]

theorem eval_binary_of_right {op : BinaryOp} {left right : Expression} {a : Value} {e : ScriptError}
    (leftValue : left.eval memory = .ok a) (failed : right.eval memory = .error e) :
    (binary op left right).eval memory = .error e := by
  simp only [eval, leftValue, failed, bind, Except.bind]

/-- An operation that has a value is applied to operands that have one. -/
theorem operands_of_eval_binary {op : BinaryOp} {left right : Expression} {v : Value}
    (value : (binary op left right).eval memory = .ok v) :
    ∃ a b, left.eval memory = .ok a ∧ right.eval memory = .ok b ∧ a.combine op b = .ok v := by
  cases leftValue : left.eval memory with
  | error e =>
    rw [eval_binary_of_left leftValue] at value
    contradiction
  | ok a =>
    cases rightValue : right.eval memory with
    | error e =>
      rw [eval_binary_of_right leftValue rightValue] at value
      contradiction
    | ok b => exact ⟨a, b, rfl, rfl, (eval_binary leftValue rightValue).symm.trans value⟩

/-- Of these operations in order, those before one can be applied, and this one cannot, although its
operands have values. -/
def FailsFirst (memory : Stacks Value) (operations : List Expression) (e : ScriptError) : Prop :=
  ∃ before op left right after a b,
    operations = before ++ binary op left right :: after ∧
      (∀ earlier ∈ before, ∃ v, earlier.eval memory = .ok v) ∧
      left.eval memory = .ok a ∧ right.eval memory = .ok b ∧ a.combine op b = .error e

theorem FailsFirst.append_right {operations : List Expression} {e : ScriptError}
    (fails : FailsFirst memory operations e) (more : List Expression) :
    FailsFirst memory (operations ++ more) e := by
  obtain ⟨before, op, left, right, after, a, b, rfl, earlier, values⟩ := fails
  exact ⟨before, op, left, right, after ++ more, a, b, by simp, earlier, values⟩

theorem FailsFirst.append_left {operations : List Expression} {e : ScriptError}
    (fails : FailsFirst memory operations e) {first : List Expression}
    (applied : ∀ earlier ∈ first, ∃ v, earlier.eval memory = .ok v) :
    FailsFirst memory (first ++ operations) e := by
  obtain ⟨before, op, left, right, after, a, b, rfl, earlier, values⟩ := fails
  refine ⟨first ++ before, op, left, right, after, a, b, by simp, ?_, values⟩
  exact List.forall_mem_append.mpr ⟨applied, earlier⟩

theorem FailsFirst.not_applied {operations : List Expression} {e : ScriptError}
    (fails : FailsFirst memory operations e) :
    ¬ ∀ operation ∈ operations, ∃ v, operation.eval memory = .ok v := by
  obtain ⟨before, op, left, right, after, a, b, rfl, -, leftValue, rightValue, failed⟩ := fails
  intro applied
  obtain ⟨v, value⟩ := applied (binary op left right) (by simp)
  rw [eval_binary leftValue rightValue, failed] at value
  contradiction

/-- All operations in an expression that has a value can be applied. -/
theorem applied_of_eval {e : Expression} {v : Value} (value : e.eval memory = .ok v) :
    ∀ operation ∈ e.operations, ∃ w, operation.eval memory = .ok w := by
  induction e generalizing v with
  | literal | reference => exact List.forall_mem_nil _
  | binary op left right ihLeft ihRight =>
    obtain ⟨a, b, leftValue, rightValue, -⟩ := operands_of_eval_binary value
    simp only [operations, List.forall_mem_append, List.forall_mem_singleton]
    exact ⟨⟨ihLeft leftValue, ihRight rightValue⟩, v, value⟩

/-- An expression without a value has a first operator that cannot be applied. -/
theorem failsFirst_of_eval {e : Expression} (readable : e.Readable memory) {error : ScriptError}
    (failed : e.eval memory = .error error) : FailsFirst memory e.operations error := by
  induction e with
  | literal text => contradiction
  | reference name =>
    obtain ⟨-, bound⟩ := readable name List.mem_cons_self
    obtain ⟨top, rest, held⟩ := List.exists_cons_of_ne_nil bound
    rw [eval_reference held] at failed
    contradiction
  | binary op left right ihLeft ihRight =>
    obtain ⟨leftReadable, rightReadable⟩ := readable.operands
    cases leftValue : left.eval memory with
    | error e =>
      rw [eval_binary_of_left leftValue] at failed
      exact ((ihLeft leftReadable (leftValue.trans failed)).append_right _).append_right _
    | ok a =>
      cases rightValue : right.eval memory with
      | error e =>
        rw [eval_binary_of_right leftValue rightValue] at failed
        exact ((ihRight rightReadable (rightValue.trans failed)).append_left
          (applied_of_eval leftValue)).append_right _
      | ok b =>
        rw [eval_binary leftValue rightValue] at failed
        refine ⟨left.operations ++ right.operations, op, left, right, [], a, b, rfl, ?_, leftValue,
          rightValue, failed⟩
        exact List.forall_mem_append.mpr ⟨applied_of_eval leftValue, applied_of_eval rightValue⟩

end Expression

namespace Eval

/-- In the middle of an echo: the response and the variables are as they were, and the echo stack holds
these values. -/
structure Amid (start : Machine) (values : List Value) (m : Machine) : Prop where
  exchange : m.exchange = start.exchange
  untouched : SameVariables start.memory m.memory
  stack : m.memory.list echoStack = values

variable {start m : Machine} {values : List Value}

theorem Amid.push (amid : Amid start values m) (value : Value) :
    ∃ next, push echoStack value m = .ok () next ∧ Amid start (value :: values) next := by
  refine ⟨_, rfl, amid.exchange, ?_, ?_⟩
  · intro name other
    exact (Stacks.list_push m.memory echoStack name value).trans
      ((if_neg (Ne.symm other)).trans (amid.untouched name other))
  · exact (Stacks.list_push m.memory echoStack echoStack value).trans
      ((if_pos rfl).trans (congrArg (value :: ·) amid.stack))

theorem Amid.pop {value : Value} (amid : Amid start (value :: values) m) :
    ∃ next, pop echoStack m = .ok value next ∧ Amid start values next := by
  refine ⟨{ m with memory := m.memory.set echoStack values }, ?_, amid.exchange, ?_, ?_⟩
  · simp only [Eval.pop, Stacks.pop, amid.stack]
  · intro name other
    exact (Stacks.list_set m.memory echoStack name values).trans
      ((if_neg (Ne.symm other)).trans (amid.untouched name other))
  · exact Stacks.list_set_self m.memory echoStack values

/-- How a part of an echo ends that is to put a value on the echo stack. -/
inductive Yields (start : Machine) (values : List Value) :
    Except ScriptError Value → EStateM.Result (Halt ScriptError) Machine Unit → Prop
  | value {v : Value} {next : Machine} (amid : Amid start (v :: values) next) :
      Yields start values (.ok v) (.ok () next)
  | failure {e : ScriptError} {next : Machine} (silent : next.exchange = start.exchange) :
      Yields start values (.error e) (.error (.failed e) next)

theorem Yields.of_ok {v : Value} {result : EStateM.Result (Halt ScriptError) Machine Unit}
    (yields : Yields start values (.ok v) result) :
    ∃ next, result = .ok () next ∧ Amid start (v :: values) next := by
  cases yields with
  | value amid => exact ⟨_, rfl, amid⟩

theorem Yields.of_error {e : ScriptError} {result : EStateM.Result (Halt ScriptError) Machine Unit}
    (yields : Yields start values (.error e) result) :
    ∃ next, result = .error (.failed e) next ∧ next.exchange = start.exchange := by
  cases yields with
  | failure silent => exact ⟨_, rfl, silent⟩

theorem elements_append_of_ok {include? : Option Include} {first : List Element} {next : Machine}
    (ran : elements include? first m = .ok () next) (second : List Element) :
    elements include? (first ++ second) m = elements include? second next := by
  induction first generalizing m with
  | nil =>
    cases ran
    rfl
  | cons e rest ih =>
    obtain ⟨_, between, head, tail⟩ := bind_eq_ok.mp ran
    simp only [List.cons_append, elements, bind, EStateM.bind, head]
    exact ih tail

theorem elements_append_of_error {include? : Option Include} {first : List Element}
    {halt : Halt ScriptError} {next : Machine}
    (ran : elements include? first m = .error halt next) (second : List Element) :
    elements include? (first ++ second) m = .error halt next := by
  induction first generalizing m with
  | nil => contradiction
  | cons e rest ih =>
    simp only [elements, bind, EStateM.bind] at ran
    simp only [List.cons_append, elements, bind, EStateM.bind]
    cases head : element include? e m with
    | ok _ between =>
      rw [head] at ran
      exact ih ran
    | error halt between =>
      rw [head] at ran
      exact ran

theorem elements_singleton (include? : Option Include) (e : Element) (m : Machine) :
    elements include? [e] m = element include? e m := by
  simp only [elements, bind, EStateM.bind]
  cases element include? e m <;> rfl

/-- An operator takes its operands off the echo stack, the right one first. -/
theorem element_operator {a b : Value} (include? : Option Include) (op : BinaryOp)
    (amid : Amid start (b :: a :: values) m) :
    Yields start values (a.combine op b) (element include? (.operator op.symbol) m) := by
  obtain ⟨m₁, right, amid₁⟩ := amid.pop
  obtain ⟨m₂, left, amid₂⟩ := amid₁.pop
  simp only [element, BinaryOp.ofSymbol?_symbol, bind, EStateM.bind, right, left]
  cases a.combine op b with
  | ok v =>
    obtain ⟨m₃, pushed, amid₃⟩ := amid₂.push v
    simp only [ofExcept, pure, EStateM.pure, pushed]
    exact .value amid₃
  | error e => exact .failure amid₂.exchange

/-- The elements of an expression put its value on the echo stack, or fail as it fails. -/
theorem run_elements (include? : Option Include) (e : Expression) (readable : e.Readable start.memory)
    (amid : Amid start values m) :
    Yields start values (e.eval start.memory) (elements include? e.elements m) := by
  induction e generalizing values m with
  | literal text =>
    obtain ⟨next, pushed, amid⟩ := amid.push (.text text)
    rw [Expression.elements, elements_singleton, element, pushed]
    exact .value amid
  | reference name =>
    obtain ⟨other, bound⟩ := readable name List.mem_cons_self
    obtain ⟨top, rest, held⟩ := List.exists_cons_of_ne_nil bound
    have current : m.memory.list name = top :: rest := (amid.untouched name other).trans held
    have read : peek name m = .ok top m := by
      change ofExcept ((m.memory.peek name).mapError .ofUnderflow) m = .ok top m
      rw [Stacks.peek, current]
      rfl
    obtain ⟨next, pushed, amid⟩ := amid.push top
    rw [Expression.elements, elements_singleton, Expression.eval_reference held]
    simp only [element, bind, EStateM.bind, read, pushed]
    exact .value amid
  | binary op left right ihLeft ihRight =>
    obtain ⟨leftReadable, rightReadable⟩ := readable.operands
    have first := ihLeft leftReadable amid
    rw [Expression.elements, List.append_assoc]
    cases leftValue : left.eval start.memory with
    | error e =>
      rw [leftValue] at first
      obtain ⟨next, failed, silent⟩ := first.of_error
      rw [elements_append_of_error failed, Expression.eval_binary_of_left leftValue]
      exact .failure silent
    | ok a =>
      rw [leftValue] at first
      obtain ⟨m₁, ran, amid₁⟩ := first.of_ok
      have second := ihRight rightReadable amid₁
      rw [elements_append_of_ok ran]
      cases rightValue : right.eval start.memory with
      | error e =>
        rw [rightValue] at second
        obtain ⟨next, failed, silent⟩ := second.of_error
        rw [elements_append_of_error failed, Expression.eval_binary_of_right leftValue rightValue]
        exact .failure silent
      | ok b =>
        rw [rightValue] at second
        obtain ⟨m₂, ran, amid₂⟩ := second.of_ok
        rw [elements_append_of_ok ran, elements_singleton,
          Expression.eval_binary leftValue rightValue]
        exact element_operator include? op amid₂

/-- The elements of expressions put the values of all of them on the echo stack, the last one on top, or
fail at the first operator that cannot be applied. -/
theorem run_all (include? : Option Include) (expressions : List Expression)
    (readable : ∀ e ∈ expressions, e.Readable start.memory) (amid : Amid start values m) :
    (∃ (results : List Value) (next : Machine),
      expressions.map (·.eval start.memory) = results.map .ok ∧
      elements include? (expressions.flatMap Expression.elements) m = .ok () next ∧
      Amid start (results.reverse ++ values) next) ∨
    ∃ error next,
      Expression.FailsFirst start.memory (expressions.flatMap Expression.operations) error ∧
      elements include? (expressions.flatMap Expression.elements) m = .error (.failed error) next ∧
      next.exchange = start.exchange := by
  induction expressions generalizing values m with
  | nil => exact .inl ⟨[], m, rfl, rfl, amid⟩
  | cons e rest ih =>
    obtain ⟨here, later⟩ := List.forall_mem_cons.mp readable
    have first := run_elements include? e here amid
    simp only [List.flatMap_cons, List.map_cons]
    cases value : e.eval start.memory with
    | error error =>
      rw [value] at first
      obtain ⟨next, failed, silent⟩ := first.of_error
      right
      refine ⟨error, next, ?_, elements_append_of_error failed _, silent⟩
      exact (Expression.failsFirst_of_eval here value).append_right _
    | ok v =>
      rw [value] at first
      obtain ⟨between, ran, amid⟩ := first.of_ok
      rw [elements_append_of_ok ran]
      rcases ih later amid with ⟨results, next, found, ended, amid⟩ | ⟨error, next, fails, ended, silent⟩
      · left
        refine ⟨v :: results, next, by rw [found, List.map_cons], ended, ?_⟩
        rwa [List.reverse_cons, List.append_assoc, List.singleton_append]
      · right
        exact ⟨error, next, fails.append_left (Expression.applied_of_eval value), ended, silent⟩

/-- The end of an echo takes the values off the echo stack and writes them in one piece, if there is
anything to write. -/
theorem echo_of_elements {include? : Option Include} {es : List Element}
    (ran : elements include? es start = .ok () m) (amid : Amid start values m)
    (empty : start.memory.list echoStack = []) :
    ∃ next, echo include? es start = .ok () next ∧
      next.exchange = (if String.join (values.map Value.render) = "" then start.exchange
        else start.exchange.told (String.join (values.map Value.render))) ∧
      ∀ name, next.memory.list name = start.memory.list name := by
  have kept : ∀ name, (m.memory.drain echoStack).2.list name = start.memory.list name := by
    intro name
    rw [Stacks.list_drain]
    split
    · next same => rw [← same, empty]
    · next other => exact amid.untouched name (Ne.symm other)
  simp only [echo, bind, EStateM.bind, ran, drain, Stacks.drain_fst, amid.stack]
  split
  · exact ⟨_, rfl, amid.exchange, kept⟩
  · rw [emit_eq]
    exact ⟨_, rfl, congrArg (Exchange.told · _) amid.exchange, kept⟩

/-- An echo of expressions writes their values in one piece, the last one first, and nothing if there is
nothing to write. If an expression has no value, the echo fails at the first operator that cannot be
applied, and writes nothing. -/
theorem echo_expressions (include? : Option Include) (expressions : List Expression) (m : Machine)
    (empty : m.memory.list echoStack = [])
    (readable : ∀ e ∈ expressions, e.Readable m.memory) :
    (∀ values : List Value, expressions.map (·.eval m.memory) = values.map .ok →
      ∃ next, echo include? (expressions.flatMap Expression.elements) m = .ok () next ∧
        next.exchange = (if String.join (values.reverse.map Value.render) = "" then m.exchange
          else m.exchange.told (String.join (values.reverse.map Value.render))) ∧
        ∀ name, next.memory.list name = m.memory.list name) ∧
    ((∃ e ∈ expressions, ∃ error, e.eval m.memory = .error error) →
      ∃ error next,
        Expression.FailsFirst m.memory (expressions.flatMap Expression.operations) error ∧
        echo include? (expressions.flatMap Expression.elements) m = .error (.failed error) next ∧
        next.exchange = m.exchange) := by
  have amid : Amid m [] m := ⟨rfl, fun _ _ => rfl, empty⟩
  rcases run_all include? expressions readable amid with
    ⟨results, between, found, ran, amid⟩ | ⟨error, next, fails, ran, silent⟩
  · constructor
    · intro values all
      have same : results = values :=
        (List.map_inj_right fun _ _ => Except.ok.inj).mp (found.symm.trans all)
      rw [List.append_nil, same] at amid
      exact echo_of_elements ran amid empty
    · rintro ⟨e, member, error, failed⟩
      have value := List.mem_map_of_mem (f := (·.eval m.memory)) member
      rw [found, failed] at value
      obtain ⟨_, -, contrary⟩ := List.mem_map.mp value
      contradiction
  · constructor
    · intro values all
      refine absurd ?_ fails.not_applied
      intro operation inside
      obtain ⟨e, member, part⟩ := List.mem_flatMap.mp inside
      have value := List.mem_map_of_mem (f := (·.eval m.memory)) member
      rw [all] at value
      obtain ⟨v, -, same⟩ := List.mem_map.mp value
      exact Expression.applied_of_eval same.symm operation part
    · intro _
      refine ⟨error, next, fails, ?_, silent⟩
      simp only [echo, bind, EStateM.bind, ran]

/-- A difference whose left operand is a variable is written behind a text that comes later, and the
division of the same variable by zero is not written at all, although another value stands before it. -/
theorem echo_expressions_order :
    let i : Expression := .reference "i"
    let good : List Expression := [.binary .subtract i (.literal "2"), .literal "x"]
    let bad : List Expression := [.literal "x", .binary .divide i (.literal "0")]
    let m : Machine := { memory := (∅ : Stacks Value).push "i" (.int 7), exchange := .blank }
    m.memory.list echoStack = [] ∧ (∀ e ∈ good ++ bad, e.Readable m.memory) ∧
      (∃ next, echo none (good.flatMap Expression.elements) m = .ok () next ∧
        next.exchange = m.exchange.told "x5") ∧
      ∃ error next, Expression.FailsFirst m.memory (bad.flatMap Expression.operations) error ∧
        echo none (bad.flatMap Expression.elements) m = .error (.failed error) next ∧
        next.exchange = m.exchange := by
  intro i good bad m
  have empty : m.memory.list echoStack = [] := by rfl
  have bound : m.memory.list "i" = [.int 7] := by rfl
  have readable : ∀ e ∈ good ++ bad, e.Readable m.memory := by
    simp [good, bad, i, Expression.Readable, Expression.names, bound, echoStack]
  obtain ⟨readableGood, readableBad⟩ := List.forall_mem_append.mp readable
  refine ⟨empty, readable, ?_, ?_⟩
  · have values : good.map (·.eval m.memory) = [Value.int 5, Value.text "x"].map .ok := by rfl
    obtain ⟨next, ran, written, -⟩ := (echo_expressions none good m empty readableGood).1 _ values
    have output : String.join ([Value.int 5, Value.text "x"].reverse.map Value.render) = "x5" := by
      decide
    rw [output, if_neg (by decide)] at written
    exact ⟨next, ran, written⟩
  · have fails : (Expression.binary .divide i (.literal "0")).eval m.memory =
        .error Number.divisionByZero := by rfl
    exact (echo_expressions none bad m empty readableBad).2 ⟨_, by simp [bad], _, fails⟩

end Eval

end PageServer.Template
