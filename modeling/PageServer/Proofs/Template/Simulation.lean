import PageServer.Proofs.Template.StackBalance

/-! # Running a template on other stacks and another response

A template is run on two machines side by side. The outer machine holds further values at the bottom of
its stacks, and its response may differ in what no template can see (`Blind`). The two runs stay in step
and come to the same end (`inStep_visitAll`), unless a variable is read whose values lie at the bottom
alone. Only a free variable can be such, since a loop binds its own; and echoes are evaluated on stacks
that are the same, since nothing lies at the bottom of the echo stack.
-/

namespace PageServer

/-- Two runs come to the same end: to one value or to one failure, in related states. -/
inductive Agree {ε σ τ α : Type} (good bad : σ → τ → Prop) :
    EStateM.Result ε σ α → EStateM.Result ε τ α → Prop
  | ok {a : α} {s : σ} {t : τ} (related : good s t) : Agree good bad (.ok a s) (.ok a t)
  | error {e : ε} {s : σ} {t : τ} (related : bad s t) : Agree good bad (.error e s) (.error e t)

section Agree

variable {ε σ τ α β : Type} {good better bad : σ → τ → Prop}

/-- Two runs in step stay in step if they go on so. -/
theorem Agree.bind {x : EStateM ε σ α} {y : EStateM ε τ α} {f : α → EStateM ε σ β}
    {g : α → EStateM ε τ β} {s : σ} {t : τ} (first : Agree good bad (x s) (y t))
    (second : ∀ a s' t', x s = .ok a s' → good s' t' → Agree better bad (f a s') (g a t')) :
    Agree better bad ((x >>= f) s) ((y >>= g) t) := by
  simp only [Bind.bind, EStateM.bind]
  generalize x s = left at first second
  generalize y t = right at first
  cases first with
  | ok related => exact second _ _ _ rfl related
  | error related => exact .error related

end Agree

/-- The exchange after a text was written as well as it can be. -/
def Exchange.told (x : Exchange) (text : String) : Exchange :=
  match Exchange.writeText text x with
  | .ok _ next => next
  | .error _ next => next

namespace Template

/-- The variable that a bound reads. -/
def Operand.free : Operand → List String
  | .literal _ => []
  | .reference name => [name]

def Element.free : Element → List String
  | .reference name => [name]
  | _ => []

/-- The variables that the bounds of a loop read. -/
def LoopHeader.free (header : LoopHeader) : List String :=
  header.start.free ++ header.stop.free ++ (header.step.map Operand.free).getD []

mutual

/-- The variables that a part of a template reads and that no loop inside it binds. -/
def Node.free : Node → List String
  | .text _ => []
  | .echo es => es.flatMap Element.free
  | .loop header body => header.free ++ (freeAll body).filter (· ≠ header.counter)

/-- The variables that a template reads and does not bind. -/
def freeAll : List Node → List String
  | [] => []
  | node :: rest => node.free ++ freeAll rest

end

/-- Related exchanges look the same to a template, and whatever it does to both, they stay related. -/
structure Blind (alike : Exchange → Exchange → Prop) : Prop where
  parameters {x y : Exchange} : alike x y → x.parameters = y.parameters
  temporary {x y : Exchange} : alike x y → x.temporary = y.temporary
  attributes {x y : Exchange} : alike x y → x.session.attributes = y.session.attributes
  told {x y : Exchange} (text : String) : alike x y → alike (x.told text) (y.told text)
  setMediaType {x y : Exchange} (mediaType : String) : alike x y →
    Agree alike alike (Exchange.setMediaType mediaType x) (Exchange.setMediaType mediaType y)
  setTemporary {x y : Exchange} (name value : String) : alike x y →
    alike (x.setTemporary name value) (y.setTemporary name value)
  dropTemporary {x y : Exchange} (name : String) : alike x y →
    alike (x.dropTemporary name) (y.dropTemporary name)
  setAttribute {x y : Exchange} (name value : String) : alike x y →
    alike (x.setAttribute name value) (y.setAttribute name value)
  dropAttribute {x y : Exchange} (name : String) : alike x y →
    alike (x.dropAttribute name) (y.dropAttribute name)

/-- The outer machine holds what the inner one holds on top of `base`, and their exchanges are alike. -/
structure Above (alike : Exchange → Exchange → Prop) (base : Stacks Value) (inner outer : Machine) :
    Prop where
  exchange : alike inner.exchange outer.exchange
  list (name : String) : outer.memory.list name = inner.memory.list name ++ base.list name

/-- The inner machine has a value for a name, or there is none in `base` either. -/
def Supplied (base memory : Stacks Value) (name : String) : Prop :=
  memory.list name ≠ [] ∨ base.list name = []

/-- Two ways of including paths do the same on exchanges that are alike. -/
inductive SameIncludes (alike : Exchange → Exchange → Prop) : Option Include → Option Include → Prop
  | none : SameIncludes alike none none
  | some {left right : Include}
      (agree : ∀ path x y, alike x y → Agree alike alike (left path x) (right path y)) :
      SameIncludes alike (some left) (some right)

variable {base before after : Stacks Value} {name : String}

/-- A variable stays supplied as long as its stack is left alone. -/
theorem Supplied.of_sameVariables (bottomless : base.list echoStack = [])
    (supplied : Supplied base before name) (same : SameVariables before after) :
    Supplied base after name := by
  by_cases echo : name = echoStack
  · exact .inr (echo ▸ bottomless)
  · rwa [Supplied, same name echo]

/-- The variable of a loop is supplied inside. -/
theorem supplied_push_self (base memory : Stacks Value) (name : String) (value : Value) :
    Supplied base (memory.push name value) name := by
  left
  rw [Stacks.list_push, if_pos rfl]
  exact List.cons_ne_nil value _

theorem Supplied.push (supplied : Supplied base before name) (other : String) (value : Value) :
    Supplied base (before.push other value) name := by
  by_cases same : other = name
  · subst same
    exact supplied_push_self base before other value
  · rwa [Supplied, Stacks.list_push, if_neg same]

theorem Supplied.set (supplied : Supplied base before name) (other : String) (value : Value)
    (rest : List Value) : Supplied base (before.set other (value :: rest)) name := by
  rw [Supplied, Stacks.list_set]
  split
  · exact .inl (List.cons_ne_nil value rest)
  · exact supplied

/-- The entries of a supplied name begin alike on both machines, or there are none on either. -/
theorem Above.list_of_supplied {alike : Exchange → Exchange → Prop} {m n : Machine}
    (above : Above alike base m n) (supplied : Supplied base m.memory name) :
    m.memory.list name = [] ∧ n.memory.list name = [] ∨
      ∃ top rest, m.memory.list name = top :: rest ∧
        n.memory.list name = top :: (rest ++ base.list name) := by
  have whole := above.list name
  cases held : m.memory.list name with
  | nil =>
    rw [held, List.nil_append] at whole
    rcases supplied with filled | bottomless
    · exact absurd held filled
    · exact .inl ⟨rfl, whole.trans bottomless⟩
  | cons top rest =>
    rw [held, List.cons_append] at whole
    exact .inr ⟨top, rest, rfl, whole⟩

theorem Above.set {alike : Exchange → Exchange → Prop} {m n : Machine}
    (above : Above alike base m n) (name : String) (values : List Value) :
    Above alike base { m with memory := m.memory.set name values }
      { n with memory := n.memory.set name (values ++ base.list name) } := by
  refine ⟨above.exchange, fun other => ?_⟩
  simp only [Stacks.list_set]
  split
  · next same => rw [same]
  · exact above.list other

theorem Above.push {alike : Exchange → Exchange → Prop} {m n : Machine}
    (above : Above alike base m n) (name : String) (value : Value) :
    Above alike base { m with memory := m.memory.push name value }
      { n with memory := n.memory.push name value } := by
  have whole := above.set name (value :: m.memory.list name)
  rwa [List.cons_append, ← above.list name] at whole

namespace Eval

variable {α : Type} {alike : Exchange → Exchange → Prop} {m n : Machine}

/-- Two computations come to the same end, and the machines are related again if they succeed. -/
abbrev InStep (alike : Exchange → Exchange → Prop) (base : Stacks Value) {α : Type} :
    EStateM.Result (Halt ScriptError) Machine α → EStateM.Result (Halt ScriptError) Machine α → Prop :=
  Agree (Above alike base) fun s t => alike s.exchange t.exchange

theorem inStep_fail (above : Above alike base m n) (error : ScriptError) :
    InStep alike base ((fail error : Eval α) m) ((fail error : Eval α) n) :=
  .error above.exchange

theorem inStep_ofExcept (above : Above alike base m n) (result : Except ScriptError α) :
    InStep alike base (ofExcept result m) (ofExcept result n) := by
  cases result with
  | ok a => exact .ok above
  | error e => exact .error above.exchange

theorem inStep_push (above : Above alike base m n) (name : String) (value : Value) :
    InStep alike base (push name value m) (push name value n) :=
  .ok (above.push name value)

theorem inStep_peek (above : Above alike base m n) (supplied : Supplied base m.memory name) :
    InStep alike base (peek name m) (peek name n) := by
  have same : m.memory.peek name = n.memory.peek name := by
    rcases above.list_of_supplied supplied with ⟨left, right⟩ | ⟨top, rest, left, right⟩
    all_goals simp only [Stacks.peek, left, right]
  change InStep alike base (ofExcept ((m.memory.peek name).mapError .ofUnderflow) m)
    (ofExcept ((n.memory.peek name).mapError .ofUnderflow) n)
  rw [same]
  exact inStep_ofExcept above _

theorem inStep_pop (above : Above alike base m n) (supplied : Supplied base m.memory name) :
    InStep alike base (pop name m) (pop name n) := by
  rcases above.list_of_supplied supplied with ⟨left, right⟩ | ⟨top, rest, left, right⟩
  · simp only [pop, Stacks.pop, left, right]
    exact .error above.exchange
  · simp only [pop, Stacks.pop, left, right]
    exact .ok (above.set name rest)

theorem inStep_setTop (above : Above alike base m n) (supplied : Supplied base m.memory name)
    (value : Value) : InStep alike base (setTop name value m) (setTop name value n) := by
  rcases above.list_of_supplied supplied with ⟨left, right⟩ | ⟨top, rest, left, right⟩
  · simp only [setTop, Stacks.setTop, left, right]
    exact .error above.exchange
  · simp only [setTop, Stacks.setTop, left, right]
    exact .ok (above.set name (value :: rest))

theorem inStep_onExchange (above : Above alike base m n) {left right : Run α}
    (agree : Agree alike alike (left m.exchange) (right n.exchange)) :
    InStep alike base (onExchange left m) (onExchange right n) := by
  simp only [onExchange]
  generalize left m.exchange = x at agree
  generalize right n.exchange = y at agree
  cases agree with
  | ok related => exact .ok ⟨related, above.list⟩
  | error related => exact .error related

theorem inStep_modifyExchange (above : Above alike base m n) (change : Exchange → Exchange)
    (related : alike (change m.exchange) (change n.exchange)) :
    InStep alike base (modifyExchange change m) (modifyExchange change n) :=
  .ok ⟨related, above.list⟩

theorem emit_eq (text : String) (m : Machine) :
    emit text m = .ok () { m with exchange := m.exchange.told text } := by
  simp only [emit, Exchange.told]
  cases Exchange.writeText text m.exchange <;> rfl

theorem inStep_pop_echo (bottomless : base.list echoStack = [])
    (above : Above alike base m n) :
    InStep alike base (pop echoStack m) (pop echoStack n) :=
  inStep_pop above (.inr bottomless)

theorem inStep_drain_echo (bottomless : base.list echoStack = [])
    (above : Above alike base m n) :
    InStep alike base (drain echoStack m) (drain echoStack n) := by
  have same := above.list echoStack
  rw [bottomless, List.append_nil] at same
  simp only [drain, Stacks.drain_fst]
  rw [same]
  refine .ok ⟨above.exchange, fun name => ?_⟩
  simp only [Stacks.list_drain]
  split
  · next echo => rw [← echo, bottomless, List.append_nil]
  · exact above.list name

theorem inStep_pushFrom (above : Above alike base m n) (scope : Exchange → Scope)
    (same : scope m.exchange = scope n.exchange) (name default : Value) :
    InStep alike base (pushFrom scope name default m) (pushFrom scope name default n) := by
  change InStep alike base
    (push echoStack (((scope m.exchange)[name.render]?.map Value.text).getD default) m)
    (push echoStack (((scope n.exchange)[name.render]?.map Value.text).getD default) n)
  rw [same]
  exact inStep_push above echoStack _

section Template

variable (blind : Blind alike) (bottomless : base.list echoStack = [])

include blind

theorem inStep_emit (above : Above alike base m n) (text : String) :
    InStep alike base (emit text m) (emit text n) := by
  rw [emit_eq, emit_eq]
  exact .ok ⟨blind.told text above.exchange, above.list⟩

theorem inStep_callUnary {left right : Option Include} (includes : SameIncludes alike left right)
    (above : Above alike base m n) (f : Unary) (a : Value) :
    InStep alike base (callUnary left f a m) (callUnary right f a n) := by
  cases f with
  | sin | format =>
    exact (inStep_ofExcept above a.toFloat).bind fun _ _ _ _ above => inStep_push above echoStack _
  | dup =>
    exact (inStep_push above echoStack a).bind fun _ _ _ _ above => inStep_push above echoStack a
  | mime =>
    refine inStep_onExchange above ?_
    have agree := blind.setMediaType a.render above.exchange
    simp only [Exchange.Step.run]
    generalize Exchange.setMediaType a.render m.exchange = x at agree
    generalize Exchange.setMediaType a.render n.exchange = y at agree
    cases agree with
    | ok related => exact .ok related
    | error related => exact .error related
  | dropTemporary =>
    exact inStep_modifyExchange above (·.dropTemporary a.render)
      (blind.dropTemporary _ above.exchange)
  | dropAttribute =>
    exact inStep_modifyExchange above (·.dropAttribute a.render)
      (blind.dropAttribute _ above.exchange)
  | includePath =>
    cases includes with
    | none => exact inStep_fail above _
    | some agree => exact inStep_onExchange above (agree a.render _ _ above.exchange)

theorem inStep_callBinary (above : Above alike base m n) (f : Binary) (a b : Value) :
    InStep alike base (callBinary f a b m) (callBinary f a b n) := by
  cases f with
  | swap =>
    exact (inStep_push above echoStack b).bind fun _ _ _ _ above => inStep_push above echoStack a
  | parameter => exact inStep_pushFrom above (·.parameters) (blind.parameters above.exchange) a b
  | temporary => exact inStep_pushFrom above (·.temporary) (blind.temporary above.exchange) a b
  | setTemporary =>
    exact inStep_modifyExchange above (·.setTemporary a.render b.render)
      (blind.setTemporary _ _ above.exchange)
  | «attribute» =>
    exact inStep_pushFrom above (·.session.attributes) (blind.attributes above.exchange) a b
  | setAttribute =>
    exact inStep_modifyExchange above (·.setAttribute a.render b.render)
      (blind.setAttribute _ _ above.exchange)

include bottomless

theorem inStep_call {left right : Option Include} (includes : SameIncludes alike left right)
    (above : Above alike base m n) (f : Builtin) :
    InStep alike base (call left f m) (call right f n) := by
  cases f with
  | unary f =>
    exact (inStep_pop_echo bottomless above).bind fun a _ _ _ above =>
      inStep_callUnary blind includes above f a
  | binary f =>
    exact (inStep_pop_echo bottomless above).bind fun b _ _ _ above =>
      (inStep_pop_echo bottomless above).bind fun a _ _ _ above =>
        inStep_callBinary blind above f a b

theorem inStep_element {left right : Option Include} (includes : SameIncludes alike left right)
    (above : Above alike base m n) (e : Element)
    (supplied : ∀ name ∈ e.free, Supplied base m.memory name) :
    InStep alike base (element left e m) (element right e n) := by
  cases e with
  | literal text => exact inStep_push above echoStack _
  | reference name =>
    have read := inStep_peek above (supplied name List.mem_cons_self)
    exact read.bind fun _ _ _ _ above => inStep_push above echoStack _
  | operator symbol =>
    simp only [element]
    cases BinaryOp.ofSymbol? symbol with
    | none => exact inStep_fail above _
    | some op =>
      exact (inStep_pop_echo bottomless above).bind fun b _ _ _ above =>
        (inStep_pop_echo bottomless above).bind fun a _ _ _ above =>
          (inStep_ofExcept above _).bind fun _ _ _ _ above => inStep_push above echoStack _
  | function name =>
    simp only [element]
    cases Builtin.ofName? name with
    | none => exact inStep_fail above _
    | some f => exact inStep_call blind bottomless includes above _

theorem inStep_elements {left right : Option Include} (includes : SameIncludes alike left right)
    (above : Above alike base m n) (es : List Element)
    (supplied : ∀ name ∈ es.flatMap Element.free, Supplied base m.memory name) :
    InStep alike base (elements left es m) (elements right es n) := by
  induction es generalizing m n with
  | nil => exact .ok above
  | cons e rest ih =>
    rw [List.flatMap_cons] at supplied
    have first := inStep_element blind bottomless includes above e fun name member =>
      supplied name (List.mem_append_left _ member)
    refine first.bind fun _ s t ran above => ih above fun name member => ?_
    exact (supplied name (List.mem_append_right _ member)).of_sameVariables bottomless
      (ensures_element left e m _ s ran)

theorem inStep_echo {left right : Option Include} (includes : SameIncludes alike left right)
    (above : Above alike base m n) (es : List Element)
    (supplied : ∀ name ∈ es.flatMap Element.free, Supplied base m.memory name) :
    InStep alike base (echo left es m) (echo right es n) := by
  refine (inStep_elements blind bottomless includes above es supplied).bind fun _ _ _ _ above =>
    (inStep_drain_echo bottomless above).bind fun values _ _ _ above => ?_
  by_cases silent : String.join (values.map Value.render) = ""
  · simp only [silent, ↓reduceIte]
    exact .ok above
  · simp only [silent, ↓reduceIte]
    exact inStep_emit blind above _

omit blind bottomless in
theorem inStep_operand (above : Above alike base m n) (o : Operand)
    (supplied : ∀ name ∈ o.free, Supplied base m.memory name) :
    InStep alike base (operand o m) (operand o n) := by
  cases o with
  | literal text => exact .ok above
  | reference name => exact inStep_peek above (supplied name List.mem_cons_self)

omit blind bottomless in
theorem inStep_loopStep (above : Above alike base m n) (step : Option Operand)
    (supplied : ∀ name ∈ (step.map Operand.free).getD [], Supplied base m.memory name) :
    InStep alike base (loopStep step m) (loopStep step n) := by
  cases step with
  | none => exact .ok above
  | some o => exact inStep_operand above o supplied

omit blind bottomless in
theorem inStep_requirePositive (above : Above alike base m n) (counter : String) (step : Value) :
    InStep alike base (requirePositive counter step m) (requirePositive counter step n) := by
  refine (inStep_ofExcept above _).bind fun order _ _ _ above => ?_
  by_cases positive : order = .gt
  · simp only [positive, ↓reduceIte]
    exact .ok above
  · simp only [positive, ↓reduceIte]
    exact inStep_fail above _

/-- The variables that a body reads are supplied, and so is the variable of the loop itself. -/
def LoopSupplied (base memory : Stacks Value) (counter : String) (names : List String) : Prop :=
  ∀ name ∈ counter :: names, Supplied base memory name

omit blind in
/-- A round of a loop supplies the next one. -/
theorem loopSupplied_round {counter : String} {names : List String} {stop step : Value}
    {body : Eval Unit} (kept : Ensures Kept body) {more : Bool} {s : Machine}
    (supplied : LoopSupplied base m.memory counter names)
    (ran : loopRound counter stop step body m = .ok more s) :
    LoopSupplied base s.memory counter names := by
  intro name member
  obtain ⟨_, _, _, _, _, ends⟩ := loopRound_eq_ok ran
  rcases ends with ⟨-, -, rfl⟩ | ⟨-, -, between, _, below, sum, done, _, -, rfl⟩
  · exact supplied name member
  · have inside := (supplied name member).of_sameVariables bottomless
      (kept m _ between done).sameVariables
    exact inside.set counter sum below

omit blind in
theorem inStep_loopRound {counter : String} {names : List String} {stop step : Value}
    {left right : Eval Unit} (kept : Ensures Kept left)
    (bodies : ∀ m n, Above alike base m n → (∀ name ∈ names, Supplied base m.memory name) →
      InStep alike base (left m) (right n))
    (above : Above alike base m n) (supplied : LoopSupplied base m.memory counter names) :
    InStep alike base (loopRound counter stop step left m) (loopRound counter stop step right n) := by
  have own := supplied counter List.mem_cons_self
  refine (inStep_peek above own).bind fun current m₁ _ read above₁ => ?_
  obtain ⟨-, rfl⟩ := peek_eq_ok read
  refine (inStep_ofExcept above₁ _).bind fun order m₂ _ compared above₂ => ?_
  obtain ⟨-, rfl⟩ := ofExcept_eq_ok compared
  by_cases past : order = .gt
  · simp only [past, ↓reduceIte]
    exact .ok above₂
  · simp only [past, ↓reduceIte]
    have first := bodies _ _ above₂ fun name member => supplied name (List.mem_cons_of_mem _ member)
    refine first.bind fun _ between _ done above₃ => ?_
    have inside := own.of_sameVariables bottomless (kept _ _ between done).sameVariables
    refine (inStep_peek above₃ inside).bind fun top m₄ _ reread above₄ => ?_
    obtain ⟨-, rfl⟩ := peek_eq_ok reread
    refine (inStep_ofExcept above₄ _).bind fun sum m₅ _ added above₅ => ?_
    obtain ⟨-, rfl⟩ := ofExcept_eq_ok added
    exact (inStep_setTop above₅ inside sum).bind fun _ _ _ _ above₆ => .ok above₆

omit blind in
theorem inStep_iterate {counter : String} {names : List String} {stop step : Value}
    {left right : Eval Unit} (kept : Ensures Kept left)
    (bodies : ∀ m n, Above alike base m n → (∀ name ∈ names, Supplied base m.memory name) →
      InStep alike base (left m) (right n)) (rounds : Nat)
    (above : Above alike base m n) (supplied : LoopSupplied base m.memory counter names) :
    InStep alike base (iterate (loopRound counter stop step left) rounds m)
      (iterate (loopRound counter stop step right) rounds n) := by
  induction rounds generalizing m n with
  | zero => exact .error above.exchange
  | succ rounds ih =>
    refine (inStep_loopRound bottomless kept bodies above supplied).bind fun more s t ran above => ?_
    cases more with
    | false => exact .ok above
    | true => exact ih above (loopSupplied_round bottomless kept supplied ran)

omit blind in
theorem inStep_runLoop {left right : Eval Unit} (rounds : Nat) (header : LoopHeader)
    {names : List String} (kept : Ensures Kept left)
    (bodies : ∀ m n, Above alike base m n → (∀ name ∈ names, Supplied base m.memory name) →
      InStep alike base (left m) (right n))
    (above : Above alike base m n)
    (supplied : ∀ name ∈ header.free ++ names.filter (· ≠ header.counter),
      Supplied base m.memory name) :
    InStep alike base (runLoop rounds header left m) (runLoop rounds header right n) := by
  simp only [LoopHeader.free, List.forall_mem_append] at supplied
  obtain ⟨⟨⟨starts, stops⟩, steps⟩, inside⟩ := supplied
  refine (inStep_operand above header.start starts).bind fun start m₁ _ begun above₁ => ?_
  obtain rfl := operand_eq_ok begun
  refine (inStep_operand above₁ header.stop stops).bind fun stop m₂ _ ended above₂ => ?_
  obtain rfl := operand_eq_ok ended
  refine (inStep_loopStep above₂ header.step steps).bind fun step m₃ _ stepped above₃ => ?_
  obtain rfl := loopStep_eq_ok stepped
  refine (inStep_requirePositive above₃ header.counter step).bind fun _ m₄ _ positive above₄ => ?_
  obtain ⟨rfl, -⟩ := requirePositive_eq_ok positive
  refine (inStep_push above₄ header.counter start).bind fun _ m₅ _ pushed above₅ => ?_
  cases pushed
  have ready : LoopSupplied base (m₄.memory.push header.counter start) header.counter names := by
    intro name member
    by_cases own : name = header.counter
    · rw [own]
      exact supplied_push_self base m₄.memory header.counter start
    · have read : name ∈ names := (List.mem_cons.mp member).resolve_left own
      exact (inside name (List.mem_filter.mpr ⟨read, decide_eq_true own⟩)).push header.counter start
  refine (inStep_iterate bottomless kept bodies rounds above₅ ready).bind
    fun _ s _ iterated above₆ => ?_
  have last : LoopSupplied base s.memory header.counter names :=
    iterate_invariant (fun x more next held ran => loopSupplied_round bottomless kept held ran)
      ready iterated
  have own := last header.counter List.mem_cons_self
  exact (inStep_pop above₆ own).bind fun _ _ _ _ above₇ => .ok above₇

end Template

mutual

theorem inStep_visit (blind : Blind alike) (bottomless : base.list echoStack = [])
    {left right : Services} (includes : SameIncludes alike left.include? right.include?)
    (rounds : left.rounds = right.rounds) (node : Node) {m n : Machine} (above : Above alike base m n)
    (supplied : ∀ name ∈ node.free, Supplied base m.memory name) :
    InStep alike base (visit left node m) (visit right node n) := by
  cases node with
  | text content => exact inStep_emit blind above content
  | echo es => exact inStep_echo blind bottomless includes above es supplied
  | loop header body =>
    simp only [visit]
    rw [← rounds]
    refine inStep_runLoop bottomless left.rounds header (ensures_visitAll left body) ?_ above supplied
    intro m n above supplied
    exact inStep_visitAll blind bottomless includes rounds body above supplied

/-- On machines of which one holds more below, a template comes to the same end, provided that its free
variables are supplied without what lies below. -/
theorem inStep_visitAll (blind : Blind alike) (bottomless : base.list echoStack = [])
    {left right : Services} (includes : SameIncludes alike left.include? right.include?)
    (rounds : left.rounds = right.rounds) (nodes : List Node) {m n : Machine}
    (above : Above alike base m n) (supplied : ∀ name ∈ freeAll nodes, Supplied base m.memory name) :
    InStep alike base (visitAll left nodes m) (visitAll right nodes n) := by
  cases nodes with
  | nil => exact .ok above
  | cons node rest =>
    simp only [freeAll, List.forall_mem_append] at supplied
    have first := inStep_visit blind bottomless includes rounds node above supplied.1
    refine first.bind fun _ s _ ran above => ?_
    refine inStep_visitAll blind bottomless includes rounds rest above fun name member => ?_
    exact (supplied.2 name member).of_sameVariables bottomless
      (ensures_visit left node m _ s ran).sameVariables

end

/-- On exchanges that are alike, a template on the same stacks comes to the same end. -/
theorem agree_execute (blind : Blind alike) {left right : Option Include}
    (includes : SameIncludes alike left right) (rounds : Nat) (document : Document) (memory : Stacks Value)
    {x y : Exchange} (related : alike x y) :
    Agree (fun s t => alike s.exchange t.exchange) (fun s t => alike s.exchange t.exchange)
      (execute ⟨left, rounds⟩ document ⟨memory, x⟩) (execute ⟨right, rounds⟩ document ⟨memory, y⟩) := by
  have above : Above alike ∅ ⟨memory, x⟩ ⟨memory, y⟩ := by
    refine ⟨related, fun name => ?_⟩
    rw [Stacks.list_empty, List.append_nil]
  have bottomless (name : String) : (∅ : Stacks Value).list name = [] := Stacks.list_empty name
  let first : Services := ⟨left, rounds⟩
  let second : Services := ⟨right, rounds⟩
  have sameIncludes : SameIncludes alike first.include? second.include? := includes
  have visited := inStep_visitAll blind (bottomless echoStack) sameIncludes rfl document above
    fun name _ => .inr (bottomless name)
  simp only [execute]
  generalize visitAll ⟨left, rounds⟩ document ⟨memory, x⟩ = first at visited
  generalize visitAll ⟨right, rounds⟩ document ⟨memory, y⟩ = second at visited
  cases visited with
  | ok above => exact .ok above.exchange
  | error related => exact .error related

end Eval

theorem agree_run {alike : Exchange → Exchange → Prop} (blind : Blind alike) {left right : Option Include}
    (includes : SameIncludes alike left right) (document : Document) {x y : Exchange}
    (related : alike x y) :
    Agree alike alike (run { include? := left } document x) (run { include? := right } document y) := by
  have agree := Eval.agree_execute blind includes maxRounds document ∅ related
  simp only [run]
  generalize Eval.execute { include? := left } document { exchange := x } = first at agree
  generalize Eval.execute { include? := right } document { exchange := y } = second at agree
  cases agree with
  | ok related => exact .ok related
  | error related => exact .error related

mutual

def Node.includes : Node → Bool
  | .text _ => false
  | .echo es => es.contains (.function "include")
  | .loop _ body => anyIncludes body

def anyIncludes : List Node → Bool
  | [] => false
  | node :: rest => node.includes || anyIncludes rest

end

theorem Builtin.ofName?_eq_include {name : String}
    (found : ofName? name = some (.unary .includePath)) : name = "include" := by
  unfold ofName? at found
  split at found <;> first | rfl | simp at found

namespace Eval

theorem call_of_not_include (left right : Option Include) {f : Builtin}
    (other : f ≠ .unary .includePath) : call left f = call right f := by
  cases f with
  | binary f => rfl
  | unary f => cases f <;> first | rfl | contradiction

theorem element_of_not_include (left right : Option Include) {e : Element}
    (other : e ≠ .function "include") : element left e = element right e := by
  cases e with
  | literal | reference | operator => rfl
  | function name =>
    simp only [element]
    cases found : Builtin.ofName? name with
    | none => rfl
    | some f =>
      refine call_of_not_include left right fun isInclude => other ?_
      subst isInclude
      rw [Builtin.ofName?_eq_include found]

theorem echo_of_not_include (left right : Option Include) {es : List Element}
    (others : Element.function "include" ∉ es) : echo left es = echo right es := by
  have same : elements left es = elements right es := by
    induction es with
    | nil => rfl
    | cons e rest ih =>
      rw [List.mem_cons, not_or] at others
      rw [elements, elements, element_of_not_include left right (Ne.symm others.1), ih others.2]
  rw [echo, echo, same]

mutual

theorem visit_of_not_includes (left right : Option Include) (rounds : Nat) (node : Node)
    (closed : node.includes = false) : visit ⟨left, rounds⟩ node = visit ⟨right, rounds⟩ node := by
  cases node with
  | text content => rfl
  | echo es =>
    have others : Element.function "include" ∉ es := by simpa [Node.includes] using closed
    exact echo_of_not_include left right others
  | loop header body =>
    rw [visit, visit, visitAll_of_not_includes left right rounds body closed]

/-- A template without includes has no use for a way of including. -/
theorem visitAll_of_not_includes (left right : Option Include) (rounds : Nat) (nodes : List Node)
    (closed : anyIncludes nodes = false) :
    visitAll ⟨left, rounds⟩ nodes = visitAll ⟨right, rounds⟩ nodes := by
  cases nodes with
  | nil => rfl
  | cons node rest =>
    rw [anyIncludes, Bool.or_eq_false_iff] at closed
    rw [visitAll, visitAll, visit_of_not_includes left right rounds node closed.1,
      visitAll_of_not_includes left right rounds rest closed.2]

end

end Eval

end Template

end PageServer
