import PageServer.Template.Builtin
import PageServer.Template.Parser

/-! # Running templates

Texts are written as they stand, echoes are evaluated on the echo stack and write what is left there,
and a loop runs its body for each value of its variable. Variables are stacks, so that an inner loop
over the same name hides the outer one until it ends.

A loop makes at most `rounds` rounds. `maxRounds` is more than there are 64-bit integers, so it bounds
no loop whose variable grows from round to round through integers.
-/

namespace PageServer.Template

/-- More rounds than there are integers of 64 bits. -/
def maxRounds : Nat := Nat.pow 2 65

/-- What a template can rely on. -/
structure Services where
  /-- Runs another path, if there is a way to do so. -/
  include? : Option Include := none
  /-- The largest number of rounds of a loop. -/
  rounds : Nat := maxRounds

namespace Eval

/-- Repeats a round until it says that it was the last one. -/
def iterate (round : Eval Bool) : Nat → Eval Unit
  | 0 => throw .unfinished
  | n + 1 => do
    if ← round then iterate round n

def operand : Operand → Eval Value
  | .literal text => pure (.text text)
  | .reference name => peek name

/-- The step of a loop, which is one if it is left out. -/
def loopStep : Option Operand → Eval Value
  | some step => operand step
  | none => pure (.int 1)

/-- A loop needs a step above zero. -/
def requirePositive (counter : String) (step : Value) : Eval Unit := do
  let order ← ofExcept (step.numericCompare (.int 0))
  if order = .gt then pure ()
  else fail (.arithmetic s!"loop over '{counter}' needs a positive step, got {step.render}")

/-- One round of a loop: if the variable is not past the end, the body is run and the step added. -/
def loopRound (counter : String) (stop step : Value) (body : Eval Unit) : Eval Bool := do
  let current ← peek counter
  let order ← ofExcept (current.numericCompare stop)
  if order = .gt then pure false
  else
    body
    let current ← peek counter
    let next ← ofExcept (current.combine .add step)
    setTop counter next
    pure true

def runLoop (rounds : Nat) (header : LoopHeader) (body : Eval Unit) : Eval Unit := do
  let start ← operand header.start
  let stop ← operand header.stop
  let step ← loopStep header.step
  requirePositive header.counter step
  push header.counter start
  iterate (loopRound header.counter stop step body) rounds
  discard (pop header.counter)

def element (include? : Option Include) : Element → Eval Unit
  | .literal text => push echoStack (.text text)
  | .reference name => do
    let value ← peek name
    push echoStack value
  | .operator symbol =>
    match BinaryOp.ofSymbol? symbol with
    | none => fail (.unsupported s!"operator '{symbol}'")
    | some op => do
      let right ← pop echoStack
      let left ← pop echoStack
      let result ← ofExcept (left.combine op right)
      push echoStack result
  | .function name =>
    match Builtin.ofName? name with
    | none => fail (.unsupported s!"function '{name}'")
    | some f => call include? f

def elements (include? : Option Include) : List Element → Eval Unit
  | [] => pure ()
  | e :: rest => do
    element include? e
    elements include? rest

/-- Evaluates an echo and writes the values that are left, the last one first. Nothing is written if
their text is empty. -/
def echo (include? : Option Include) (es : List Element) : Eval Unit := do
  elements include? es
  let values ← drain echoStack
  let output := String.join (values.map Value.render)
  if output = "" then pure () else emit output

mutual

/-- Runs a part of a template. -/
def visit (services : Services) : Node → Eval Unit
  | .text content => emit content
  | .echo es => echo services.include? es
  | .loop header body => runLoop services.rounds header (visitAll services body)

def visitAll (services : Services) : List Node → Eval Unit
  | [] => pure ()
  | node :: rest => do
    visit services node
    visitAll services rest

end

/-- Runs a template. Its stacks are gone afterwards, whether it succeeded or not. -/
def execute (services : Services) (document : Document) : Eval Unit := fun m =>
  match visitAll services document m with
  | .ok _ m => .ok () { m with memory := ∅ }
  | .error halt m => .error halt { m with memory := ∅ }

end Eval

/-- Runs a template on a machine of its own. -/
def run (services : Services) (document : Document) : Run Unit := fun x =>
  match Eval.execute services document { exchange := x } with
  | .ok _ m => .ok () m.exchange
  | .error halt m => .error (halt.map .script) m.exchange

end PageServer.Template
