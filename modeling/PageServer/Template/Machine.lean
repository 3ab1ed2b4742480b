import PageServer.Template.Value
import PageServer.Exchange.Run

/-! # The machine that runs templates

A machine is a response in the making and the stacks of a template: one for each loop variable, and
one for echoes. Its operations either succeed or halt with a failure of the template.
-/

namespace PageServer.Template

structure Machine where
  /-- The values of loop variables and of echoes. -/
  memory : Stacks Value := ∅
  exchange : Exchange

/-- The name of the stack on which echoes are evaluated. -/
def echoStack : String := "temp"

abbrev Eval := EStateM (Halt ScriptError) Machine

namespace Eval

def fail {α : Type} (error : ScriptError) : Eval α :=
  throw (.failed error)

def ofExcept {α : Type} : Except ScriptError α → Eval α
  | .ok a => pure a
  | .error e => fail e

/-- Work on the response. Its failure becomes one of the template. -/
def onExchange {α : Type} (run : Run α) : Eval α := fun m =>
  match run m.exchange with
  | .ok a exchange => .ok a { m with exchange }
  | .error halt exchange => .error (halt.map ScriptError.ofServer) { m with exchange }

def push (name : String) (value : Value) : Eval Unit :=
  modify fun m => { m with memory := m.memory.push name value }

def pop (name : String) : Eval Value := fun m =>
  match m.memory.pop name with
  | .ok (value, memory) => .ok value { m with memory }
  | .error u => .error (.failed (.ofUnderflow u)) m

def peek (name : String) : Eval Value := do
  let m ← get
  ofExcept ((m.memory.peek name).mapError .ofUnderflow)

def setTop (name : String) (value : Value) : Eval Unit := fun m =>
  match m.memory.setTop name value with
  | .ok memory => .ok () { m with memory }
  | .error u => .error (.failed (.ofUnderflow u)) m

/-- Takes all values off a stack, top first. -/
def drain (name : String) : Eval (List Value) := fun m =>
  let (values, memory) := m.memory.drain name
  .ok values { m with memory }

/-- Writes text as well as it can be written: a client that cannot be reached does not stop a
template. -/
def emit (text : String) : Eval Unit := fun m =>
  match Exchange.writeText text m.exchange with
  | .ok _ exchange => .ok () { m with exchange }
  | .error _ exchange => .ok () { m with exchange }

end Eval

end PageServer.Template
