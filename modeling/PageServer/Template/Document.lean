/-! # Templates as trees

A template is a list of texts, echoes and loops. An echo is a postfix expression, and a loop counts a
variable from one bound to another.
-/

namespace PageServer.Template

/-- A bound of a loop: a literal or the current value of a loop variable. -/
inductive Operand
  | literal (text : String)
  | reference (name : String)
deriving DecidableEq, Repr

inductive Element
  | literal (text : String)
  | reference (name : String)
  | operator (symbol : String)
  | function (name : String)
deriving DecidableEq, Repr

/-- What a loop counts: its variable, its bounds, and its step, which is one if it is left out. -/
structure LoopHeader where
  counter : String
  start : Operand
  stop : Operand
  step : Option Operand
deriving DecidableEq, Repr

inductive Node
  | text (content : String)
  | echo (elements : List Element)
  | loop (header : LoopHeader) (body : List Node)
deriving Repr

abbrev Document := List Node

end PageServer.Template
