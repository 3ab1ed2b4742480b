import PageServer.Template.Machine

/-! # The functions of echoes

A function takes one or two values off the echo stack and puts its results there. The first argument
is the one that was pushed first.
-/

namespace PageServer.Template

inductive Unary
  /-- The sine of a number. -/
  | sin
  /-- A number with two places. -/
  | format
  /-- The argument, twice. -/
  | dup
  /-- Sets the media type of the response. -/
  | mime
  /-- Drops a text of the request. -/
  | dropTemporary
  /-- Drops an attribute of the session. -/
  | dropAttribute
  /-- Runs another path inside this one. -/
  | includePath
deriving DecidableEq, Repr

inductive Binary
  /-- The arguments in the opposite order. -/
  | swap
  /-- A parameter of the request, or else the second argument. -/
  | parameter
  /-- A text of the request, or else the second argument. -/
  | temporary
  /-- Stores a text for the rest of the request. -/
  | setTemporary
  /-- An attribute of the session, or else the second argument. -/
  | attribute
  /-- Stores an attribute in the session. -/
  | setAttribute
deriving DecidableEq, Repr

/-- The functions by the number of their arguments. -/
inductive Builtin
  | unary (f : Unary)
  | binary (f : Binary)
deriving DecidableEq, Repr

namespace Builtin

def ofName? : String → Option Builtin
  | "sin" => some (.unary .sin)
  | "format" => some (.unary .format)
  | "dup" => some (.unary .dup)
  | "swap" => some (.binary .swap)
  | "mime" => some (.unary .mime)
  | "param" => some (.binary .parameter)
  | "temp" => some (.binary .temporary)
  | "temp.set" => some (.binary .setTemporary)
  | "temp.del" => some (.unary .dropTemporary)
  | "session" => some (.binary .attribute)
  | "session.set" => some (.binary .setAttribute)
  | "session.del" => some (.unary .dropAttribute)
  | "include" => some (.unary .includePath)
  | _ => none

def arity : Builtin → Nat
  | .unary _ => 1
  | .binary _ => 2

end Builtin

namespace Eval

/-- Changes the response in a way that cannot fail. -/
def modifyExchange (change : Exchange → Exchange) : Eval Unit :=
  modify fun m => { m with exchange := change m.exchange }

/-- Puts the text that a name has in a scope on the echo stack, or else the default. -/
def pushFrom (scope : Exchange → Scope) (name default : Value) : Eval Unit := do
  let m ← get
  push echoStack (((scope m.exchange)[name.render]?.map Value.text).getD default)

def callUnary (include? : Option Include) : Unary → Value → Eval Unit
  | .sin, a => do
    let x ← ofExcept a.toFloat
    push echoStack (.float x.sin)
  | .format, a => do
    let x ← ofExcept a.toFloat
    push echoStack (.text (Binary64.fixed 2 x))
  | .dup, a => do
    push echoStack a
    push echoStack a
  | .mime, a => onExchange (Exchange.setMediaType a.render).run
  | .dropTemporary, a => modifyExchange (·.dropTemporary a.render)
  | .dropAttribute, a => modifyExchange (·.dropAttribute a.render)
  | .includePath, a =>
    match include? with
    | some runPath => onExchange (runPath a.render)
    | none => fail (.unsupported "include needs an internal dispatcher")

def callBinary : Binary → Value → Value → Eval Unit
  | .swap, a, b => do
    push echoStack b
    push echoStack a
  | .parameter, a, b => pushFrom (·.parameters) a b
  | .temporary, a, b => pushFrom (·.temporary) a b
  | .setTemporary, a, b => modifyExchange (·.setTemporary a.render b.render)
  | .attribute, a, b => pushFrom (·.session.attributes) a b
  | .setAttribute, a, b => modifyExchange (·.setAttribute a.render b.render)

/-- Takes the arguments of a function off the echo stack and applies it. -/
def call (include? : Option Include) : Builtin → Eval Unit
  | .unary f => do
    let a ← pop echoStack
    callUnary include? f a
  | .binary f => do
    let b ← pop echoStack
    let a ← pop echoStack
    callBinary f a b

end Eval

end PageServer.Template
