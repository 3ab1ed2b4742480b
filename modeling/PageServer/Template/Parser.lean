import PageServer.Template.Lexer

/-! # Reading templates

The pieces of a source are nested: a loop holds the nodes between its header and the end that closes
it. The first piece that cannot be placed is the failure of the whole.
-/

namespace PageServer.Template

/-- A loop whose end has not come yet, and the nodes before it in its list, the last one first. -/
structure OpenLoop where
  header : LoopHeader
  before : List Node

/-- Nests the pieces of a source. `done` holds the nodes of the innermost open loop, the last one
first, and `loops` the loops around, the innermost one first. -/
def nest (done : List Node) (loops : List OpenLoop) :
    List (Except ScriptError Piece) → Except ScriptError Document
  | [] =>
    match loops with
    | [] => .ok done.reverse
    | l :: _ => .error (.parse s!"loop over '{l.header.counter}' is missing its 'end'")
  | .error e :: _ => .error e
  | .ok (.text content) :: rest => nest (.text content :: done) loops rest
  | .ok (.echo elements) :: rest => nest (.echo elements :: done) loops rest
  | .ok (.opening header) :: rest => nest [] (⟨header, done⟩ :: loops) rest
  | .ok .closing :: rest =>
    match loops with
    | [] => .error (.parse "'end' without matching 'for'")
    | l :: outer => nest (.loop l.header done.reverse :: l.before) outer rest

def parse (source : String) : Except ScriptError Document :=
  nest [] [] (pieces source.toList)

/-- The template that writes its source as it is. -/
def verbatim (source : String) : Except ScriptError Document :=
  .ok [.text source]

end PageServer.Template
