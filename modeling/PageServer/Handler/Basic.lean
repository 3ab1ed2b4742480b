import PageServer.Handler.Action
import PageServer.Text.Json

/-! # Handlers

A handler answers requests by a program of its own. It is a tree: at each place it is done, has failed
or has crashed, or it asks for an action and goes on by the answer. Running it goes down one branch of
the tree and performs the actions there.

A handler can also be written as a list of steps, which are performed in order until one fails.
-/

namespace PageServer

/-- A program that answers a request. -/
inductive Handler
  | done
  | fail (error : ServerError)
  /-- Stops without an orderly end. -/
  | crash
  /-- Asks for an action and goes on by its reply or its failure. -/
  | perform (action : Action) (next : Except ServerError Reply → Handler)

namespace Handler

/-- Runs a handler. An action that halts for another reason than a failure ends it. -/
def run (include? : Option Include) : Handler → Run Unit
  | .done => pure ()
  | .fail error => throw (.failed error)
  | .crash => throw .crashed
  | .perform action next => fun x =>
    match action.perform include? x with
    | .ok reply x => (next (.ok reply)).run include? x
    | .error (.failed error) x => (next (.error error)).run include? x
    | .error halt x => .error halt x

/-- What a step of a handler does. -/
inductive Deed
  | perform (action : Action)
  | fail (error : ServerError)
  | crash

structure Step where
  deed : Deed
  /-- Whether the handler goes on after a failure of the step. -/
  mayFail : Bool := false
  /-- Whether the reply is written. -/
  echoes : Bool := false

/-- A reply as it is written: a text as it is, and anything else as JSON. -/
def renderReply : Reply → String
  | .nothing => "null"
  | .text text => text
  | .number n => toString n
  | .entries pairs =>
    Text.jsonArray (pairs.map fun pair =>
      Text.jsonArray [Text.jsonString pair.1, Text.jsonString pair.2])

/-- Goes on after a failure if the step allows it. -/
def Step.recover (step : Step) (rest : Handler) (error : ServerError) : Handler :=
  if step.mayFail then rest else .fail error

/-- A step in front of a handler. -/
def Step.andThen (step : Step) (rest : Handler) : Handler :=
  match step.deed with
  | .crash => .crash
  | .fail error => step.recover rest error
  | .perform action =>
    .perform action fun
      | .error error => step.recover rest error
      | .ok reply =>
        if step.echoes then
          .perform (.write (Text.encode (renderReply reply))) fun
            | .error error => step.recover rest error
            | .ok _ => rest
        else rest

def ofSteps : List Step → Handler
  | [] => .done
  | step :: rest => step.andThen (ofSteps rest)

/-- The handler that performs actions in order until one fails. -/
def ofActions (actions : List Action) : Handler :=
  ofSteps (actions.map fun action => { deed := .perform action })

end Handler

abbrev HandlerTable := Std.ExtTreeMap String Handler

namespace HandlerTable

/-- Runs the handler of an exact path. At most `levels` such runs are nested. -/
def runPath (table : HandlerTable) : Nat → Include
  | 0 => fun _ => throw .unfinished
  | levels + 1 => fun path =>
    match table[path]? with
    | some handler => handler.run (some (table.runPath levels))
    | none => throw (.failed (.notFound path))

end HandlerTable

end PageServer
