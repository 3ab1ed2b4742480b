import PageServer.Stacks

/-! # What can go wrong

Three families of failures: a request head that cannot be used, a template that cannot be run, and a
request that cannot be served. The last two contain one another, since a template can fail for what
happened to its response and a request for what happened in its template. Each failure has one
description, and each family a fixed way into the next.
-/

namespace PageServer

inductive HeadError
  /-- It breaks the grammar of a request. -/
  | malformed (reason : String)
  /-- It asks for something that is not offered. -/
  | unsupported (what : String)
  /-- It is longer than the limit. -/
  | tooLarge (limit : Nat)
  /-- The stream ended before the blank line. -/
  | truncated
  /-- Reading failed. -/
  | io (reason : String)
deriving DecidableEq, Repr

def HeadError.message : HeadError → String
  | .malformed reason => s!"malformed request: {reason}"
  | .unsupported what => s!"unsupported request: {what}"
  | .tooLarge limit => s!"request head exceeds {limit} bytes"
  | .truncated => "connection closed before the request head was complete"
  | .io reason => s!"I/O error: {reason}"

mutual

inductive ServerError
  /-- The client did not keep to the protocol. -/
  | protocol (reason : String)
  /-- Nothing is found at the path. -/
  | notFound (path : String)
  /-- The header block cannot change any more. -/
  | headerAlreadySent
  /-- A template failed. -/
  | script (error : ScriptError)
  /-- A handler failed. -/
  | handler (reason : String)
  /-- The configuration cannot be used. -/
  | config (reason : String)
  /-- The transport failed. -/
  | io (reason : String)

inductive ScriptError
  /-- A text is not a number, or numbers cannot be compared. -/
  | format (reason : String)
  /-- A computation has no result. -/
  | arithmetic (reason : String)
  /-- A stack had nothing left. -/
  | emptyStack (name : String)
  /-- There is no such operator, function or service. -/
  | unsupported (what : String)
  /-- The source breaks the grammar of templates. -/
  | parse (reason : String)
  /-- The response failed. -/
  | response (error : ServerError)

end

deriving instance DecidableEq, Repr for ServerError, ScriptError

mutual

def ServerError.message : ServerError → String
  | .protocol reason => s!"protocol error: {reason}"
  | .notFound path => s!"not found: {path}"
  | .headerAlreadySent => "response header already sent"
  | .script error => "script failed: " ++ ScriptError.message error
  | .handler reason => s!"handler failed: {reason}"
  | .config reason => s!"configuration error: {reason}"
  | .io reason => s!"I/O error: {reason}"

/-- The description of a failed template. A failure of the response is shown as it is. -/
def ScriptError.message : ScriptError → String
  | .format reason => s!"format error: {reason}"
  | .arithmetic reason => s!"arithmetic error: {reason}"
  | .emptyStack name => s!"empty stack: {name}"
  | .unsupported what => s!"unsupported operation: {what}"
  | .parse reason => s!"parse error: {reason}"
  | .response error => ServerError.message error

end

def ServerError.status : ServerError → Nat
  | .protocol _ => 400
  | .notFound _ => 404
  | _ => 500

/-- A refused head is a failure of the transport or of the protocol. -/
def ServerError.ofHead : HeadError → ServerError
  | .io reason => .io reason
  | refused => .protocol refused.message

/-- A template sees a failed request as a failed response, unless a template failed in it. -/
def ScriptError.ofServer : ServerError → ScriptError
  | .script error => error
  | other => .response other

def ScriptError.ofUnderflow (u : Underflow) : ScriptError :=
  .emptyStack u.name

/-- A template's failure survives the way through a request. -/
@[simp] theorem ScriptError.ofServer_script (error : ScriptError) :
    ScriptError.ofServer (.script error) = error := rfl

end PageServer
