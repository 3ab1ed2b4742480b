import PageServer.Exchange.Sink
import PageServer.Http.Response
import PageServer.Session.Record

/-! # Exchanges

An exchange is the answer to one request while it is made. Its header fields can change until the
first write, which sends the header block; from then on every change of a field is refused. The
request's parameters, scratch texts and the client's session are at hand as three scopes.
-/

namespace PageServer

inductive Phase
  | pending
  | sent
deriving DecidableEq, Repr

/-- A response that is being made, and all that it is made from. -/
structure Exchange where
  sink : Sink
  head : Http.ResponseHead
  phase : Phase := .pending
  parameters : Scope := ∅
  temporary : Scope := ∅
  session : Session
  /-- The body bytes of all writes that succeeded. -/
  written : Nat := 0
  /-- The number of includes that are running. -/
  depth : Nat := 0

namespace Exchange

/-- A response that was not started, for a client without parameters and attributes. -/
def blank : Exchange :=
  { sink := {}, head := ⟨200, "OK", "text/html", "UTF-8", none, []⟩, session := ⟨"", "localhost", 0, ∅⟩ }

/-- A step on an exchange. A failure keeps what was done before it. -/
abbrev Step := EStateM ServerError Exchange

def onSink {α : Type} (step : EStateM ServerError Sink α) : Step α := fun x =>
  match step x.sink with
  | .ok a sink => .ok a { x with sink }
  | .error e sink => .error e { x with sink }

def headerSent (x : Exchange) : Bool :=
  x.phase == .sent

/-- Changes a header field, as long as the block was not sent. -/
def modifyHead (change : Http.ResponseHead → Http.ResponseHead) : Step Unit := fun x =>
  match x.phase with
  | .pending => .ok () { x with head := change x.head }
  | .sent => .error .headerAlreadySent x

/-- Sets the status and its standard reason. -/
def setStatus (status : Nat) : Step Unit :=
  modifyHead fun head => { head with status, reason := Http.reasonPhrase status }

def setStatusWithReason (status : Nat) (reason : String) : Step Unit :=
  modifyHead fun head => { head with status, reason }

def setMediaType (mediaType : String) : Step Unit :=
  modifyHead fun head => { head with mediaType }

def setEncoding (encoding : String) : Step Unit :=
  modifyHead fun head => { head with encoding }

/-- Declares the length of the body, or declares none. -/
def setContentLength (contentLength : Option Nat) : Step Unit :=
  modifyHead fun head => { head with contentLength }

def setCookies (cookies : List Http.Cookie) : Step Unit :=
  modifyHead fun head => { head with cookies }

def addCookie (cookie : Http.Cookie) : Step Unit :=
  modifyHead fun head => { head with cookies := head.cookies ++ [cookie] }

/-- Sends the header block, if it was not sent. It counts as sent even if the sink refuses it. -/
def sendHeader : Step Unit := fun x =>
  match x.phase with
  | .sent => .ok () x
  | .pending => onSink (Sink.write (Text.encode x.head.render)) { x with phase := .sent }

/-- Counts body bytes that were written. -/
def countWritten (count : Nat) : Step Unit :=
  modify fun x => { x with written := x.written + count }

/-- Writes body bytes, after the header block, and flushes. -/
def write (bytes : Bytes) : Step Unit := do
  sendHeader
  onSink (Sink.write bytes)
  onSink Sink.flush
  countWritten bytes.length

def writeText (text : String) : Step Unit :=
  write (Text.encode text)

/-- Ends the response. An empty body still has its header block. -/
def finish : Step Unit := do
  sendHeader
  onSink Sink.flush

/-- Stores a text for the rest of the request. -/
def setTemporary (x : Exchange) (name value : String) : Exchange :=
  { x with temporary := x.temporary.insert name value }

def dropTemporary (x : Exchange) (name : String) : Exchange :=
  { x with temporary := x.temporary.erase name }

/-- Stores an attribute in the session. -/
def setAttribute (x : Exchange) (name value : String) : Exchange :=
  { x with session := { x.session with attributes := x.session.attributes.insert name value } }

def dropAttribute (x : Exchange) (name : String) : Exchange :=
  { x with session := { x.session with attributes := x.session.attributes.erase name } }

def enterInclude (x : Exchange) : Exchange :=
  { x with depth := x.depth + 1 }

def leaveInclude (x : Exchange) : Exchange :=
  { x with depth := x.depth - 1 }

end Exchange

end PageServer
