import PageServer.Template.Evaluation

/-! # Actions on an exchange

An action is one thing that a handler can ask of an exchange: to write, to set a header field, to read
or store a text, or to run another path or a template. Each is answered by a reply, or fails and is
answered by its failure. Whatever a handler does is a sequence of actions, so a law about every action
is one about every handler.
-/

namespace PageServer

/-- One thing that a handler can ask of an exchange. -/
inductive Action
  /-- Writes body bytes. -/
  | write (bytes : Bytes)
  /-- Writes a text. -/
  | writeText (text : String)
  /-- Ends the response. -/
  | finish
  /-- Sets the status and its standard reason. -/
  | setStatus (status : Nat)
  /-- Sets the status and a reason of its own. -/
  | setStatusWithReason (status : Nat) (reason : String)
  | setMediaType (mediaType : String)
  | setEncoding (encoding : String)
  | setContentLength (contentLength : Option Nat)
  /-- Replaces all cookies. -/
  | setCookies (cookies : List Http.Cookie)
  /-- Adds a cookie behind the others. -/
  | addCookie (cookie : Http.Cookie)
  /-- A parameter of the request. -/
  | parameter (name : String)
  /-- All parameters of the request. -/
  | parameters
  /-- A text of the request. -/
  | temporary (name : String)
  | setTemporary (name value : String)
  /-- Drops a text of the request and replies with it. -/
  | dropTemporary (name : String)
  /-- An attribute of the session. -/
  | attribute (name : String)
  | setAttribute (name value : String)
  /-- Drops an attribute of the session and replies with it. -/
  | dropAttribute (name : String)
  /-- The host that owns the session. -/
  | sessionHost
  /-- The id of the session. -/
  | sessionId
  /-- The number of attributes of the session. -/
  | attributeCount
  /-- The number of includes that are running. -/
  | depth
  /-- One more include is running. -/
  | enterInclude
  /-- One include less is running. -/
  | leaveInclude
  /-- Runs another path inside this exchange. -/
  | includePath (path : String)
  /-- Runs a template. -/
  | runTemplate (source : String)

inductive Reply
  | nothing
  | text (text : String)
  | number (n : Nat)
  | entries (pairs : List (String × String))
deriving DecidableEq, Repr

namespace Reply

def ofOption : Option String → Reply
  | some found => .text found
  | none => .nothing

end Reply

namespace Action

/-- A step whose only answer is that it succeeded. -/
def quietly (step : Exchange.Step Unit) : Run Reply := do
  step.run
  pure .nothing

/-- A change that cannot fail, with a reply that is read off before it. -/
def readThen (reply : Exchange → Reply) (change : Exchange → Exchange) : Run Reply := fun x =>
  .ok (reply x) (change x)

/-- A reply that is read off the exchange. -/
def observe (reply : Exchange → Reply) : Run Reply :=
  readThen reply id

/-- Runs another path, if there is a way to do so. -/
def runInclude (include? : Option Include) (path : String) : Run Unit :=
  match include? with
  | some runPath => runPath path
  | none => throw (.failed (.handler "no dispatcher"))

def runSource (include? : Option Include) (source : String) : Run Unit :=
  match Template.parse source with
  | .ok document => Template.run { include? } document
  | .error e => throw (.failed (.script e))

def perform (include? : Option Include) : Action → Run Reply
  | .write bytes => quietly (Exchange.write bytes)
  | .writeText text => quietly (Exchange.writeText text)
  | .finish => quietly Exchange.finish
  | .setStatus status => quietly (Exchange.setStatus status)
  | .setStatusWithReason status reason => quietly (Exchange.setStatusWithReason status reason)
  | .setMediaType mediaType => quietly (Exchange.setMediaType mediaType)
  | .setEncoding encoding => quietly (Exchange.setEncoding encoding)
  | .setContentLength contentLength => quietly (Exchange.setContentLength contentLength)
  | .setCookies cookies => quietly (Exchange.setCookies cookies)
  | .addCookie cookie => quietly (Exchange.addCookie cookie)
  | .parameter name => observe fun x => .ofOption x.parameters[name]?
  | .parameters => observe fun x => .entries x.parameters.toList
  | .temporary name => observe fun x => .ofOption x.temporary[name]?
  | .setTemporary name value => readThen (fun _ => .nothing) (·.setTemporary name value)
  | .dropTemporary name => readThen (fun x => .ofOption x.temporary[name]?) (·.dropTemporary name)
  | .attribute name => observe fun x => .ofOption x.session.attributes[name]?
  | .setAttribute name value => readThen (fun _ => .nothing) (·.setAttribute name value)
  | .dropAttribute name =>
    readThen (fun x => .ofOption x.session.attributes[name]?) (·.dropAttribute name)
  | .sessionHost => observe fun x => .text x.session.host
  | .sessionId => observe fun x => .text x.session.id
  | .attributeCount => observe fun x => .number x.session.attributes.size
  | .depth => observe fun x => .number x.depth
  | .enterInclude => readThen (fun _ => .nothing) Exchange.enterInclude
  | .leaveInclude => readThen (fun _ => .nothing) Exchange.leaveInclude
  | .includePath path => do
    runInclude include? path
    pure .nothing
  | .runTemplate source => do
    runSource include? source
    pure .nothing

end Action

end PageServer
