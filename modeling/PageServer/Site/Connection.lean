import PageServer.Http.Request
import PageServer.Http.Stream
import PageServer.Session.Registry
import PageServer.Site.Dispatch

/-! # Connections

A connection carries one request. Its head is read, the session of the client is resolved, and the
path is dispatched. A failure before the header block was sent is reported to the client as a short
text; a later one leaves the response as it is.
-/

namespace PageServer

structure Served where
  result : Except (Halt ServerError) Unit
  sink : Sink
  sessions : SessionRegistry

namespace Site

def readRequest (site : Site) (stream : Http.Stream) : Except HeadError Http.RequestHead := do
  let bytes ← Http.readHead site.settings.maxHeaderBytes stream
  Http.RequestHead.parse bytes

/-- The sink after a request whose head cannot be used. Without a head that was read to its end or to
a fault, there is nothing to reply to. -/
def refuse (sink : Sink) : HeadError → Sink
  | .io _ => sink
  | _ =>
    match (do Sink.write (Text.encode Http.badRequest); Sink.flush) sink with
    | .ok _ sink => sink
    | .error _ sink => sink

def report (error : ServerError) : Exchange.Step Unit := do
  Exchange.setStatus error.status
  Exchange.setMediaType "text/plain"
  Exchange.setContentLength none
  let x ← get
  Exchange.writeText s!"{error.status} {x.head.reason}\n"

/-- The exchange after a failure. What goes wrong in reporting it is not looked at. -/
def afterFailure (error : ServerError) (x : Exchange) : Exchange :=
  if x.headerSent then x
  else
    match report error x with
    | .ok _ x => x
    | .error _ x => x

/-- Answers a request for a path, to the end of the response. -/
def answer (site : Site) (path : String) : Run Unit := fun x =>
  match site.dispatch path true x with
  | .ok _ x => Exchange.finish.run x
  | .error (.failed error) x => .error (.failed error) (afterFailure error x)
  | .error halt x => .error halt x

/-- The head of a response before anything is known about it. -/
def plainHead (site : Site) : Http.ResponseHead :=
  { mediaType := "text/html", encoding := site.settings.encoding }

/-- The cookie that gives a session to a client. -/
def sessionCookie (s : Session) : Http.Cookie :=
  { name := Session.cookieName, value := s.id, domain := some s.host, path := some "/",
    httpOnly := true }

/-- The exchange for a request, with the cookie of its session if that is new. -/
def exchange (site : Site) (head : Http.RequestHead) (s : Session) (isNew : Bool) (sink : Sink) :
    Exchange :=
  { sink
    head := { site.plainHead with cookies := if isNew then [sessionCookie s] else [] }
    parameters := head.parameters
    session := s }

/-- Serves a request whose head was read. The attributes of the session are kept, however it ends. -/
def serveRequest (site : Site) (sessions : SessionRegistry) (now : Nat) (head : Http.RequestHead)
    (sink : Sink) : Served :=
  let (number, isNew, sessions) :=
    sessions.resolve (head.cookie? Session.cookieName) (head.host site.settings.defaultDomain) now
  match sessions.session? number with
  | none => { result := .error .unfinished, sink, sessions }
  | some s =>
    let keep (x : Exchange) :=
      sessions.modify number fun s => { s with attributes := x.session.attributes }
    match site.answer head.path (site.exchange head s isNew sink) with
    | .ok _ x => { result := .ok (), sink := x.sink, sessions := keep x }
    | .error halt x => { result := .error halt, sink := x.sink, sessions := keep x }

/-- Serves the request on a stream. -/
def serve (site : Site) (sessions : SessionRegistry) (now : Nat) (stream : Http.Stream)
    (sink : Sink) : Served :=
  match site.readRequest stream with
  | .ok head => site.serveRequest sessions now head sink
  | .error e => { result := .error (.failed (.ofHead e)), sink := refuse sink e, sessions }

end Site

end PageServer
