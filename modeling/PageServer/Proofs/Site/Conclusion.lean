import PageServer.Site.Connection
import PageServer.Proofs.Session.Resolve
import PageServer.Proofs.Site.Performing

/-! # How connections end

A connection whose head cannot be read is left alone, and one whose head is refused gets the fixed reply,
whatever the site is. Every other gets one header block (`Ending`): the one that the work on the exchange
came to, or that of the failure page, which replaces all that the work had set but the encoding and the
cookies. The work may be done by any handlers, templates and files: all that is used of it is that it
performs actions of the exchange.
-/

namespace PageServer

namespace Http.RequestHead

theorem readRequestLine_ne_io (line : List Char) (reason : String) :
    readRequestLine line ≠ .error (.io reason) := by
  unfold readRequestLine
  split
  · dsimp only
    split
    · exact nofun
    · split
      · exact nofun
      · split <;> exact nofun
  · exact nofun

theorem readHeaders_ne_io (reason : String) (lines : List (List Char)) (done : List (String × String)) :
    readHeaders done lines ≠ .error (.io reason) := by
  induction lines generalizing done with
  | nil => exact nofun
  | cons line rest ih =>
    unfold readHeaders
    split
    · exact nofun
    · split
      · cases done with
        | nil => exact nofun
        | cons header earlier => exact ih _
      · split
        · exact nofun
        · exact ih _

/-- No head is refused as one that could not be read. -/
theorem parse_ne_io (bytes : Bytes) (reason : String) : parse bytes ≠ .error (.io reason) := by
  unfold parse
  split
  · exact nofun
  · next text _ =>
    cases lines text.toList with
    | nil => exact nofun
    | cons line rest =>
      simp only [ofLines, bind, Except.bind]
      cases first : readRequestLine line with
      | error e =>
        intro failed
        cases failed
        exact readRequestLine_ne_io line reason first
      | ok parts =>
        cases headers : readHeaders [] rest with
        | error e =>
          intro failed
          cases failed
          exact readHeaders_ne_io reason rest [] headers
        | ok found => exact nofun

end Http.RequestHead

namespace Site

/-- The whole response that reports a failure: the status of the failure with its standard reason, in the
head and as the body. The head is the one that the response had when the failure came. -/
def failurePage (error : ServerError) (head : Http.ResponseHead) : String :=
  let status := s!"{error.status} {Http.reasonPhrase error.status}"
  let lines := ["HTTP/1.1 " ++ status, "Content-Type: text/plain;charset=" ++ head.encoding] ++
    head.cookies.map fun c => "Set-Cookie: " ++ c.render
  String.join (lines.map (· ++ "\r\n")) ++ "\r\n" ++ status ++ "\n"

def failureHead (error : ServerError) (head : Http.ResponseHead) : Http.ResponseHead :=
  { head with
    status := error.status, reason := Http.reasonPhrase error.status, mediaType := "text/plain"
    contentLength := none }

theorem render_failureHead (error : ServerError) (head : Http.ResponseHead) :
    (failureHead error head).render ++ s!"{error.status} {Http.reasonPhrase error.status}\n" =
      failurePage error head := by
  have text : "text/".toList.isPrefixOf "text/plain".toList = true := by decide
  have mark : "Content-Type: " ++ ("text/plain" ++ (";charset=" ++ head.encoding)) =
      "Content-Type: text/plain;charset=" ++ head.encoding := by
    rw [← String.append_assoc, ← String.append_assoc]
    rfl
  simp only [failureHead, failurePage, Http.ResponseHead.render, Http.ResponseHead.lines,
    Http.ResponseHead.contentType, text, if_true, Option.map_none, Option.toList_none, List.append_nil]
  simp only [String.append_assoc, mark]
  rfl

/-- To report a failure is to replace the head and to write a line. -/
theorem report_of_pending (error : ServerError) {x : Exchange} (pending : x.phase = .pending) :
    report error x =
      Exchange.writeText s!"{error.status} {Http.reasonPhrase error.status}\n"
        { x with head := failureHead error x.head } := by
  obtain ⟨sink, head, _⟩ := x
  cases pending
  rfl

/-- A response that was not started becomes the failure page, and the page is sent. -/
theorem exists_afterFailure_of_pending (error : ServerError) {x : Exchange} (reliable : x.sink.Reliable)
    (pending : x.phase = .pending) :
    ∃ sink written, afterFailure error x =
        { x with head := failureHead error x.head, phase := .sent, sink, written } ∧
      sink.Reliable ∧ sink.bytes = x.sink.bytes ++ (Text.encode (failureHead error x.head).render ++
        Text.encode s!"{error.status} {Http.reasonPhrase error.status}\n") := by
  have unsent : x.headerSent = false := by rw [Exchange.headerSent, pending]; rfl
  let y : Exchange := { x with head := failureHead error x.head }
  have still : y.sink.Reliable := reliable
  obtain ⟨sink, wrote, stays, stored⟩ := Exchange.write_of_reliable still
    (Text.encode s!"{error.status} {Http.reasonPhrase error.status}\n")
  have owed : y.owed = Text.encode y.head.render := by simp only [Exchange.owed, y, pending]
  rw [owed] at stored
  refine ⟨sink, x.written + (Text.encode s!"{error.status} {Http.reasonPhrase error.status}\n").length,
    ?_, stays, stored⟩
  simp only [afterFailure, unsent, Bool.false_eq_true, ↓reduceIte, report_of_pending error pending,
    Exchange.writeText]
  rw [wrote]

theorem afterFailure_of_pending (error : ServerError) {x : Exchange} (reliable : x.sink.Reliable)
    (pending : x.phase = .pending) :
    (afterFailure error x).phase = .sent ∧ (afterFailure error x).sink.bytes =
      x.sink.bytes ++ Text.encode (failurePage error x.head) := by
  obtain ⟨sink, written, same, -, stored⟩ := exists_afterFailure_of_pending error reliable pending
  rw [same]
  refine ⟨rfl, ?_⟩
  rw [stored, ← Text.encode_append, render_failureHead]

variable {allowed : Action → Prop} {crash : Prop}

theorem performs_report {site : Site} (permits : site.Permits allowed)
    (error : ServerError) : Performs id allowed crash (report error).run := by
  rw [report, run_bind]
  refine (performs_step (.setStatus error.status) rfl (permits.status _) rfl).bind fun _ => ?_
  rw [run_bind]
  refine (performs_step (.setMediaType "text/plain") rfl permits.text rfl).bind fun _ => ?_
  rw [run_bind]
  refine (performs_step (.setContentLength none) rfl (permits.length none) rfl).bind fun _ => ?_
  rw [run_bind]
  refine Performs.bind (fun x => .refl x) fun x => ?_
  exact performs_step (.writeText s!"{error.status} {x.head.reason}\n") rfl (permits.quiet _ rfl nofun) rfl

theorem reaches_afterFailure {site : Site} (permits : site.Permits allowed)
    (error : ServerError) (x : Exchange) : x.Reaches allowed (afterFailure error x) := by
  rw [afterFailure]
  split
  · exact .refl x
  · have reported : Leaves id allowed True x ((report error).run x) := performs_report permits error x
    rw [Exchange.Step.run] at reported
    cases ran : report error x with
    | ok _ y =>
      rw [ran] at reported
      exact reported
    | error e y =>
      rw [ran] at reported
      exact reported.1

/-- To answer a request is to perform what its path leads to, and to end the response. -/
theorem performs_answer {site : Site} (permits : site.Permits allowed)
    (within : site.Within allowed crash) (path : String) :
    Performs id allowed crash (site.answer path) := by
  intro x
  have performs := performs_dispatch permits within path true
  simp only [answer]
  cases ran : site.dispatch path true x with
  | ok _ y =>
    have ends : Performs id allowed crash Exchange.finish.run :=
      performs_step .finish rfl (permits.quiet _ rfl nofun) rfl
    exact (ends y).of_reaches (performs.of_ok ran)
  | error halt y =>
    obtain ⟨reached, may⟩ := performs.of_error ran
    cases halt with
    | failed e => exact ⟨Exchange.Reaches.trans reached (reaches_afterFailure permits e y), nofun⟩
    | crashed | unfinished => exact ⟨reached, may⟩

/-- No handler of the site crashes, whatever it is answered. -/
def Calm (site : Site) : Prop :=
  site.Within (fun _ => True) False

/-- What a request comes to, by the result of the work on the exchange `x` that was made for it: what is
returned, and the exchange at the end. -/
inductive Ending (site : Site) (x : Exchange) :
    EStateM.Result (Halt ServerError) Exchange Unit → Except (Halt ServerError) Unit → Exchange → Prop
  /-- The work succeeded, and its response was brought to an end. -/
  | finished {y z : Exchange} (head : z.head = y.head) (response : x.Responded z) :
      Ending site x (.ok () y) (.ok ()) z
  /-- The work failed before the header block was sent. The whole response is the failure page. -/
  | reported {e : ServerError} {y z : Exchange} (pending : y.phase = .pending)
      (response : x.Responded z)
      (page : z.sink.bytes = x.sink.bytes ++ Text.encode (failurePage e y.head)) :
      Ending site x (.error (.failed e) y) (.error (.failed e)) z
  /-- The work failed after the header block was sent. Nothing is added to what was written before. -/
  | cut {e : ServerError} {y : Exchange} (response : x.Responded y) :
      Ending site x (.error (.failed e) y) (.error (.failed e)) y
  /-- A handler crashed. -/
  | crashed {y : Exchange} (may : ¬ site.Calm) : Ending site x (.error .crashed y) (.error .crashed) y
  /-- The work does not end. So far, it has sent at most one header block. -/
  | unfinished {y : Exchange} (partly : y.sink = x.sink ∨ x.Responded y) :
      Ending site x (.error .unfinished y) (.error .unfinished) y

/-- Whether or not it can crash, a site performs actions only. -/
theorem within_calm (site : Site) : site.Within (fun _ => True) (¬ site.Calm) := by
  by_cases calm : site.Calm
  · have no : (¬ site.Calm) = False := by simp only [calm, not_true]
    rw [no]
    exact calm
  · have yes : (¬ site.Calm) = True := by simp only [calm, not_false_eq_true]
    rw [yes]
    exact fun _ handler _ => handler.within_true

theorem ending_answer (site : Site) (path : String) {x : Exchange} (reliable : x.sink.Reliable)
    (pending : x.phase = .pending) :
    ∃ result z, Ending site x (site.dispatch path true x) result z ∧
      (site.answer path x = match result with
        | .ok _ => .ok () z
        | .error halt => .error halt z) := by
  have permits : site.Permits fun _ => True := .of_isPlain (fun _ _ => trivial) site
  have performs := performs_answer permits site.within_calm path
  have dispatches := performs_dispatch permits site.within_calm path true
  have responds {z : Exchange} (reached : x.Reaches (fun _ => True) z) (sent : z.phase = .sent) :
      x.Responded z :=
    (reached.responded reliable pending).resolve_left fun silent => nomatch sent.symm.trans silent.1
  cases ran : site.dispatch path true x with
  | ok _ y =>
    have reached : x.Reaches (fun _ => True) y := dispatches.of_ok ran
    obtain ⟨sink, finished, -, -⟩ := Exchange.finish_of_reliable (reached.reliable reliable)
    let z : Exchange := { y with phase := .sent, sink }
    have answered : site.answer path x = .ok () z := by
      simp only [answer, ran, Exchange.Step.run, finished, z]
    have response : x.Responded z := responds (performs.of_ok answered) rfl
    exact ⟨.ok (), z, .finished rfl response, answered⟩
  | error halt y =>
    obtain ⟨reached, may⟩ : x.Reaches (fun _ => True) y ∧ _ := dispatches.of_error ran
    have partly := reached.responded reliable pending
    cases halt with
    | failed e =>
      have answered : site.answer path x = .error (.failed e) (afterFailure e y) := by
        simp only [answer, ran]
      rcases partly with ⟨still, same⟩ | response
      · obtain ⟨sent, page⟩ := afterFailure_of_pending e (reached.reliable reliable) still
        rw [same] at page
        exact ⟨.error (.failed e), _, .reported still (responds (performs.of_error answered).1 sent) page,
          answered⟩
      · have sent : y.headerSent = true := by rw [Exchange.headerSent, response.1]; rfl
        have left : afterFailure e y = y := by rw [afterFailure, if_pos sent]
        rw [left] at answered
        exact ⟨.error (.failed e), y, .cut response, answered⟩
    | crashed => exact ⟨.error .crashed, y, .crashed (may rfl), by simp only [answer, ran]⟩
    | unfinished =>
      exact ⟨.error .unfinished, y, .unfinished (partly.imp_left And.right), by simp only [answer, ran]⟩

/-- What becomes of a connection. -/
structure Conclusion (site : Site) (sessions : SessionRegistry) (now : Nat) (stream : Http.Stream)
    (sink : Sink) : Prop where
  /-- If the head cannot be read, nothing is written, and the sessions stay as they are. -/
  unread : ∀ reason, Http.readHead site.settings.maxHeaderBytes stream = .error (.io reason) →
    site.serve sessions now stream sink = ⟨.error (.failed (.io reason)), sink, sessions⟩
  /-- If it is refused for any other reason, the fixed reply is written, and the sessions stay as they are.
  Nothing of the site matters for it but the limit of heads. -/
  refused : ∀ e, site.readRequest stream = .error e →
    (∀ reason, Http.readHead site.settings.maxHeaderBytes stream ≠ .error (.io reason)) →
    ∃ next, next.bytes = sink.bytes ++ Text.encode Http.badRequest ∧
      ∀ other : Site, other.settings.maxHeaderBytes = site.settings.maxHeaderBytes →
        other.serve sessions now stream sink =
          ⟨.error (.failed (.protocol e.message)), next, sessions⟩
  /-- Otherwise the path is dispatched, with the session of the client, and one header block is sent. -/
  served : ∀ head, site.readRequest stream = .ok head → ∃ number isNew next s result z,
    sessions.resolve (head.cookie? Session.cookieName) (head.host site.settings.defaultDomain) now =
      (number, isNew, next) ∧
    next.session? number = some s ∧
    Ending site (site.exchange head s isNew sink)
      (site.dispatch head.path true (site.exchange head s isNew sink)) result z ∧
    site.serve sessions now stream sink = {
      result, sink := z.sink
      sessions := next.modify number fun s => { s with attributes := z.session.attributes } }

theorem refuse_of_reliable {sink : Sink} (reliable : sink.Reliable) {e : HeadError}
    (other : ∀ reason, e ≠ .io reason) :
    (refuse sink e).bytes = sink.bytes ++ Text.encode Http.badRequest := by
  obtain ⟨first, wrote, still, stored⟩ := Sink.write_of_reliable reliable (Text.encode Http.badRequest)
  obtain ⟨last, flushed, -, same⟩ := Sink.flush_of_reliable still
  have replied : (refuse sink e) = last := by
    cases e with
    | io reason => exact absurd rfl (other reason)
    | _ => simp only [refuse, bind, EStateM.bind, wrote, flushed]
  rw [replied, same, stored]

/-- Every connection ends so, on a sink that never fails. -/
theorem conclusion_serve (site : Site) (sessions : SessionRegistry) (now : Nat) (stream : Http.Stream)
    (sink : Sink) (reliable : sink.Reliable) : Conclusion site sessions now stream sink := by
  constructor
  case unread =>
    intro reason unreadable
    have failed : site.readRequest stream = .error (.io reason) := by
      rw [readRequest, unreadable]
      rfl
    rw [serve, failed]
    rfl
  case refused =>
    intro e failed readable
    have other : ∀ reason, e ≠ .io reason := by
      rintro reason rfl
      simp only [readRequest, bind, Except.bind] at failed
      split at failed
      · next unreadable =>
        cases failed
        exact readable reason unreadable
      · exact Http.RequestHead.parse_ne_io _ reason failed
    refine ⟨refuse sink e, refuse_of_reliable reliable other, fun site' sameLimit => ?_⟩
    have alike : site'.readRequest stream = .error e := by rw [← failed, readRequest, readRequest, sameLimit]
    have protocol : ServerError.ofHead e = .protocol e.message := by
      cases e with
      | io reason => exact absurd rfl (other reason)
      | _ => rfl
    simp only [serve, alike, protocol]
  case served =>
    intro head accepted
    obtain ⟨s, session⟩ := sessions.session?_resolve (head.cookie? Session.cookieName)
      (head.host site.settings.defaultDomain) now
    generalize resolved : sessions.resolve (head.cookie? Session.cookieName)
      (head.host site.settings.defaultDomain) now = found at session
    obtain ⟨number, isNew, next⟩ := found
    have clean : (site.exchange head s isNew sink).phase = .pending := rfl
    have still : (site.exchange head s isNew sink).sink.Reliable := reliable
    obtain ⟨result, z, ending, answered⟩ := site.ending_answer head.path still clean
    refine ⟨number, isNew, next, s, result, z, rfl, session, ending, ?_⟩
    simp only [serve, accepted, serveRequest, resolved, session, answered]
    cases result <;> rfl

/-- A handler that has set everything and then fails, in two portions of a head. -/
theorem conclusion_serve_overridden :
    let handler : Handler := .ofSteps
      [⟨.perform (.setStatusWithReason 201 "Made"), false, false⟩,
        ⟨.perform (.setContentLength (some 5)), false, false⟩, ⟨.fail (.notFound "/x"), false, false⟩]
    let site : Site := ({} : Site).route "/" handler
    let stream : Http.Stream :=
      [.bytes (Text.encode "GET / HT"), .bytes (Text.encode "TP/1.1\r\n\r\n")]
    Sink.Reliable {} ∧ Conclusion site { timeout := 10 } 0 stream {} :=
  ⟨⟨rfl, rfl⟩, conclusion_serve _ _ _ _ _ ⟨rfl, rfl⟩⟩

end Site

end PageServer
