import PageServer.Proofs.Http.ReceivedResponse
import PageServer.Proofs.Site.SessionCookie

/-! # The lengths that responses declare

Only a file that a client asked for sets the length of a response, and it is sent whole right behind. Everything
else leaves the head without a length, as long as no handler sets one: handlers, templates, included files and
the failure page. So at each point of the work an exchange has sent nothing and declares nothing, or it has sent
its header block and a body, of which it declares the length or nothing (`Exchange.Truthful`).

What a client reads in the block is another matter, since the texts of the head are written as they are. If
none of them holds a line feed, the lines are those of the head.
-/

namespace PageServer

/-- Whether the action declares no length. -/
def Action.Undeclared (action : Action) : Prop :=
  ∀ n, action ≠ .setContentLength (some n)

theorem Action.contentLength_after {action : Action} (own : action.isOwn) (undeclared : action.Undeclared)
    {x : Exchange} (none : x.head.contentLength = none) :
    (action.after Option.none x).head.contentLength = Option.none := by
  rcases Action.head_after_cases own x with same | ⟨setter, pending⟩
  · rwa [same]
  · obtain ⟨sink, head, _⟩ := x
    cases pending
    cases action with
    | setContentLength length =>
      cases length with
      | none => rfl
      | some n => exact absurd rfl (undeclared n)
    | setStatus | setStatusWithReason | setMediaType | setEncoding | setCookies | addCookie => exact none
    | _ => contradiction

namespace Exchange

variable {x y : Exchange}

theorem Reaches.contentLength (reaches : x.Reaches Action.Undeclared y)
    (none : x.head.contentLength = none) : y.head.contentLength = Option.none :=
  reaches.induction (motive := fun z => z.head.contentLength = Option.none) none
    fun _ _ own undeclared same => Action.contentLength_after own undeclared same

/-- What the second exchange has sent since the first: nothing, and it declares no length; or its header block
and a body, of which it declares the length or none. -/
inductive Truthful (x y : Exchange) : Prop
  | pending (still : y.phase = .pending) (same : y.sink = x.sink) (none : y.head.contentLength = none)
  | sent (done : y.phase = .sent) (reliable : y.sink.Reliable) {body : Bytes}
      (stored : y.sink.bytes = x.sink.bytes ++ (Text.encode y.head.render ++ body))
      (declared : ∀ n, y.head.contentLength = some n → n = body.length)

theorem truthful_of_reaches (reaches : x.Reaches Action.Undeclared y) (reliable : x.sink.Reliable)
    (pending : x.phase = .pending) (none : x.head.contentLength = none) : x.Truthful y := by
  have undeclared := reaches.contentLength none
  rcases reaches.responded reliable pending with ⟨still, same⟩ | ⟨done, actions, -, -, stored⟩
  · exact .pending still same undeclared
  · refine .sent done (reaches.reliable reliable) stored fun n declared => ?_
    rw [undeclared] at declared
    contradiction

/-- To end a response adds nothing to a body. -/
theorem Truthful.finish (truthful : x.Truthful y) (reliable : x.sink.Reliable) :
    ∃ z, Exchange.finish y = .ok () z ∧ x.Truthful z := by
  cases truthful with
  | pending still same none =>
    obtain ⟨sink, finished, reliableLast, stored⟩ := finish_of_reliable (same ▸ reliable : y.sink.Reliable)
    have owed : y.owed = Text.encode y.head.render := by simp only [Exchange.owed, still]
    have whole : sink.bytes = x.sink.bytes ++ (Text.encode y.head.render ++ []) := by
      rw [List.append_nil, stored, owed, same]
    refine ⟨_, finished, .sent rfl reliableLast whole fun n declared => ?_⟩
    rw [none] at declared
    contradiction
  | sent done reliableBefore stored declared =>
    obtain ⟨sink, finished, reliableLast, storedLast⟩ := finish_of_reliable reliableBefore
    have owed : y.owed = [] := by simp only [Exchange.owed, done]
    refine ⟨_, finished, .sent rfl reliableLast ?_ declared⟩
    rw [storedLast, owed, List.append_nil, stored]

/-- To report a failure adds nothing to a response that was started, and the failure page declares no length. -/
theorem Truthful.afterFailure (truthful : x.Truthful y) (reliable : x.sink.Reliable) (error : ServerError) :
    x.Truthful (Site.afterFailure error y) := by
  cases truthful with
  | pending still same none =>
    obtain ⟨sink, written, page, reliableLast, stored⟩ :=
      Site.exists_afterFailure_of_pending error (same ▸ reliable : y.sink.Reliable) still
    rw [page]
    refine .sent rfl reliableLast (same ▸ stored) fun n declared => ?_
    contradiction
  | sent done reliableBefore stored declared =>
    have sent : y.headerSent = true := by rw [Exchange.headerSent, done]; rfl
    rw [Site.afterFailure, if_pos sent]
    exact .sent done reliableBefore stored declared

/-- However work has ended that began on the first exchange, it left a truthful one. -/
def EndsTruthfully {ε α : Type} (x : Exchange) : EStateM.Result ε Exchange α → Prop
  | .ok _ y | .error _ y => x.Truthful y

end Exchange

namespace Site

variable {site : Site} {x : Exchange}

/-- Templates and included files declare no length. -/
theorem permitsIncludes_undeclared (site : Site) : site.PermitsIncludes Action.Undeclared where
  quiet action plain noSetter := by
    rintro n rfl
    exact noSetter rfl
  templates := site.runsOnly_true.imp fun _ _ _ _ _ => nofun

/-- To send a file that a client asked for is to set its fields and to write it. -/
theorem sendFile_of_pending {file : String} {bytes : Bytes} (read : site.files.read file = .ok bytes)
    (pending : x.phase = .pending) (mediaType : String) :
    site.sendFile true file mediaType x = (Exchange.write bytes).run
      { x with head := { x.head with mediaType, contentLength := some bytes.length } } := by
  obtain ⟨sink, head, _⟩ := x
  cases pending
  simp only [sendFile, read]
  rfl

theorem endsTruthfully_sendFile (reliable : x.sink.Reliable) (pending : x.phase = .pending)
    (none : x.head.contentLength = none) (file mediaType : String) :
    x.EndsTruthfully (site.sendFile true file mediaType x) := by
  cases read : site.files.read file with
  | error e =>
    have failed : site.sendFile true file mediaType x = .error (.failed (.notFound file)) x := by
      simp only [sendFile, read]
      rfl
    rw [failed]
    exact .pending pending rfl none
  | ok bytes =>
    let y : Exchange := { x with head := { x.head with mediaType, contentLength := some bytes.length } }
    have still : y.sink.Reliable := reliable
    obtain ⟨sink, wrote, reliableLast, stored⟩ := Exchange.write_of_reliable still bytes
    have owed : y.owed = Text.encode y.head.render := by simp only [Exchange.owed, y, pending]
    rw [owed] at stored
    rw [sendFile_of_pending read pending, Exchange.Step.run, wrote]
    exact .sent rfl reliableLast stored fun n declared => (Option.some.inj declared).symm

theorem endsTruthfully_dispatch (undeclared : site.Within Action.Undeclared True) (reliable : x.sink.Reliable)
    (pending : x.phase = .pending) (none : x.head.contentLength = none) (path : String) :
    x.EndsTruthfully (site.dispatch path true x) := by
  by_cases sends : ∃ file mediaType, site.resolve path true = .ok (.file file mediaType)
  · obtain ⟨file, mediaType, resolved⟩ := sends
    have sent : site.dispatch path true = site.sendFile true file mediaType := by
      simp only [dispatch, dispatchWith, resolved]
      rfl
    rw [sent]
    exact endsTruthfully_sendFile reliable pending none file mediaType
  · have permits := site.permitsIncludes_undeclared
    have performs : Performs id Action.Undeclared True (site.dispatch path true) :=
      performs_dispatchWith permits undeclared (performs_runInclude permits undeclared includeLevels)
        fun file mediaType resolved => absurd ⟨file, mediaType, resolved⟩ sends
    cases ran : site.dispatch path true x with
    | ok _ y => exact Exchange.truthful_of_reaches (performs.of_ok ran) reliable pending none
    | error halt y => exact Exchange.truthful_of_reaches (performs.of_error ran).1 reliable pending none

theorem endsTruthfully_answer (undeclared : site.Within Action.Undeclared True) (reliable : x.sink.Reliable)
    (pending : x.phase = .pending) (none : x.head.contentLength = none) (path : String) :
    x.EndsTruthfully (site.answer path x) := by
  have dispatched := endsTruthfully_dispatch undeclared reliable pending none path
  simp only [answer]
  cases ran : site.dispatch path true x with
  | ok _ y =>
    rw [ran] at dispatched
    obtain ⟨z, finished, truthful⟩ := Exchange.Truthful.finish dispatched reliable
    simp only [Exchange.Step.run, finished]
    exact truthful
  | error halt y =>
    rw [ran] at dispatched
    cases halt with
    | failed e => exact Exchange.Truthful.afterFailure dispatched reliable e
    | crashed | unfinished => exact dispatched

variable {r : SessionRegistry} {now : Nat} {stream : Http.Stream} {sink : Sink}

theorem truthful_of_makes {head : Http.RequestHead} {v : Visit} {next : SessionRegistry}
    (undeclared : site.Within Action.Undeclared True) (reliable : sink.Reliable)
    (makes : site.Makes r now stream sink head v next) : v.first.Truthful v.last := by
  have start : v.first.sink.Reliable ∧ v.first.phase = .pending ∧ v.first.head.contentLength = none := by
    rw [makes.first]
    exact ⟨reliable, rfl, rfl⟩
  have ended := endsTruthfully_answer undeclared start.1 start.2.1 start.2.2 head.path
  rw [makes.answered] at ended
  cases returned : v.result with
  | ok _ =>
    rw [returned] at ended
    exact ended
  | error halt =>
    rw [returned] at ended
    exact ended

/-- The lengths that a site declares are true, if its handlers set none: whatever the request is and however
it ends, the response is empty, or the length that its head declares is that of the body. A client that reads
the response then finds no other length in it, as long as no line of the head holds a line feed. -/
theorem declaresTruly_serve (undeclared : site.Within Action.Undeclared True) (reliable : sink.Reliable) :
    ∃ response, (site.serve r now stream sink).sink.bytes = sink.bytes ++ response ∧
      (response ≠ [] →
        (∀ v, site.visit? r now stream sink = some v →
          ∃ body, response = Text.encode v.last.head.render ++ body ∧
            ∀ n, v.last.head.contentLength = some n → n = body.length) ∧
        ((∀ v, site.visit? r now stream sink = some v → ∀ line ∈ v.last.head.lines, '\n' ∉ line.toList) →
          Http.DeclaresTruly response)) := by
  cases read : site.readRequest stream with
  | error e =>
    have unvisited : site.visit? r now stream sink = none := by simp only [visit?, read]
    have served : (site.serve r now stream sink).sink = refuse sink e := by simp only [serve, read]
    rw [served, unvisited]
    by_cases unread : ∃ reason, e = .io reason
    · obtain ⟨reason, rfl⟩ := unread
      exact ⟨[], (List.append_nil _).symm, fun filled => absurd rfl filled⟩
    · have other : ∀ reason, e ≠ .io reason := fun reason same => unread ⟨reason, same⟩
      refine ⟨Text.encode Http.badRequest, refuse_of_reliable reliable other, fun _ => ⟨?_, fun _ => ?_⟩⟩
      · intro v visited
        contradiction
      · exact Http.declaresTruly_badRequest
  | ok head =>
    obtain ⟨v, next, visited, makes⟩ : ∃ v next, site.visit? r now stream sink = some v ∧
        site.Makes r now stream sink head v next := makes_of_accepted read
    have start : v.first.sink = sink := by rw [makes.first]; rfl
    have served : (site.serve r now stream sink).sink = v.last.sink := by rw [makes.served]
    rw [served, visited, ← start]
    cases truthful_of_makes undeclared reliable makes with
    | pending still same none =>
      exact ⟨[], by rw [same, List.append_nil], fun filled => absurd rfl filled⟩
    | @sent done reliableLast body stored declared =>
      refine ⟨_, stored, fun _ => ⟨?_, fun unbroken => ?_⟩⟩
      · rintro _ ⟨⟩
        exact ⟨body, rfl, declared⟩
      · exact Http.declaresTruly_render (unbroken v rfl) declared

/-- A file that a client asks for. -/
theorem declaresTruly_serve_file :
    let site : Site := { files := FileTree.ofList [("www/a.css", Text.encode "a\n\nb")] }
    let start : SessionRegistry := { timeout := 10, draw := fun _ => "x" }
    let stream : Http.Stream := [.bytes (Text.encode "GET /a.css HTTP/1.1\r\n\r\n")]
    let response := (site.serve start 0 stream {}).sink.bytes
    site.Within Action.Undeclared True ∧ Sink.Reliable {} ∧ Http.DeclaresTruly response ∧
      response = Text.encode ("HTTP/1.1 200 OK\r\nContent-Type: text/css;charset=UTF-8\r\n" ++
        "Content-Length: 4\r\nSet-Cookie: sid=\"x\"; Domain=localhost; Path=/; HttpOnly\r\n\r\na\n\nb") := by
  intro site start stream response
  have undeclared : site.Within Action.Undeclared True := within_empty
  have text : response = Text.encode ("HTTP/1.1 200 OK\r\nContent-Type: text/css;charset=UTF-8\r\n" ++
      "Content-Length: 4\r\nSet-Cookie: sid=\"x\"; Domain=localhost; Path=/; HttpOnly\r\n\r\na\n\nb") := by
    decide +kernel
  obtain ⟨sent, stored, truly⟩ : ∃ sent, response = [] ++ sent ∧ _ :=
    declaresTruly_serve undeclared (⟨rfl, rfl⟩ : Sink.Reliable {})
  rw [List.nil_append] at stored
  have filled : sent ≠ [] := by
    rw [← stored, text]
    decide +kernel
  have unbroken : ∀ v, site.visit? start 0 stream {} = some v →
      ∀ line ∈ v.last.head.lines, '\n' ∉ line.toList := by
    have lines : (site.visit? start 0 stream {}).all
        (fun v => v.last.head.lines.all fun line => !line.toList.contains '\n') = true := by decide +kernel
    intro v visited
    rw [visited] at lines
    simpa using lines
  rw [← stored] at truly filled
  exact ⟨undeclared, ⟨rfl, rfl⟩, (truly filled).2 unbroken, text⟩

/-- A template that sets a media type with a line end in it writes a line of its own, which states a length that
the server does not look at. -/
theorem received?_serve_injected :
    let source := "<%= \"image/png\r\nContent-Length: 9\" mime %>hi"
    let site : Site := { files := FileTree.ofList [("www/t.tmpl", Text.encode source)] }
    let start : SessionRegistry := { timeout := 10, draw := fun _ => "x" }
    let stream : Http.Stream := [.bytes (Text.encode "GET /t.tmpl HTTP/1.1\r\n\r\n")]
    let response := (site.serve start 0 stream {}).sink.bytes
    site.Within Action.Undeclared True ∧ Sink.Reliable {} ∧ ¬ Http.DeclaresTruly response ∧
      ∃ lines, Http.received? response = some (lines, Text.encode "hi") ∧
        "Content-Length: 9".toList ∈ lines ∧ Http.isLengthLine "Content-Length: 9".toList = true := by
  intro source site start stream response
  let lines := ["HTTP/1.1 200 OK", "Content-Type: image/png", "Content-Length: 9",
    "Set-Cookie: sid=\"x\"; Domain=localhost; Path=/; HttpOnly"]
  have undeclared : site.Within Action.Undeclared True := within_empty
  have text : response = Text.encode (Http.block lines) ++ Text.encode "hi" := by decide +kernel
  have received := Http.received?_block lines (by decide) (by decide) (by decide) (Text.encode "hi")
  rw [← text] at received
  have untrue : ¬ Http.DeclaresTruly response := by
    rintro ⟨_, body, read, truly⟩
    rw [received] at read
    cases read
    exact absurd (truly "Content-Length: 9".toList (by decide) (by decide)) (by decide)
  exact ⟨undeclared, ⟨rfl, rfl⟩, untrue, _, received, by decide, by decide⟩

end Site

end PageServer
