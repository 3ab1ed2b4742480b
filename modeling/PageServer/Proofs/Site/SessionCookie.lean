import PageServer.Proofs.Http.ReceivedResponse
import PageServer.Proofs.Http.Returning
import PageServer.Proofs.Session.FreshId
import PageServer.Proofs.Site.Conclusion
import PageServer.Proofs.Site.Visits

/-! # The session cookie comes back

A client that gets a new session is told its id by one cookie. Until the session has expired, the client
is served on it whenever it sends the id from the same host, and finds what it left there, whatever others
do in between (`roundTrip_after`). All of it rests on three parts: a response keeps the cookies that it was
started with, as long as no handler sets any (`replied_of_makes`); a session stays what it is along a run
(`tracked_after`); and a request in which the host and the cookie are spelled otherwise still means them
(`host_of_names`, `cookie?_of_presents`).

What may be spelled otherwise has its limits, which `visitsAmong_lost` shows. And the cookies of a head are those
that a client reads in the header block only as long as no text of the head brings a line of its own.
-/

namespace PageServer

/-- Whether the action changes the cookies of a response. -/
def Action.setsCookies : Action → Bool
  | .setCookies _ | .addCookie _ => true
  | _ => false

theorem Action.cookies_after {action : Action} (own : action.isOwn) (careful : action.setsCookies = false)
    (x : Exchange) : (action.after none x).head.cookies = x.head.cookies := by
  rcases Action.head_after_cases own x with same | ⟨setter, pending⟩
  · rw [same]
  · obtain ⟨sink, head, _⟩ := x
    cases pending
    cases action <;> first | rfl | contradiction

/-- Without such actions, the cookies stay as they are. -/
theorem Exchange.Reaches.cookies {x y : Exchange}
    (reaches : x.Reaches (fun action => action.setsCookies = false) y) :
    y.head.cookies = x.head.cookies :=
  reaches.induction (motive := fun z => z.head.cookies = x.head.cookies) rfl
    fun _ _ own careful same => (Action.cookies_after own careful _).trans same

theorem Action.setsCookies_of_isPlain (action : Action) (plain : action.isPlain) :
    action.setsCookies = false := by
  cases action <;> first | rfl | contradiction

namespace Site

/-- The line that gives a session to a client. -/
def sessionLine (s : Session) : String :=
  "Set-Cookie: sid=\"" ++ s.id ++ "\"; Domain=" ++ s.host ++ "; Path=/; HttpOnly"

private theorem line_of_parts (id host : String) :
    "Set-Cookie: " ++ ("sid" ++ "=\"" ++ id ++ "\"" ++
        String.join ["; " ++ ("Domain=" ++ host), "; " ++ "Path=/", "; " ++ "HttpOnly"]) =
      "Set-Cookie: sid=\"" ++ id ++ "\"; Domain=" ++ host ++ "; Path=/; HttpOnly" := by
  apply String.toList_inj.mp
  simp [String.join]

theorem sessionLine_eq (s : Session) : "Set-Cookie: " ++ (sessionCookie s).render = sessionLine s :=
  line_of_parts s.id s.host

/-- The site's handlers leave the cookies alone. -/
def Careful (site : Site) : Prop :=
  site.Within (fun action => action.setsCookies = false) True

/-- Nothing that was performed for the request has set a cookie. -/
def Visit.LeavesCookies (v : Visit) : Prop :=
  v.first.Reaches (fun action => action.setsCookies = false) v.last

variable {site : Site} {r : SessionRegistry} {now : Nat} {stream : Http.Stream} {sink : Sink}
  {head : Http.RequestHead} {v : Visit} {next : SessionRegistry}

/-- A visit performs nothing but what the site permits and its handlers keep to. -/
theorem reaches_of_makes {allowed : Action → Prop} (permits : site.Permits allowed)
    (within : site.Within allowed True) (makes : site.Makes r now stream sink head v next) :
    v.first.Reaches allowed v.last := by
  have left := performs_answer permits within head.path v.first
  rw [makes.answered] at left
  cases returned : v.result with
  | ok _ =>
    rw [returned] at left
    exact left
  | error halt =>
    rw [returned] at left
    exact left.1

/-- Templates and files do not set cookies. -/
theorem leavesCookies_of_careful (careful : site.Careful)
    (visited : site.visit? r now stream sink = some v) : v.LeavesCookies := by
  obtain ⟨head, next, makes⟩ := makes_of_visit? visited
  exact reaches_of_makes (.of_isPlain Action.setsCookies_of_isPlain site) careful makes

/-- The request was answered to the end, whether it failed or not. -/
def Visit.Ended (v : Visit) : Prop :=
  v.result = .ok () ∨ ∃ e, v.result = .error (.failed e)

/-- What a sink got is the response of a visit, and its head sets cookies by these lines. A client that reads the
response finds the same ones, as long as no line of the head holds a line feed. -/
structure Visit.Replied (v : Visit) (before after : Sink) (lines : List String) : Prop where
  head : v.last.head.cookieLines = lines
  response : ∃ response, after.bytes = before.bytes ++ response ∧
    (∃ body, response = Text.encode v.last.head.render ++ body) ∧
    ((∀ line ∈ v.last.head.lines, '\n' ∉ line.toList) → Http.SetsCookies response lines)

theorem responded_of_makes (makes : site.Makes r now stream sink head v next)
    (reliable : sink.Reliable) (ended : v.Ended) : v.first.Responded v.last := by
  have clean : v.first.phase = .pending := by rw [makes.first]; rfl
  have still : v.first.sink.Reliable := by rw [makes.first]; exact reliable
  obtain ⟨result, z, ending, answered⟩ := site.ending_answer head.path still clean
  have same : result = v.result ∧ z = v.last := by
    have agreed := makes.answered.symm.trans answered
    revert agreed
    generalize v.result = returned
    cases result <;> cases returned <;> intro agreed <;> cases agreed <;> exact ⟨rfl, rfl⟩
  rw [same.1, same.2] at ending
  rw [Visit.Ended] at ended
  generalize v.result = returned at ending ended
  generalize site.dispatch head.path true v.first = worked at ending
  cases ending with
  | finished _ response => exact response
  | reported _ response _ => exact response
  | cut response => exact response
  | crashed | unfinished =>
    rcases ended with ok | ⟨e, failed⟩
    · contradiction
    · cases failed

/-- If nothing that is performed sets a cookie, there is one for a new session, and no other. -/
theorem cookies_of_makes (makes : site.Makes r now stream sink head v next) (leaves : v.LeavesCookies) :
    v.last.head.cookies = if v.isNew then [sessionCookie v.first.session] else [] := by
  have given : v.first.head.cookies = if v.isNew then [sessionCookie v.first.session] else [] := by
    rw [makes.first]
    rfl
  exact (Exchange.Reaches.cookies leaves).trans given

theorem cookieLines_of_makes (makes : site.Makes r now stream sink head v next) (leaves : v.LeavesCookies) :
    v.last.head.cookieLines = if v.isNew then [sessionLine v.first.session] else [] := by
  rw [Http.ResponseHead.cookieLines_eq, cookies_of_makes makes leaves]
  split
  · rw [List.map_singleton, sessionLine_eq]
  · rfl

/-- A response has the line of its session if that is new, and no other line that sets a cookie. -/
theorem replied_of_makes (makes : site.Makes r now stream sink head v next) (reliable : sink.Reliable)
    (ended : v.Ended) (leaves : v.LeavesCookies) :
    v.Replied sink (site.serve r now stream sink).sink
      (if v.isNew then [sessionLine v.first.session] else []) := by
  obtain ⟨-, actions, -, -, stored⟩ := responded_of_makes makes reliable ended
  have start : v.first.sink = sink := by rw [makes.first]; rfl
  rw [start] at stored
  have cookies := cookieLines_of_makes makes leaves
  rw [makes.served]
  refine ⟨cookies, _, stored, ⟨_, rfl⟩, fun unbroken => ?_⟩
  rw [← cookies]
  exact Http.setsCookies_render unbroken _

/-- The head names the host of a session: as its own host, or, if the host is plain, in any case and with or
without a port. -/
def Names (site : Site) (head : Http.RequestHead) (host : String) : Prop :=
  head.host site.settings.defaultDomain = host ∨
    Http.RequestHead.Plain host.toList ∧ ∃ value, head.header? "Host" = some value ∧
      Http.RequestHead.Spells host.toList (Text.trim value.toList)

/-- The first cookie line of the head carries the id of a session. -/
def Presents (head : Http.RequestHead) (id : String) : Prop :=
  ∃ line, head.header? "Cookie" = some line ∧
    Http.RequestHead.Carries Session.cookieName id line.toList

theorem lower_host (head : Http.RequestHead) (default : String) :
    Text.lower (head.host default).toList = (head.host default).toList := by
  rw [Http.RequestHead.host]
  split <;> rw [String.toList_ofList, Text.lower_lower]

/-- Hosts that were read off a request are named as they are spelled. -/
theorem host_of_names {host : String} (names : site.Names head host)
    (lowered : Text.lower host.toList = host.toList) : head.host site.settings.defaultDomain = host := by
  rcases names with same | ⟨plain, value, header, spells⟩
  · exact same
  · exact Http.RequestHead.host_of_spells plain lowered header spells _

theorem cookie?_of_presents {id : String} (word : Text.IsWord id.toList) (presents : Presents head id) :
    head.cookie? Session.cookieName = some id := by
  obtain ⟨line, header, carries⟩ := presents
  have name : Text.IsWord Session.cookieName.toList := List.all_eq_true.mp (by decide)
  exact Http.RequestHead.cookie?_of_carries name word header carries

/-- What a new session comes to. -/
structure RoundTrip (site : Site) (r : SessionRegistry) (now : Nat) (stream : Http.Stream) (sink : Sink)
    (head : Http.RequestHead) (v : Visit) : Prop where
  /-- The session belongs to the host of the request. -/
  host : v.first.session.host = head.host site.settings.defaultDomain
  /-- The response has one line that sets a cookie, which is the one of the session. -/
  given : sink.Reliable → v.Ended → v.LeavesCookies →
    v.Replied sink (site.serve r now stream sink).sink [sessionLine v.first.session]
  /-- Whatever happens in between, a later request that comes before the session has expired, names its
  host and presents its id is served on it, finds the attributes that were left in it, and is not given
  a cookie. -/
  returns : ∀ (between : List Event) (stream' : Http.Stream) (sink' : Sink) (now' : Nat)
      (head' : Http.RequestHead),
    (now :: (between.map Event.instant ++ [now'])).Pairwise (· ≤ ·) →
    site.readRequest stream' = .ok head' →
    site.Names head' v.first.session.host → Presents head' v.first.session.id →
    let start := (site.serve r now stream sink).sessions
    let r' := site.after start between
    r'.isExpired v.number now' = false →
    ∃ v', site.visit? r' now' stream' sink' = some v' ∧ v'.number = v.number ∧ v'.isNew = false ∧
      v'.first.session.id = v.first.session.id ∧ v'.first.session.host = v.first.session.host ∧
      v'.first.session.attributes =
        leftBy (site.visitsAmong start between) v.number v.last.session.attributes ∧
      (sink'.Reliable → v'.Ended → v'.LeavesCookies →
        v'.Replied sink' (site.serve r' now' stream' sink').sink [])

/-- A new session is issued to the host of the request, with an id of letters if all draws are such, and
is found by it. -/
theorem tracked_of_new (sound : r.Sound) (words : ∀ n, Text.IsWord (r.draw n).toList)
    (makes : site.Makes r now stream sink head v next) (isNew : v.isNew = true) :
    Text.IsWord v.first.session.id.toList ∧
      v.first.session.host = head.host site.settings.defaultDomain ∧
      (site.serve r now stream sink).sessions.Tracked now v.number v.first.session.id
        v.first.session.host v.last.session.attributes := by
  have outcome := sound.outcome (head.cookie? Session.cookieName)
    (head.host site.settings.defaultDomain) now
  rw [makes.resolved] at outcome
  obtain ⟨left, draw, issued⟩ := outcome.issues isNew
  have tracked := SessionRegistry.tracked_issue left (head.host site.settings.defaultDomain) now
  rw [← issued] at tracked
  have word : Text.IsWord left.freshId.1.toList := SessionRegistry.isWord_freshId (draw ▸ words)
  have written := tracked.write v.number v.last.session.attributes
  obtain ⟨s, session, sameId, sameHost, -⟩ := tracked
  dsimp only at session
  rw [makes.session] at session
  cases session
  rw [if_pos rfl] at written
  rw [makes.served, sameId, sameHost]
  exact ⟨word, rfl, written⟩

/-- A client that names the host of a session that has not expired and presents its id is served on it,
and finds it as it was left. -/
theorem returns_of_tracked {number : Nat} {id owner : String} {attributes : Scope}
    (tracked : r.Tracked now number id owner attributes) (running : r.isExpired number now = false)
    (accepted : site.readRequest stream = .ok head)
    (named : head.host site.settings.defaultDomain = owner)
    (presented : head.cookie? Session.cookieName = some id) :
    ∃ v next, site.visit? r now stream sink = some v ∧ site.Makes r now stream sink head v next ∧
      v.number = number ∧ v.isNew = false ∧ v.first.session.id = id ∧ v.first.session.host = owner ∧
      v.first.session.attributes = attributes := by
  obtain ⟨t, session, sameId, sameHost, left, found⟩ := tracked
  have runs : ¬ t.expiresAt ≤ now := by
    rw [SessionRegistry.isExpired, session, Option.all_some, Session.isExpired] at running
    exact of_decide_eq_false running
  have held : r.Holds id number t := ⟨found.resolve_right runs, session⟩
  have resolved := SessionRegistry.resolve_of_holds held owner now
  rw [if_neg (not_not.mpr sameHost), if_neg runs] at resolved
  obtain ⟨v, next, visited, makes⟩ : ∃ v next, site.visit? r now stream sink = some v ∧
      site.Makes r now stream sink head v next := makes_of_accepted accepted
  have again := makes.resolved
  rw [presented, named, resolved, Prod.mk.injEq, Prod.mk.injEq] at again
  obtain ⟨sameNumber, isOld, sameNext⟩ := again
  have extended : v.first.session = t.extendTo (r.deadline now) := by
    have current := makes.session
    rw [← sameNumber, ← sameNext, SessionRegistry.session?_modify, if_pos rfl, session,
      Option.map_some] at current
    exact (Option.some.inj current).symm
  refine ⟨v, next, visited, makes, sameNumber.symm, isOld.symm, ?_⟩
  rw [extended]
  exact ⟨sameId, sameHost, left⟩

theorem roundTrip_of_new (sound : r.Sound) (words : ∀ n, Text.IsWord (r.draw n).toList)
    (makes : site.Makes r now stream sink head v next) (isNew : v.isNew = true) :
    RoundTrip site r now stream sink head v := by
  obtain ⟨word, host, tracked⟩ := tracked_of_new sound words makes isNew
  constructor
  case host => exact host
  case given =>
    intro reliable ended leaves
    have replied := replied_of_makes makes reliable ended leaves
    rwa [if_pos isNew] at replied
  case returns =>
    intro between stream' sink' now' head' ordered accepted names presents start r' running
    rw [← List.cons_append, List.pairwise_append] at ordered
    obtain ⟨orderedBetween, -, before⟩ := ordered
    have soundStart : start.Sound := sound_next sound (.connection stream sink now)
    have trackedThen : r'.Tracked now' v.number v.first.session.id v.first.session.host _ :=
      tracked_after soundStart tracked orderedBetween fun time member =>
        before time member now' (List.mem_singleton_self now')
    have lowered : Text.lower v.first.session.host.toList = v.first.session.host.toList :=
      host ▸ lower_host head site.settings.defaultDomain
    obtain ⟨v', next', visited, makes', number, isOld, same⟩ :=
      returns_of_tracked trackedThen running accepted (host_of_names names lowered)
        (cookie?_of_presents word presents)
    refine ⟨v', visited, number, isOld, same.1, same.2.1, same.2.2, fun reliable ended leaves => ?_⟩
    have replied := replied_of_makes makes' reliable ended leaves
    rwa [isOld] at replied

/-- Events keep a registry sound, and its ids are words if all draws have the form of ids. -/
theorem sound_and_isWord_after (site : Site) (timeout : Nat) {draw : Nat → String}
    (ids : ∀ n, Session.isId (draw n) = true) (events : List Event) :
    (site.after { timeout, draw } events).Sound ∧
      ∀ n, Text.IsWord ((site.after { timeout, draw } events).draw n).toList := by
  have start := SessionRegistry.sound_run timeout draw []
  refine ⟨sound_after start events, fun n => ?_⟩
  have same : (site.after { timeout, draw } events).draw = draw := draw_after start events
  rw [same]
  exact isWord_of_isId (ids n)

/-- Every accepted request is served, and if its session is new, the cookie comes back: on any site, after
any events. -/
theorem roundTrip_after (site : Site) (timeout : Nat) {draw : Nat → String}
    (ids : ∀ n, Session.isId (draw n) = true) (earlier : List Event)
    (accepted : site.readRequest stream = .ok head) :
    let r := site.after { timeout, draw } earlier
    ∃ v, site.visit? r now stream sink = some v ∧
      (v.isNew = true → RoundTrip site r now stream sink head v) := by
  intro r
  obtain ⟨sound, words⟩ := sound_and_isWord_after site timeout ids earlier
  obtain ⟨v, next, visited, makes⟩ : ∃ v next, site.visit? r now stream sink = some v ∧
      site.Makes r now stream sink head v next := makes_of_accepted accepted
  exact ⟨v, visited, roundTrip_of_new sound words makes⟩

theorem ended_of_isOk (isOk : v.result.isOk = true) : v.Ended := by
  rw [Visit.Ended]
  cases result : v.result with
  | ok _ => exact .inl rfl
  | error halt =>
    rw [result] at isOk
    contradiction

/-- On a sink of its own, a response is all that there is. -/
theorem Visit.Replied.setsCookies {after : Sink} {lines : List String} (replied : v.Replied {} after lines)
    (unbroken : (v.last.head.lines.all fun line => !line.toList.contains '\n') = true) :
    Http.SetsCookies after.bytes lines := by
  obtain ⟨response, stored, -, received⟩ := replied.response
  have whole : after.bytes = response := stored
  rw [whole]
  exact received (by simpa using unbroken)

/-- A client that comes back to a site which marks its session. It spells the host in another case and
without the port, and sends the id in quotes behind another cookie. -/
theorem roundTrip_after_marked :
    let site : Site := ({} : Site).route "/" (.ofActions [.setAttribute "seen" "1", .writeText "x"])
    let start : SessionRegistry := { timeout := 10, draw := drawnId 0 }
    let stream : Http.Stream :=
      [.bytes (Text.encode "GET / HTTP/1.1\r\nHost: a.example:8080\r\n\r\n")]
    let line := "x=y; sid = \"" ++ drawnId 0 0 ++ "\""
    let again : Http.Stream :=
      [.bytes (Text.encode ("GET / HTTP/1.1\r\nHost: A.Example\r\nCookie: " ++ line ++ "\r\n\r\n"))]
    let r := (site.serve start 0 stream {}).sessions
    (∀ n, Session.isId (drawnId 0 n) = true) ∧
    ∃ v v', site.visit? start 0 stream {} = some v ∧ v.isNew = true ∧
      RoundTrip site start 0 stream {} ⟨"GET", "/", "HTTP/1.1", [("Host", "a.example:8080")]⟩ v ∧
      Http.SetsCookies (site.serve start 0 stream {}).sink.bytes [sessionLine v.first.session] ∧
      site.visit? r 9 again {} = some v' ∧ v'.number = v.number ∧ v'.isNew = false ∧
      v'.first.session.attributes = v.last.session.attributes ∧
      Http.SetsCookies (site.serve r 9 again {}).sink.bytes [] := by
  intro site start stream line again r
  have careful : site.Careful := within_empty.route (Handler.within_ofActions (by decide)) "/"
  obtain ⟨v, visited, trip⟩ : ∃ v, site.visit? start 0 stream {} = some v ∧ (v.isNew = true →
      RoundTrip site start 0 stream {} ⟨"GET", "/", "HTTP/1.1", [("Host", "a.example:8080")]⟩ v) :=
    roundTrip_after site 10 (isId_drawnId 0) [] (by decide +kernel)
  let unbroken (v : Visit) : Bool := v.last.head.lines.all fun line => !line.toList.contains '\n'
  have first : (site.visit? start 0 stream {}).map
      (fun v => (v.number, v.isNew, v.first.session.id, v.result.isOk, unbroken v)) =
        some (0, true, drawnId 0 0, true, true) := by decide +kernel
  simp only [visited, Option.map_some, Option.some.injEq, Prod.mk.injEq] at first
  obtain ⟨number, isNew, id, isOk, lines⟩ := first
  have host : v.first.session.host = "a.example" := (trip isNew).host.trans (by decide +kernel)
  have names : site.Names ⟨"GET", "/", "HTTP/1.1", [("Host", "A.Example"), ("Cookie", line)]⟩
      v.first.session.host := by
    rw [host]
    exact .inr ⟨⟨by decide, .inl (by decide)⟩, "A.Example", rfl, "A.Example".toList, [], by decide,
      .inl rfl, by decide⟩
  have pair : Http.RequestHead.IsPair "sid" v.first.session.id
      (" sid = \"".toList ++ (drawnId 0 0).toList ++ ['"']) := by
    have space : Text.Blanks [' '] := List.forall_mem_singleton.mpr (by decide)
    refine ⟨[' '], [' '], [' '], [], _, space, space, space, List.forall_mem_nil _, .inr rfl, ?_⟩
    rw [id]
    decide +kernel
  have other : Http.RequestHead.IsOther "sid" "x=y".toList :=
    Http.RequestHead.isOther_of_cut (by decide) (by decide : _ = some (['x'], ['y'])) (by decide)
  have presents : Presents ⟨"GET", "/", "HTTP/1.1", [("Host", "A.Example"), ("Cookie", line)]⟩
      v.first.session.id :=
    ⟨line, by decide +kernel, ["x=y".toList], _, [], List.forall_mem_singleton.mpr other, pair, .inl rfl,
      by decide +kernel⟩
  have second : (r.isExpired 0 9, (site.visit? r 9 again {}).map fun v => (v.result.isOk, unbroken v)) =
      (false, some (true, true)) := by decide +kernel
  obtain ⟨running, ends⟩ := Prod.mk.inj second
  obtain ⟨v', back, sameNumber, isOld, -, -, left, silent⟩ :=
    (trip isNew).returns [] again {} 9 _ (by decide) (by decide +kernel) names presents
      (by rw [number]; exact running)
  have backToo : site.visit? r 9 again {} = some v' := back
  simp only [backToo, Option.map_some, Option.some.injEq, Prod.mk.injEq] at ends
  have given := (trip isNew).given ⟨rfl, rfl⟩ (ended_of_isOk isOk) (leavesCookies_of_careful careful visited)
  have none := silent ⟨rfl, rfl⟩ (ended_of_isOk ends.1) (leavesCookies_of_careful careful back)
  exact ⟨isId_drawnId 0, v, v', visited, isNew, trip isNew, given.setsCookies lines, back, sameNumber, isOld,
    left, none.setsCookies ends.2⟩

/-- The session is lost by a client that spells an address whose bracket is not closed with a port, leaves
out the port of a host without a name, or sends a cookie before whose name differs only in case. And a
template that sets a media type with a line end in it adds a cookie to the one of the session. -/
theorem visitsAmong_lost :
    let site : Site := ({} : Site).route "/" (.ofActions [.writeText "x"])
    let request (host cookies : String) : Event :=
      .connection [.bytes (Text.encode ("GET / HTTP/1.1\r\nHost: " ++ host ++ "\r\n" ++ cookies ++ "\r\n"))]
        {} 0
    let served (events : List Event) := (site.visitsAmong { timeout := 10 } events).map fun v =>
      (v.number, v.isNew, v.first.session.id, v.first.session.host, v.last.head.cookieLines.length)
    let sent := "Cookie: sid=" ++ drawnId 0 0 ++ "\r\n"
    let source := "<%= \"image/png\r\nSet-Cookie: a=b\" mime %>hi"
    let page : Site := { files := .ofList [("www/t.tmpl", Text.encode source)] }
    let stream : Http.Stream := [.bytes (Text.encode "GET /t.tmpl HTTP/1.1\r\nHost: a\r\n\r\n")]
    ':' ∉ "[abc".toList ∧
    served [request "[abc" "", request "[abc:80" sent] =
      [(0, true, drawnId 0 0, "[abc", 1), (1, true, drawnId 0 1, "[abc:80", 1)] ∧
    served [request ":80" "", request "" sent] =
      [(0, true, drawnId 0 0, "", 1), (1, true, drawnId 0 1, "localhost", 1)] ∧
    served [request "a" "", request "a" ("Cookie: SID=x; sid=" ++ drawnId 0 0 ++ "\r\n")] =
      [(0, true, drawnId 0 0, "a", 1), (1, true, drawnId 0 1, "a", 1)] ∧
    page.Careful ∧ Http.SetsCookies (page.serve { timeout := 10 } 0 stream {}).sink.bytes
      ["Set-Cookie: a=b", sessionLine ⟨drawnId 0 0, "a", 10, ∅⟩] := by
  intro site request served sent source page stream
  let lines := ["HTTP/1.1 200 OK", "Content-Type: image/png", "Set-Cookie: a=b",
    sessionLine ⟨drawnId 0 0, "a", 10, ∅⟩]
  have text : (page.serve { timeout := 10 } 0 stream {}).sink.bytes =
      Text.encode (Http.block lines) ++ Text.encode "hi" := by decide +kernel
  have received := Http.received?_block lines (by decide) (by decide +kernel) (by decide +kernel)
    (Text.encode "hi")
  have both : Http.SetsCookies (page.serve { timeout := 10 } 0 stream {}).sink.bytes
      ["Set-Cookie: a=b", sessionLine ⟨drawnId 0 0, "a", 10, ∅⟩] := by
    rw [text]
    exact ⟨_, _, received, by decide +kernel⟩
  exact ⟨by decide, by decide +kernel, by decide +kernel, by decide +kernel, within_empty, both⟩

end Site

end PageServer
