import PageServer.Proofs.Http.HeaderBlock
import PageServer.Proofs.Site.SessionCookie

/-! # The host in the header block

The host that a client names is put into the line of its session as it is. Nothing else that a client sends
comes into the header block of a response, as long as the site itself puts nothing there
(`Site.LeavesHeader`). A host cannot hold a line feed, so it never adds a line to the block. But it can hold a
carriage return, which then stands in the block by itself, and a semicolon, behind which it goes on as further
attributes of the cookie; and only such hosts do so (`hostInHeader_after`).
-/

namespace PageServer

open Http (OneLine paired)

/-- Whether the action leaves the cookies alone, and sets no text of the header that goes beyond its line. -/
def Action.IsTidy : Action → Prop
  | .setStatusWithReason _ reason => OneLine reason.toList
  | .setMediaType mediaType => OneLine mediaType.toList
  | .setEncoding encoding => OneLine encoding.toList
  | .setCookies _ | .addCookie _ => False
  | _ => True

namespace Action

variable {action : Action} {x : Exchange}

theorem IsTidy.keepsCookies (tidy : action.IsTidy) : action.setsCookies = false := by
  cases action <;> first | rfl | contradiction

theorem isTidy_of_not_isSetter (other : ¬ action.isSetter) : action.IsTidy := by
  cases action <;> trivial

/-- Such an action keeps the texts of the head within their lines. -/
theorem tidy_after (own : action.isOwn) (tidy : action.IsTidy) (head : x.head.Tidy) :
    (action.after none x).head.Tidy := by
  rcases head_after_cases own x with same | ⟨setter, pending⟩
  · rw [same]
    exact head
  · obtain ⟨sink, fields, _⟩ := x
    cases pending
    cases action with
    | setStatus status => exact { head with reason := Http.oneLine_reasonPhrase status }
    | setStatusWithReason => exact { head with reason := tidy }
    | setMediaType => exact { head with mediaType := tidy }
    | setEncoding => exact { head with encoding := tidy }
    | setContentLength => exact { head with }
    | _ => contradiction

end Action

theorem Exchange.Reaches.tidy {x y : Exchange} (reaches : x.Reaches Action.IsTidy y) (head : x.head.Tidy) :
    y.head.Tidy :=
  reaches.induction (motive := fun z => z.head.Tidy) head fun _ _ own tidy => Action.tidy_after own tidy

namespace Site

/-- The texts in the settings stay within a line, the templates do not set the media type, and the handlers
keep the head tidy. The default host may hold anything but a line feed. -/
structure LeavesHeader (site : Site) : Prop where
  encoding : OneLine site.settings.encoding.toList
  defaultType : OneLine site.settings.defaultMediaType.toList
  types : ∀ (extension mediaType : String), site.settings.mediaTypes[extension]? = some mediaType →
    OneLine mediaType.toList
  defaultHost : '\n' ∉ site.settings.defaultDomain.toList
  templates : site.RunsOnly fun document => ¬ Template.SetsMediaType document
  handlers : site.Within Action.IsTidy True

variable {site : Site}

/-- The media type of a file is one of the settings. -/
theorem LeavesHeader.oneLine_mediaType (leaves : site.LeavesHeader) (file : String) :
    OneLine (Path.mediaType site.settings.mediaTypes file site.settings.defaultMediaType).toList := by
  rw [Path.mediaType]
  cases found : (Path.extension? file).bind (site.settings.mediaTypes[·]?) with
  | none => exact leaves.defaultType
  | some mediaType =>
    obtain ⟨extension, -, listed⟩ := Option.bind_eq_some_iff.mp found
    exact leaves.types extension mediaType listed

theorem mediaType_of_target {text file mediaType : String}
    (leads : site.target text = .ok (.file file mediaType)) :
    mediaType = Path.mediaType site.settings.mediaTypes file site.settings.defaultMediaType := by
  rcases target_cases leads with ⟨handler, same, -⟩ | ⟨place, same, -⟩
  · contradiction
  · rw [fileTarget] at same
    split at same
    · contradiction
    · cases same
      rfl

theorem mediaType_of_resolve {path file mediaType : String} {direct : Bool}
    (resolved : site.resolve path direct = .ok (.file file mediaType)) :
    mediaType = Path.mediaType site.settings.mediaTypes file site.settings.defaultMediaType := by
  obtain ⟨_, -, leads⟩ := target_of_resolve resolved
  exact mediaType_of_target leads

theorem LeavesHeader.permits (leaves : site.LeavesHeader) : site.Permits Action.IsTidy where
  quiet _ _ other := Action.isTidy_of_not_isSetter other
  status _ := trivial
  text := ⟨by decide, by decide⟩
  length _ := trivial
  type path file mediaType resolved := mediaType_of_resolve resolved ▸ leaves.oneLine_mediaType file
  templates := leaves.templates.imp fun _ silent sets => absurd sets silent

/-- The attributes in a line that sets a cookie: the parts behind its first semicolon. -/
def cookieAttributes (line : String) : List String :=
  ((Text.divide (· == ';') line.toList).drop 1).map String.ofList

/-- The attributes that a session gives to its cookie. -/
def sessionAttributes (host : String) : List String :=
  [" Domain=" ++ host, " Path=/", " HttpOnly"]

theorem toList_sessionLine (s : Session) : (sessionLine s).toList =
    ("Set-Cookie: sid=\"".toList ++ s.id.toList ++ ['"']) ++
      ';' :: (" Domain=".toList ++ s.host.toList ++ "; Path=/; HttpOnly".toList) := by
  have text : sessionLine s =
      "Set-Cookie: sid=\"" ++ s.id ++ "\"; Domain=" ++ s.host ++ "; Path=/; HttpOnly" := rfl
  have middle : "\"; Domain=".toList = '"' :: ';' :: " Domain=".toList := by decide
  simp only [text, String.toList_append, middle, List.append_assoc, List.cons_append, List.nil_append]

variable {s : Session} (word : Text.IsWord s.id.toList)

include word

/-- A character that is no letter and stands nowhere else in the line stands there if the host has it. -/
theorem mem_sessionLine_iff {c : Char} (other : c.isAlpha = false)
    (before : c ∉ "Set-Cookie: sid=\"; Domain=".toList) (behind : c ∉ "; Path=/; HttpOnly".toList) :
    c ∈ (sessionLine s).toList ↔ c ∈ s.host.toList := by
  have parts : "Set-Cookie: sid=\"; Domain=".toList =
      "Set-Cookie: sid=\"".toList ++ ';' :: " Domain=".toList := by decide
  have quote : "Set-Cookie: sid=\"".toList = "Set-Cookie: sid=".toList ++ ['"'] := by decide
  rw [parts, List.mem_append, List.mem_cons, not_or, not_or] at before
  obtain ⟨first, mark, domain⟩ := before
  have noQuote : c ∉ ['"'] := fun member => first (quote ▸ List.mem_append_right _ member)
  simp only [toList_sessionLine, List.mem_append, List.mem_cons, first, word.not_mem other, noQuote, mark,
    domain, behind, false_or, or_false]

/-- The host is one attribute of the line, unless it holds a semicolon. -/
theorem cookieAttributes_sessionLine_iff :
    cookieAttributes (sessionLine s) = sessionAttributes s.host ↔ ';' ∉ s.host.toList := by
  have pair : ';' ∉ "Set-Cookie: sid=\"".toList ++ s.id.toList ++ ['"'] := by
    have noId : ';' ∉ s.id.toList := word.not_mem (by decide)
    simp only [List.mem_append, not_or]
    exact ⟨⟨by decide, noId⟩, by decide⟩
  have marked : "; Path=/; HttpOnly".toList = ';' :: " Path=/; HttpOnly".toList := by decide
  have found : cookieAttributes (sessionLine s) =
      (Text.divide (· == ';') (" Domain=".toList ++ s.host.toList ++ ';' :: " Path=/; HttpOnly".toList)).map
        String.ofList := by
    rw [cookieAttributes, toList_sessionLine, Text.divide_append_cons_iff.mpr pair, List.drop_one,
      List.tail_cons, marked]
  have wanted : sessionAttributes s.host =
      ((" Domain=".toList ++ s.host.toList) :: Text.divide (· == ';') " Path=/; HttpOnly".toList).map
        String.ofList := by
    have last : (Text.divide (· == ';') " Path=/; HttpOnly".toList).map String.ofList =
        [" Path=/", " HttpOnly"] := by decide
    rw [List.map_cons, last, ← String.toList_append, String.ofList_toList, sessionAttributes]
  have noDomain : ';' ∉ " Domain=".toList := by decide
  rw [found, wanted, List.map_inj_right fun _ _ => String.ofList_inj.mp,
    Text.divide_append_cons_iff, List.mem_append, or_iff_right noDomain]

omit word

variable {r : SessionRegistry} {now : Nat} {stream : Http.Stream} {sink : Sink} {head : Http.RequestHead}
  {v : Visit} {next : SessionRegistry}

/-- A failure page is sent, or something was sent before. -/
theorem phase_afterFailure (error : ServerError) (x : Exchange) : (afterFailure error x).phase = .sent := by
  cases phase : x.phase with
  | sent =>
    have sent : x.headerSent = true := by rw [Exchange.headerSent, phase]; rfl
    rw [afterFailure, if_pos sent, phase]
  | pending =>
    have unsent : ¬ x.headerSent = true := by rw [Exchange.headerSent, phase]; decide
    rw [afterFailure, if_neg unsent, report_of_pending error phase, Exchange.writeText]
    obtain ⟨_, -, wrote | ⟨_, wrote⟩⟩ := Exchange.write_cases
      (Text.encode s!"{error.status} {Http.reasonPhrase error.status}\n")
      { x with head := failureHead error x.head }
    · rw [wrote]
    · rw [wrote]

/-- On any sink, whatever is answered to the end has sent its header block. -/
theorem phase_answer (site : Site) (path : String) (x : Exchange) :
    match site.answer path x with
    | .ok _ y | .error (.failed _) y => y.phase = .sent
    | .error _ _ => True := by
  simp only [answer]
  cases site.dispatch path true x with
  | ok _ y =>
    obtain ⟨sink, -, finished | ⟨e, finished⟩⟩ := y.finish_cases <;>
      simp only [Exchange.Step.run, finished]
  | error halt y =>
    cases halt with
    | failed e => exact phase_afterFailure e y
    | crashed | unfinished => trivial

theorem phase_of_ended (makes : site.Makes r now stream sink head v next) (ended : v.Ended) :
    v.last.phase = .sent := by
  have sent := site.phase_answer head.path v.first
  rw [makes.answered] at sent
  rcases ended with ok | ⟨e, failed⟩
  · rw [ok] at sent
    exact sent
  · rw [failed] at sent
    exact sent

/-- What the host of a visit comes to in the header block of its response. -/
structure HostInHeader (host : String) (sink : Sink) (v : Visit) (after : Sink) : Prop where
  /-- What the sink is given is the block and a body behind it, or nothing. -/
  given : sink.Took [] after ∨ ∃ body, sink.Took (Text.encode v.last.head.render ++ body) after
  /-- If the request is answered to its end, be it by a failure page, the block is sent. -/
  sent : v.Ended → ∃ body, sink.Took (Text.encode v.last.head.render ++ body) after
  /-- No line holds a line feed, so no line is added to the block. -/
  feeds : ∀ line ∈ v.last.head.lines, '\n' ∉ line.toList
  /-- The only line ends are those of the lines, exactly if the host of a new session has no carriage
  return. -/
  returns : paired (Text.encode v.last.head.render) = true ↔ (v.isNew = true → '\r' ∉ host.toList)
  /-- The only attributes of a cookie are one `Domain`, one `Path` and one `HttpOnly`, exactly if the host of
  a new session has no semicolon. -/
  attributes : (∀ line ∈ v.last.head.cookieLines, cookieAttributes line = sessionAttributes host) ↔
    (v.isNew = true → ';' ∉ host.toList)

section Makes

variable (leaves : site.LeavesHeader) (makes : site.Makes r now stream sink head v next)

include leaves makes

theorem tidy_of_makes : v.last.head.Tidy := by
  have start : v.first.head.Tidy := by
    have html : OneLine "text/html".toList := ⟨by decide, by decide⟩
    rw [makes.first]
    exact ⟨Http.oneLine_reasonPhrase 200, html, leaves.encoding⟩
  exact (reaches_of_makes leaves.permits leaves.handlers makes).tidy start

/-- What keeps the head tidy sets no cookies. -/
theorem leavesCookies_of_makes : v.LeavesCookies :=
  (reaches_of_makes leaves.permits leaves.handlers makes).imp fun _ tidy => tidy.keepsCookies

/-- A line of the block is one of the site's own, or that of a new session. -/
theorem line_cases {line : String} (member : line ∈ v.last.head.lines) :
    OneLine line.toList ∨ v.isNew = true ∧ line = sessionLine v.first.session := by
  rcases (tidy_of_makes leaves makes).oneLine_of_mem_lines member with inside | ⟨c, present, rfl⟩
  · exact .inl inside
  · rw [cookies_of_makes makes (leavesCookies_of_makes leaves makes)] at present
    split at present
    · next isNew =>
      rw [List.mem_singleton.mp present, sessionLine_eq]
      exact .inr ⟨isNew, rfl⟩
    · contradiction

variable {host : String} (session : v.isNew = true → Text.IsWord v.first.session.id.toList ∧
  v.first.session.host = host)

include session

/-- A character that no other text in the block holds stands in no line exactly if the host of a new session
does not hold it. -/
theorem not_mem_lines_iff {c : Char} (other : c.isAlpha = false)
    (ends : ∀ line : String, OneLine line.toList → c ∉ line.toList)
    (before : c ∉ "Set-Cookie: sid=\"; Domain=".toList) (behind : c ∉ "; Path=/; HttpOnly".toList) :
    (∀ line ∈ v.last.head.lines, c ∉ line.toList) ↔ (v.isNew = true → c ∉ host.toList) := by
  have inLine (isNew : v.isNew = true) :
      c ∈ (sessionLine v.first.session).toList ↔ c ∈ host.toList := by
    rw [mem_sessionLine_iff (session isNew).1 other before behind, (session isNew).2]
  constructor
  · intro absent isNew
    have among : sessionLine v.first.session ∈ v.last.head.cookieLines := by
      rw [cookieLines_of_makes makes (leavesCookies_of_makes leaves makes), if_pos isNew]
      exact List.mem_singleton_self _
    rw [← inLine isNew]
    exact absent _ (List.mem_filter.mp among).1
  · intro absent line member
    rcases line_cases leaves makes member with inside | ⟨isNew, rfl⟩
    · exact ends line inside
    · rw [inLine isNew]
      exact absent isNew

/-- Only by the line of the session does the host come into the block. -/
theorem hostInHeader_of_makes (plain : '\n' ∉ host.toList) : HostInHeader host sink v v.last.sink := by
  have took := (reaches_of_makes leaves.permits leaves.handlers makes).took (by rw [makes.first]; rfl)
  have start : v.first.sink = sink := by rw [makes.first]; rfl
  rw [start] at took
  have feeds : ∀ line ∈ v.last.head.lines, '\n' ∉ line.toList :=
    (not_mem_lines_iff leaves makes session (by decide) (fun _ inside => inside.2) (by decide)
      (by decide)).mpr fun _ => plain
  constructor
  case given => exact took.imp And.right And.right
  case sent =>
    intro ended
    have sent := phase_of_ended makes ended
    exact (took.resolve_left fun silent => nomatch sent.symm.trans silent.1).2
  case feeds => exact feeds
  case returns =>
    rw [Http.ResponseHead.paired_render_iff feeds]
    exact not_mem_lines_iff leaves makes session (by decide) (fun _ inside => inside.1) (by decide)
      (by decide)
  case attributes =>
    rw [cookieLines_of_makes makes (leavesCookies_of_makes leaves makes)]
    cases isNew : v.isNew with
    | false => simp
    | true =>
      obtain ⟨word, same⟩ := session isNew
      simp only [↓reduceIte, List.forall_mem_singleton, ← same, cookieAttributes_sessionLine_iff word,
        true_imp_iff]

end Makes

theorem exists_parse_of_readRequest (accepted : site.readRequest stream = .ok head) :
    ∃ bytes, Http.RequestHead.parse bytes = .ok head := by
  simp only [readRequest, bind, Except.bind] at accepted
  split at accepted
  · contradiction
  · exact ⟨_, accepted⟩

/-- On a site that leaves the header alone, a request puts nothing into the header block but the host of a new
session, whatever happened before and whatever the sink is. The block is what it should be exactly if that
host has neither a carriage return nor a semicolon. -/
theorem hostInHeader_after (site : Site) (leaves : site.LeavesHeader) (timeout : Nat) {draw : Nat → String}
    (ids : ∀ n, Session.isId (draw n) = true) (earlier : List Event)
    (accepted : site.readRequest stream = .ok head) :
    let r := site.after { timeout, draw } earlier
    ∃ v, site.visit? r now stream sink = some v ∧
      HostInHeader (head.host site.settings.defaultDomain) sink v (site.serve r now stream sink).sink := by
  intro r
  obtain ⟨sound, words⟩ := sound_and_isWord_after site timeout ids earlier
  obtain ⟨v, next, visited, makes⟩ : ∃ v next, site.visit? r now stream sink = some v ∧
      site.Makes r now stream sink head v next := makes_of_accepted accepted
  obtain ⟨bytes, parsed⟩ := exists_parse_of_readRequest accepted
  refine ⟨v, visited, ?_⟩
  rw [makes.served]
  have plain := Http.RequestHead.newline_not_mem_host parsed leaves.defaultHost
  refine hostInHeader_of_makes leaves makes (fun isNew => ?_) plain
  obtain ⟨word, same, -⟩ := tracked_of_new sound words makes isNew
  exact ⟨word, same⟩

theorem not_setsMediaType_of_elements {source : String} {elements : List Template.Element}
    (listed : (Template.parse source).toOption.map Template.elementsAll = some elements)
    (silent : .function "mime" ∉ elements) {document : Template.Document}
    (parsed : Template.parse source = .ok document) : ¬ Template.SetsMediaType document := by
  rw [parsed] at listed
  cases listed
  exact silent

/-- With the default settings and no handlers, it is only the templates that matter. -/
theorem leavesHeader_of_contents {files : FileTree}
    (silent : ∀ content ∈ files.contents, ∀ source document, Text.decode? content = some source →
      Template.parse source = .ok document → ¬ Template.SetsMediaType document) :
    ({ files } : Site).LeavesHeader := by
  have encoding : OneLine ({} : Settings).encoding.toList := ⟨by decide, by decide⟩
  have defaultType : OneLine ({} : Settings).defaultMediaType.toList := ⟨by decide, by decide⟩
  have defaultHost : '\n' ∉ ({} : Settings).defaultDomain.toList := by decide
  have types : ∀ entry ∈ ({} : Settings).mediaTypes.toList,
      '\r' ∉ entry.2.toList ∧ '\n' ∉ entry.2.toList := by decide +kernel
  have blank : (Template.parse "").toOption.map Template.elementsAll = some [] := by decide +kernel
  have none {P : Prop} {name : String} {handler : Handler} (found :
      (∅ : HandlerTable)[name]? = some handler ∨ (∅ : HandlerTable)[name]? = some handler) : P := by
    simp only [Std.ExtTreeMap.getElem?_empty, reduceCtorEq, or_self] at found
  have silentToo : ∀ content ∈ [] :: files.contents, ∀ source document,
      Text.decode? content = some source → Template.parse source = .ok document →
        ¬ Template.SetsMediaType document := by
    refine List.forall_mem_cons.mpr ⟨fun source document decoded parsed => ?_, silent⟩
    rw [← Text.encode_empty, Text.decode?_encode] at decoded
    cases decoded
    exact not_setsMediaType_of_elements blank List.not_mem_nil parsed
  exact {
    encoding, defaultType, defaultHost
    types := fun extension mediaType listed =>
      types (extension, mediaType) (Std.ExtTreeMap.mem_toList_iff_getElem?_eq_some.mpr listed)
    templates := runsOnly_of_contents (fun _ _ found => none found) silentToo
    handlers := fun _ _ found => none found }

theorem LeavesHeader.route (leaves : site.LeavesHeader) {handler : Handler}
    (tidy : handler.Within Action.IsTidy True)
    (silent : handler.RunsOnly fun document => ¬ Template.SetsMediaType document) (path : String) :
    (site.route path handler).LeavesHeader where
  encoding := leaves.encoding
  defaultType := leaves.defaultType
  types := leaves.types
  defaultHost := leaves.defaultHost
  templates := leaves.templates.route silent path
  handlers := leaves.handlers.route tidy path

/-- A handler that sets a status, a template that writes a parameter, and a host with a port: on either path,
the block is as it should be. -/
theorem hostInHeader_after_port :
    let source := "<p><%= \"name\" \"nobody\" param %></p>"
    let handler : Handler := .ofActions [.setStatus 201, .setMediaType "text/plain", .writeText "x"]
    let site := ({ files := .ofList [("www/a.tmpl", Text.encode source)] } : Site).route "/" handler
    let request (target : String) : Http.Stream :=
      [.bytes (Text.encode ("GET " ++ target ++ " HTTP/1.1\r\nHost: A.example:80\r\n\r\n"))]
    let draw (_ : Nat) : String := "ABCDEFGHIJKLMNOPQRSTUVWXYZabcdef"
    site.LeavesHeader ∧ (∀ n, Session.isId (draw n) = true) ∧
    ∀ target ∈ ["/", "/a.tmpl?name=b"], ∃ v,
      site.visit? { timeout := 10, draw } 0 (request target) {} = some v ∧ v.isNew = true ∧
      paired (Text.encode v.last.head.render) = true ∧
      ∀ line ∈ v.last.head.cookieLines, cookieAttributes line = sessionAttributes "a.example" := by
  intro source handler site request draw
  have own : ∀ action ∈ [Action.setStatus 201, .setMediaType "text/plain", .writeText "x"],
      action.isOwn = true := by decide
  have tidy : ∀ action ∈ [Action.setStatus 201, .setMediaType "text/plain", .writeText "x"],
      action.IsTidy := by
    have text : OneLine "text/plain".toList := ⟨by decide, by decide⟩
    simpa only [List.forall_mem_cons, Action.IsTidy, true_and, List.not_mem_nil, false_imp_iff, implies_true,
      and_true] using text
  have silent : ∀ content ∈ (FileTree.ofList [("www/a.tmpl", Text.encode source)]).contents,
      ∀ text document, Text.decode? content = some text → Template.parse text = .ok document →
        ¬ Template.SetsMediaType document := by
    have one : (FileTree.ofList [("www/a.tmpl", Text.encode source)]).contents = [Text.encode source] := by
      decide +kernel
    have listed : (Template.parse source).toOption.map Template.elementsAll =
        some [.literal "name", .literal "nobody", .function "param"] := by decide +kernel
    rw [one]
    refine List.forall_mem_singleton.mpr fun text document decoded parsed => ?_
    rw [Text.decode?_encode] at decoded
    cases decoded
    exact not_setsMediaType_of_elements listed (by decide) parsed
  have leaves : site.LeavesHeader :=
    (leavesHeader_of_contents silent).route (Handler.within_ofActions tidy)
      (Handler.runsOnly_ofActions own) "/"
  have ids : ∀ n, Session.isId (draw n) = true := fun _ => by decide
  refine ⟨leaves, ids, fun target member => ?_⟩
  let head (target : String) : Http.RequestHead := ⟨"GET", target, "HTTP/1.1", [("Host", "A.example:80")]⟩
  have accepted : ∀ target ∈ ["/", "/a.tmpl?name=b"],
      site.readRequest (request target) = .ok (head target) := by
    decide +kernel
  have host : ∀ target ∈ ["/", "/a.tmpl?name=b"],
      (head target).host site.settings.defaultDomain = "a.example" := by
    decide +kernel
  have new : ∀ target ∈ ["/", "/a.tmpl?name=b"],
      (site.visit? { timeout := 10, draw } 0 (request target) {}).map (·.isNew) = some true := by
    decide +kernel
  obtain ⟨v, visited, inHeader⟩ : ∃ v,
      site.visit? { timeout := 10, draw } 0 (request target) {} = some v ∧
      HostInHeader ((head target).host site.settings.defaultDomain) {} v
        (site.serve { timeout := 10, draw } 0 (request target) {}).sink :=
    hostInHeader_after site leaves 10 ids [] (accepted target member)
  rw [host target member] at inHeader
  have isNew := new target member
  rw [visited] at isNew
  exact ⟨v, visited, Option.some.inj isNew, inHeader.returns.mpr fun _ => by decide,
    inHeader.attributes.mpr fun _ => by decide⟩

/-- On a site that leaves the header alone, a client adds an attribute to the cookie of its session, or a
carriage return to the block. -/
theorem hostInHeader_injected :
    let site : Site := ({} : Site).route "/" (.ofActions [.writeText "x"])
    let id := "ABCDEFGHIJKLMNOPQRSTUVWXYZabcdef"
    let head (host : String) : Option Http.ResponseHead :=
      let request := Text.encode ("GET / HTTP/1.1\r\nHost: " ++ host ++ "\r\n\r\n")
      (site.visit? { timeout := 10, draw := fun _ => id } 0 [.bytes request] {}).map (·.last.head)
    let block (host : String) : Option Bytes := (head host).map fun head => Text.encode head.render
    let lines (attributes : String) : List String :=
      ["HTTP/1.1 200 OK", "Content-Type: text/html;charset=UTF-8",
        "Set-Cookie: sid=\"" ++ id ++ "\"" ++ attributes]
    site.LeavesHeader ∧
    (head "a").map (·.lines) = some (lines "; Domain=a; Path=/; HttpOnly") ∧
    (head "a; Max-Age=0").map (·.lines) = some (lines "; Domain=a; max-age=0; Path=/; HttpOnly") ∧
    (head "a\rb").map (·.lines) = some (lines "; Domain=a\rb; Path=/; HttpOnly") ∧
    (block "a\rb").map paired = some false := by
  intro site id head block lines
  have tidy : ∀ action ∈ [Action.writeText "x"], action.IsTidy := List.forall_mem_singleton.mpr trivial
  have leaves : site.LeavesHeader :=
    (leavesHeader_of_contents (List.forall_mem_nil _)).route (Handler.within_ofActions tidy)
      (Handler.runsOnly_ofActions (by decide)) "/"
  exact ⟨leaves, by decide +kernel, by decide +kernel, by decide +kernel, by decide +kernel⟩

end Site

end PageServer
