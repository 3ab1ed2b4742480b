import PageServer.Proofs.Http.QueryParts
import PageServer.Proofs.Site.Alike
import PageServer.Proofs.Site.Visits

/-! # What handlers see of a request

A handler learns of a request what it asks for: one parameter, or all of them. No action changes the
parameters of an exchange, so the answers are the same wherever in the response the handler runs. To say so,
the questions are answered beforehand: a handler that knows the parameters (`Handler.knowing`) asks nothing,
and a site whose handlers know those of the request serves it just the same (`Site.serve_knowing`).
-/

namespace PageServer

variable {parameters : Scope} {x y : Exchange}

/-- The two exchanges are one with these parameters. -/
abbrev Exchange.SameWith (parameters : Scope) : Exchange → Exchange → Prop :=
  Exchange.Same fun x => x.parameters = parameters

open Exchange (SameWith)

theorem agree_of_performs_any {crash : Prop} {α : Type} {work : Run α}
    (performs : Performs id (fun _ => True) crash work) (related : SameWith parameters x y) :
    Agree (SameWith parameters) (SameWith parameters) (work x) (work y) :=
  agree_same_of_performs performs (fun _ x own _ same => (Action.parameters_after own x).trans same) related

theorem Template.blind_sameWith (parameters : Scope) : Template.Blind (SameWith parameters) :=
  Template.blind_same fun _ x own _ same => (Action.parameters_after own x).trans same

/-- The handler with its questions for parameters answered beforehand. -/
def Handler.knowing (parameters : Scope) : Handler → Handler
  | .done => .done
  | .fail error => .fail error
  | .crash => .crash
  | .perform action next =>
    match action with
    | .parameter name => (next (.ok (.ofOption parameters[name]?))).knowing parameters
    | .parameters => (next (.ok (.entries parameters.toList))).knowing parameters
    | other => .perform other fun answer => (next answer).knowing parameters

/-- The reply to a question for parameters, if the action is one. -/
def Action.parameterReply? (parameters : Scope) : Action → Option Reply
  | .parameter name => some (.ofOption parameters[name]?)
  | .parameters => some (.entries parameters.toList)
  | _ => none

theorem Action.perform_of_parameterReply? {action : Action} {reply : Reply}
    (asks : action.parameterReply? parameters = some reply) (include? : Option Include)
    (given : x.parameters = parameters) : action.perform include? x = .ok reply x := by
  subst given
  cases action with
  | parameter | parameters =>
    cases asks
    rfl
  | _ => contradiction

namespace Handler

theorem knowing_of_reply {action : Action} {reply : Reply}
    (asks : action.parameterReply? parameters = some reply) (next : Except ServerError Reply → Handler) :
    (perform action next).knowing parameters = (next (.ok reply)).knowing parameters := by
  cases action with
  | parameter | parameters =>
    cases asks
    rfl
  | _ => contradiction

theorem knowing_of_none {action : Action} (other : action.parameterReply? parameters = none)
    (next : Except ServerError Reply → Handler) :
    (perform action next).knowing parameters =
      .perform action fun answer => (next answer).knowing parameters := by
  cases action <;> first | rfl | contradiction

/-- By induction on the handler: each question has the answer that the handler knows, and every other action
comes to the same. -/
theorem agree_knowing {left right : Include}
    (includes : ∀ path x y, SameWith parameters x y →
      Agree (SameWith parameters) (SameWith parameters) (left path x) (right path y))
    (handler : Handler) (related : SameWith parameters x y) :
    Agree (SameWith parameters) (SameWith parameters) (handler.run (some left) x)
      ((handler.knowing parameters).run (some right) y) := by
  induction handler generalizing x y with
  | done => exact .ok related
  | fail | crash => exact .error related
  | perform action next ih =>
    cases asks : action.parameterReply? parameters with
    | some reply =>
      rw [knowing_of_reply asks, run]
      simp only [Action.perform_of_parameterReply? asks (some left) related.2]
      exact ih (.ok reply) related
    | none =>
      have own : action.isOwn → Agree (SameWith parameters) (SameWith parameters)
          (action.perform none x) (action.perform none y) := fun isOwn =>
        agree_of_performs_any
          (performs_action isOwn trivial none : Performs id (fun _ => True) True (action.perform none)) related
      have first := agree_perform (Template.blind_sameWith parameters) includes own related
      rw [knowing_of_none asks]
      simp only [run]
      generalize action.perform (some left) x = answer at first
      generalize action.perform (some right) y = other at first
      cases first with
      | ok related => exact ih _ related
      | @error halt s t related =>
        cases halt with
        | failed e => exact ih _ related
        | crashed | unfinished => exact .error related

end Handler

def Target.knowing (parameters : Scope) : Target → Target
  | .handler found => .handler (found.knowing parameters)
  | other => other

namespace Site

/-- The site with all its handlers knowing the parameters. -/
def knowing (parameters : Scope) (site : Site) : Site :=
  { site with
    routes := site.routes.map fun _ handler => handler.knowing parameters
    workers := site.workers.map fun _ handler => handler.knowing parameters }

variable {site : Site}

theorem target_knowing (path : String) :
    (site.knowing parameters).target path = (site.target path).map (Target.knowing parameters) := by
  have routes : (site.knowing parameters).routes[path]? =
      site.routes[path]?.map (Handler.knowing parameters) := Std.ExtTreeMap.getElem?_map
  have workers (name : String) : (site.knowing parameters).workers[name]? =
      site.workers[name]?.map (Handler.knowing parameters) := Std.ExtTreeMap.getElem?_map
  have name : (site.knowing parameters).workerName? path = site.workerName? path := rfl
  have located : (site.knowing parameters).locate path = site.locate path := rfl
  have sent (file : String) : (site.knowing parameters).fileTarget file =
      (site.fileTarget file).knowing parameters := by
    change site.fileTarget file = (site.fileTarget file).knowing parameters
    rw [fileTarget]
    split <;> rfl
  simp only [target, routes, workers, name, located]
  cases site.routes[path]? with
  | some handler => rfl
  | none =>
    cases site.workerName? path with
    | none =>
      cases site.locate path with
      | error e => rfl
      | ok found => exact congrArg Except.ok (sent found)
    | some name =>
      dsimp only [Option.map_none]
      cases site.workers[name]? <;> rfl

theorem resolve_knowing (path : String) (direct : Bool) :
    (site.knowing parameters).resolve path direct =
      (site.resolve path direct).map (Target.knowing parameters) := by
  cases spelled : normalize path with
  | error e => simp only [resolve, spelled, bind, Except.bind, Except.map]
  | ok text =>
    have hidden : (site.knowing parameters).isPrivate text = site.isPrivate text := rfl
    rw [resolve_of_spelling spelled, resolve_of_spelling spelled, hidden, target_knowing]
    split <;> rfl

theorem agree_dispatchWith_knowing {left right : Include}
    (includes : ∀ path x y, SameWith parameters x y →
      Agree (SameWith parameters) (SameWith parameters) (left path x) (right path y))
    (path : String) (direct : Bool) (related : SameWith parameters x y) :
    Agree (SameWith parameters) (SameWith parameters) (site.dispatchWith left path direct x)
      ((site.knowing parameters).dispatchWith right path direct y) := by
  simp only [dispatchWith, resolve_knowing]
  cases site.resolve path direct with
  | error e => exact .error related
  | ok target =>
    cases target with
    | handler handler => exact handler.agree_knowing includes related
    | template file =>
      exact site.agree_runTemplate (Template.blind_sameWith parameters) includes file related
    | file file mediaType =>
      have performs : Performs id (fun _ => True) True (site.sendFile direct file mediaType) :=
        performs_sendFile (fun _ => trivial) (fun _ => trivial) fun _ _ => trivial
      exact agree_of_performs_any performs related

/-- By induction on the includes that can be nested. -/
theorem agree_runInclude_knowing (levels : Nat) (path : String) (related : SameWith parameters x y) :
    Agree (SameWith parameters) (SameWith parameters) (site.runInclude levels path x)
      ((site.knowing parameters).runInclude levels path y) := by
  induction levels generalizing path x y with
  | zero => exact .error related
  | succ levels ih =>
    obtain ⟨rfl, given⟩ := related
    simp only [runInclude]
    split
    · exact .error ⟨rfl, given⟩
    · have inside : SameWith parameters x.enterInclude x.enterInclude := ⟨rfl, given⟩
      refine agree_asInclude
        (agree_dispatchWith_knowing (fun path _ _ related => ih path related) path false inside) ?_
      rintro y _ ⟨rfl, given⟩
      exact ⟨rfl, given⟩

theorem answer_knowing (path : String) (given : x.parameters = parameters) :
    (site.knowing parameters).answer path x = site.answer path x := by
  have same : SameWith parameters x x := ⟨rfl, given⟩
  have agree : Agree (SameWith parameters) (SameWith parameters) (site.dispatch path true x)
      ((site.knowing parameters).dispatch path true x) :=
    agree_dispatchWith_knowing
      (fun path _ _ related => agree_runInclude_knowing includeLevels path related) path true same
  simp only [answer, eq_of_agree_same agree]

/-- A site serves a request in the same way if its handlers know the parameters of it. -/
theorem serve_knowing {r : SessionRegistry} {now : Nat} {stream : Http.Stream} {sink : Sink}
    {head : Http.RequestHead} (accepted : site.readRequest stream = .ok head) :
    (site.knowing head.parameters).serve r now stream sink = site.serve r now stream sink := by
  have read : (site.knowing head.parameters).readRequest stream = .ok head := accepted
  have start (s : Session) (isNew : Bool) :
      (site.knowing head.parameters).exchange head s isNew sink = site.exchange head s isNew sink := rfl
  have answered (s : Session) (isNew : Bool) : (site.knowing head.parameters).answer head.path
      (site.exchange head s isNew sink) = site.answer head.path (site.exchange head s isNew sink) :=
    answer_knowing head.path rfl
  simp only [serve, read, accepted, serveRequest, start, answered]
  rfl

/-- The parameters of a query compose, and handlers see those of the request. A query behind another overwrites
what that one says; a query that is written from pairs gives each key its last value; and if a path and a query
are asked for, that path is answered, on an exchange with the parameters of that query, and each question of a
handler for parameters has its answer from them. -/
theorem parameters_compose_and_serve_knowing :
    (∀ a b key : String, (Http.parseQuery (a ++ "&" ++ b))[key]? =
      (Http.parseQuery b)[key]?.or (Http.parseQuery a)[key]?) ∧
    (∀ pairs : List (String × String), (∀ pair ∈ pairs, Http.IsWritable pair) → ∀ key : String,
      (Http.parseQuery (Http.queryText pairs))[key]? = pairs.reverse.lookup key) ∧
    ∀ (site : Site) (r : SessionRegistry) (now : Nat) (stream : Http.Stream) (sink : Sink)
      (head : Http.RequestHead) (path text : String), site.readRequest stream = .ok head →
      '?' ∉ path.toList → head.target = path ++ "?" ++ text →
      head.path = path ∧ head.parameters = Http.parseQuery text ∧
      (∃ v next, site.visit? r now stream sink = some v ∧ site.Makes r now stream sink head v next ∧
        v.first.parameters = Http.parseQuery text) ∧
      (site.knowing (Http.parseQuery text)).serve r now stream sink = site.serve r now stream sink := by
  refine ⟨Http.getElem?_parseQuery_append, fun _ => Http.getElem?_parseQuery_queryText, ?_⟩
  intro site r now stream sink head path text accepted plain target
  obtain ⟨samePath, given⟩ := Http.RequestHead.path_and_parameters plain target
  refine ⟨samePath, given, ?_, ?_⟩
  · obtain ⟨v, next, visited, makes⟩ : ∃ v next, site.visit? r now stream sink = some v ∧
        site.Makes r now stream sink head v next := makes_of_accepted accepted
    exact ⟨v, next, visited, makes, by rw [makes.first]; exact given⟩
  · rw [← given]
    exact serve_knowing accepted

/-- A handler that writes what it is told of one key, which is given twice. -/
theorem parameters_compose_and_serve_knowing_twice :
    let pairs := [("b", "1"), ("", ""), ("b", "=?")]
    let asking : Handler := .perform (.parameter "b") fun answer =>
      match answer with
      | .ok (.text value) => .ofActions [.writeText value]
      | _ => .done
    let site : Site := ({} : Site).route "/a" asking
    let stream : Http.Stream := [.bytes (Text.encode "GET /a?b=1&=&b==? HTTP/1.1\r\n\r\n")]
    let parameters := Http.parseQuery (Http.queryText pairs)
    let start : SessionRegistry := { timeout := 10 }
    (∀ pair ∈ pairs, Http.IsWritable pair) ∧ parameters["b"]? = some "=?" ∧
      Text.encode "\r\n\r\n=?" <:+ (site.serve start 0 stream {}).sink.bytes ∧
      (site.knowing parameters).serve start 0 stream {} = site.serve start 0 stream {} := by
  intro pairs asking site stream parameters start
  have writable : ∀ pair ∈ pairs, Http.IsWritable pair := by
    intro pair member
    simp only [pairs, List.mem_cons, List.not_mem_nil, or_false] at member
    rcases member with rfl | rfl | rfl <;> exact ⟨by decide, by decide⟩
  obtain ⟨-, written, served⟩ := parameters_compose_and_serve_knowing
  have accepted : site.readRequest stream = .ok ⟨"GET", "/a?b=1&=&b==?", "HTTP/1.1", []⟩ := by
    decide +kernel
  refine ⟨writable, (written pairs writable "b").trans (by decide), by decide +kernel, ?_⟩
  exact (served site start 0 stream {} _ "/a" (Http.queryText pairs) accepted (by decide) (by decide)).2.2.2

end Site

end PageServer
