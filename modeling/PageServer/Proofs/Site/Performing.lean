import PageServer.Site.Dispatch
import PageServer.Proofs.Exchange.Reaching
import PageServer.Proofs.Site.Spelling

/-! # What templates, handlers and sites do to an exchange

Templates and files perform plain actions only, and handlers whatever they ask for. An include runs on
the same exchange, so nothing that a site does to an exchange is more than a sequence of such actions.
Each kind of work is shown to perform allowed actions from the same about the work that it includes; the
includes themselves are taken by induction on how deep they may be nested. What has to be allowed of the
plain actions is no more than what the site can come to perform (`Site.Permits`): a template sets a header
field only if it calls `mime`, and a file only the media type that the settings give to it.
-/

namespace PageServer

variable {allowed : Action → Prop} {crash : Prop} {α : Type}

namespace Template

mutual

/-- The elements of all echoes in a part of a template. -/
def Node.elements : Node → List Element
  | .text _ => []
  | .echo es => es
  | .loop _ body => elementsAll body

def elementsAll : List Node → List Element
  | [] => []
  | node :: rest => node.elements ++ elementsAll rest

end

/-- Whether the template can set the media type of the response: it calls the function that does. -/
def SetsMediaType (document : Document) : Prop :=
  .function "mime" ∈ elementsAll document

theorem Builtin.eq_mime_of_ofName? {name : String} (named : ofName? name = some (.unary .mime)) :
    name = "mime" := by
  unfold ofName? at named
  split at named <;> first | rfl | contradiction

end Template

namespace Template.Eval

/-- What leaves the exchange alone performs nothing. -/
theorem performs_of_same {work : Eval α}
    (same : ∀ m, match work m with
      | .ok _ n => n.exchange = m.exchange
      | .error halt n => n.exchange = m.exchange ∧ halt ≠ .crashed) :
    Performs Machine.exchange allowed crash work := by
  intro m
  have kept := same m
  cases ran : work m with
  | ok a n =>
    rw [ran] at kept
    simp only [Leaves, kept]
    exact .refl m.exchange
  | error halt n =>
    rw [ran] at kept
    simp only [Leaves, kept.1]
    exact ⟨.refl m.exchange, fun crashed => absurd crashed kept.2⟩

theorem performs_fail (error : ScriptError) :
    Performs Machine.exchange allowed crash (fail error : Eval α) :=
  performs_throw nofun

theorem performs_ofExcept (result : Except ScriptError α) :
    Performs Machine.exchange allowed crash (ofExcept result) := by
  cases result with
  | ok a => exact performs_pure a
  | error e => exact performs_fail e

theorem performs_push (name : String) (value : Value) :
    Performs Machine.exchange allowed crash (push name value) :=
  performs_of_same fun _ => rfl

theorem performs_pop (name : String) : Performs Machine.exchange allowed crash (pop name) := by
  refine performs_of_same fun m => ?_
  simp only [pop]
  cases m.memory.pop name with
  | ok found => rfl
  | error u => exact ⟨rfl, nofun⟩

theorem performs_peek (name : String) : Performs Machine.exchange allowed crash (peek name) :=
  Performs.bind (performs_of_same fun _ => rfl) fun _ => performs_ofExcept _

theorem performs_setTop (name : String) (value : Value) :
    Performs Machine.exchange allowed crash (setTop name value) := by
  refine performs_of_same fun m => ?_
  simp only [setTop]
  cases m.memory.setTop name value with
  | ok memory => rfl
  | error u => exact ⟨rfl, nofun⟩

theorem performs_drain (name : String) : Performs Machine.exchange allowed crash (drain name) :=
  performs_of_same fun _ => rfl

theorem performs_onExchange {run : Run α} (performs : Performs id allowed crash run) :
    Performs Machine.exchange allowed crash (onExchange run) := by
  intro m
  simp only [onExchange]
  cases ran : run m.exchange with
  | ok a x => exact performs.of_ok ran
  | error halt x =>
    obtain ⟨reached, crashes⟩ := performs.of_error ran
    refine ⟨reached, fun crashed => crashes ?_⟩
    cases halt <;> first | rfl | contradiction

/-- A change of the exchange that an action makes. -/
theorem performs_modifyExchange (action : Action) (own : action.isOwn) (may : allowed action)
    {change : Exchange → Exchange} (same : ∀ x, action.after none x = change x) :
    Performs Machine.exchange allowed crash (modifyExchange change) := by
  intro m
  have reached := Exchange.reaches_after action own may m.exchange
  rwa [same] at reached

theorem performs_pushFrom (scope : Exchange → Scope) (name default : Value) :
    Performs Machine.exchange allowed crash (pushFrom scope name default) :=
  Performs.bind (performs_of_same fun _ => rfl) fun _ => performs_push _ _

section Echoes

variable (quiet : ∀ action : Action, action.isPlain → ¬ action.isSetter → allowed action)

include quiet

theorem performs_emit (text : String) : Performs Machine.exchange allowed crash (emit text) := by
  intro m
  have writes : Performs id allowed crash (Exchange.writeText text).run :=
    performs_step (.writeText text) rfl (quiet _ rfl nofun) rfl
  have reached := writes m.exchange
  simp only [emit]
  simp only [Exchange.Step.run] at reached
  cases ran : Exchange.writeText text m.exchange with
  | ok _ x =>
    rw [ran] at reached
    exact reached
  | error e x =>
    rw [ran] at reached
    exact reached.1

theorem performs_callBinary (f : Binary) (a b : Value) :
    Performs Machine.exchange allowed crash (callBinary f a b) := by
  cases f with
  | swap => exact (performs_push _ b).bind fun _ => performs_push _ a
  | parameter => exact performs_pushFrom (·.parameters) a b
  | temporary => exact performs_pushFrom (·.temporary) a b
  | «attribute» => exact performs_pushFrom (·.session.attributes) a b
  | setTemporary =>
    exact performs_modifyExchange (.setTemporary a.render b.render) rfl (quiet _ rfl nofun) fun _ => rfl
  | setAttribute =>
    exact performs_modifyExchange (.setAttribute a.render b.render) rfl (quiet _ rfl nofun) fun _ => rfl

variable {include? : Option Include}
  (includes : ∀ runPath ∈ include?, ∀ path, Performs id allowed crash (runPath path))

include includes

theorem performs_callUnary (f : Unary)
    (media : f = .mime → ∀ mediaType, allowed (.setMediaType mediaType)) (a : Value) :
    Performs Machine.exchange allowed crash (callUnary include? f a) := by
  cases f with
  | sin | format => exact (performs_ofExcept a.toFloat).bind fun _ => performs_push _ _
  | dup => exact (performs_push _ a).bind fun _ => performs_push _ a
  | mime =>
    exact performs_onExchange (performs_step (.setMediaType a.render) rfl (media rfl _) rfl)
  | dropTemporary =>
    exact performs_modifyExchange (.dropTemporary a.render) rfl (quiet _ rfl nofun) fun _ => rfl
  | dropAttribute =>
    exact performs_modifyExchange (.dropAttribute a.render) rfl (quiet _ rfl nofun) fun _ => rfl
  | includePath =>
    cases include? with
    | none => exact performs_fail _
    | some runPath => exact performs_onExchange (includes runPath rfl a.render)

theorem performs_call (f : Builtin)
    (media : f = .unary .mime → ∀ mediaType, allowed (.setMediaType mediaType)) :
    Performs Machine.exchange allowed crash (call include? f) := by
  cases f with
  | unary f =>
    have mediaOf : f = .mime → ∀ mediaType, allowed (.setMediaType mediaType) := fun same =>
      media (congrArg Builtin.unary same)
    exact (performs_pop echoStack).bind fun a => performs_callUnary quiet includes f mediaOf a
  | binary f =>
    exact (performs_pop echoStack).bind fun b =>
      (performs_pop echoStack).bind fun a => performs_callBinary quiet f a b

theorem performs_element (e : Element)
    (media : e = .function "mime" → ∀ mediaType, allowed (.setMediaType mediaType)) :
    Performs Machine.exchange allowed crash (element include? e) := by
  cases e with
  | literal text => exact performs_push _ _
  | reference name => exact (performs_peek name).bind fun _ => performs_push _ _
  | operator symbol =>
    simp only [element]
    split
    · exact performs_fail _
    · exact (performs_pop echoStack).bind fun right => (performs_pop echoStack).bind fun left =>
        (performs_ofExcept _).bind fun _ => performs_push _ _
  | function name =>
    simp only [element]
    split
    · exact performs_fail _
    · next f named =>
      refine performs_call quiet includes f fun same => media ?_
      rw [same] at named
      rw [Builtin.eq_mime_of_ofName? named]

theorem performs_elements (es : List Element)
    (media : .function "mime" ∈ es → ∀ mediaType, allowed (.setMediaType mediaType)) :
    Performs Machine.exchange allowed crash (elements include? es) := by
  induction es with
  | nil => exact performs_pure ()
  | cons e rest ih =>
    refine (performs_element quiet includes e fun same => media ?_).bind fun _ =>
      ih fun later => media (List.mem_cons_of_mem e later)
    rw [same]
    exact List.mem_cons_self

theorem performs_echo (es : List Element)
    (media : .function "mime" ∈ es → ∀ mediaType, allowed (.setMediaType mediaType)) :
    Performs Machine.exchange allowed crash (echo include? es) := by
  refine (performs_elements quiet includes es media).bind fun _ =>
    (performs_drain echoStack).bind fun values => ?_
  dsimp only
  split
  · exact performs_pure ()
  · exact performs_emit quiet _

end Echoes

theorem performs_operand (o : Operand) : Performs Machine.exchange allowed crash (operand o) := by
  cases o with
  | literal text => exact performs_pure _
  | reference name => exact performs_peek name

theorem performs_loopStep (step : Option Operand) :
    Performs Machine.exchange allowed crash (loopStep step) := by
  cases step with
  | none => exact performs_pure _
  | some o => exact performs_operand o

theorem performs_requirePositive (counter : String) (step : Value) :
    Performs Machine.exchange allowed crash (requirePositive counter step) := by
  refine (performs_ofExcept _).bind fun order => ?_
  split
  · exact performs_pure ()
  · exact performs_fail _

section Loops

variable {body : Eval Unit} (inside : Performs Machine.exchange allowed crash body)

include inside

theorem performs_loopRound (counter : String) (stop step : Value) :
    Performs Machine.exchange allowed crash (loopRound counter stop step body) := by
  refine (performs_peek counter).bind fun current => (performs_ofExcept _).bind fun order => ?_
  split
  · exact performs_pure false
  · exact inside.bind fun _ => (performs_peek counter).bind fun _ => (performs_ofExcept _).bind fun _ =>
      (performs_setTop counter _).bind fun _ => performs_pure true

theorem performs_runLoop (rounds : Nat) (header : LoopHeader) :
    Performs Machine.exchange allowed crash (runLoop rounds header body) := by
  refine (performs_operand header.start).bind fun start => (performs_operand header.stop).bind fun stop =>
    (performs_loopStep header.step).bind fun step =>
      (performs_requirePositive header.counter step).bind fun _ =>
        (performs_push header.counter start).bind fun _ => Performs.bind ?_ fun _ =>
          (performs_pop header.counter).bind fun _ => performs_pure ()
  have round := performs_loopRound inside header.counter stop step
  -- by induction on the rounds that are left
  induction rounds with
  | zero => exact performs_throw nofun
  | succ rounds ih =>
    refine round.bind fun more => ?_
    cases more with
    | false => exact performs_pure ()
    | true => exact ih

end Loops

mutual

/-- No part of a template does more than plain actions and what it includes, and it sets no header field
without calling `mime`. -/
theorem performs_visit
    (quiet : ∀ action : Action, action.isPlain → ¬ action.isSetter → allowed action)
    {services : Services}
    (includes : ∀ runPath ∈ services.include?, ∀ path, Performs id allowed crash (runPath path))
    (node : Node)
    (media : .function "mime" ∈ node.elements → ∀ mediaType, allowed (.setMediaType mediaType)) :
    Performs Machine.exchange allowed crash (visit services node) := by
  cases node with
  | text content => exact performs_emit quiet content
  | echo es => exact performs_echo quiet includes es media
  | loop header body =>
    exact performs_runLoop (performs_visitAll quiet includes body media) services.rounds header

theorem performs_visitAll
    (quiet : ∀ action : Action, action.isPlain → ¬ action.isSetter → allowed action)
    {services : Services}
    (includes : ∀ runPath ∈ services.include?, ∀ path, Performs id allowed crash (runPath path))
    (nodes : List Node)
    (media : SetsMediaType nodes → ∀ mediaType, allowed (.setMediaType mediaType)) :
    Performs Machine.exchange allowed crash (visitAll services nodes) := by
  cases nodes with
  | nil => exact performs_pure ()
  | cons node rest =>
    exact (performs_visit quiet includes node fun here => media (List.mem_append_left _ here)).bind fun _ =>
      performs_visitAll quiet includes rest fun later => media (List.mem_append_right _ later)

end

end Template.Eval

theorem Template.performs_run
    (quiet : ∀ action : Action, action.isPlain → ¬ action.isSetter → allowed action)
    {services : Services}
    (includes : ∀ runPath ∈ services.include?, ∀ path, Performs id allowed crash (runPath path))
    (document : Document)
    (media : SetsMediaType document → ∀ mediaType, allowed (.setMediaType mediaType)) :
    Performs id allowed crash (Template.run services document) := by
  intro x
  have performs := Eval.performs_visitAll quiet includes document media
  simp only [Template.run, Eval.execute]
  cases ran : Eval.visitAll services document { exchange := x } with
  | ok _ m => exact performs.of_ok ran
  | error halt m =>
    obtain ⟨reached, crashes⟩ := performs.of_error ran
    refine ⟨reached, fun crashed => crashes ?_⟩
    cases halt <;> first | rfl | contradiction

namespace Handler

/-- Every action of its own that the handler may come to ask for is allowed, whatever it is answered,
and it crashes only if it may. -/
def Within (allowed : Action → Prop) (crash : Prop) : Handler → Prop
  | .done | .fail _ => True
  | .crash => crash
  | .perform action next =>
    (action.isOwn → allowed action) ∧ ∀ answer, (next answer).Within allowed crash

theorem within_true (handler : Handler) : handler.Within (fun _ => True) True := by
  induction handler with
  | done | fail | crash => trivial
  | perform action next ih => exact ⟨fun _ => trivial, ih⟩

/-- A list of allowed actions. -/
theorem within_ofActions {actions : List Action} (may : ∀ action ∈ actions, allowed action) :
    (ofActions actions).Within allowed crash := by
  induction actions with
  | nil => trivial
  | cons action rest ih =>
    obtain ⟨first, others⟩ := List.forall_mem_cons.mp may
    refine ⟨fun _ => first, fun answer => ?_⟩
    cases answer with
    | error e => trivial
    | ok reply => exact ih others

/-- Every template that the handler may come to run from its source is such, whatever it is answered. -/
def RunsOnly (such : Template.Document → Prop) : Handler → Prop
  | .done | .fail _ | .crash => True
  | .perform action next =>
    (∀ source document, action = .runTemplate source → Template.parse source = .ok document →
      such document) ∧ ∀ answer, (next answer).RunsOnly such

theorem runsOnly_true (handler : Handler) : handler.RunsOnly fun _ => True := by
  induction handler with
  | done | fail | crash => trivial
  | perform action next ih => exact ⟨fun _ _ _ _ => trivial, ih⟩

theorem RunsOnly.imp {such other : Template.Document → Prop}
    (weaker : ∀ document, such document → other document) {handler : Handler}
    (runs : handler.RunsOnly such) : handler.RunsOnly other := by
  induction handler with
  | done | fail | crash => trivial
  | perform action next ih =>
    obtain ⟨first, rest⟩ := runs
    exact ⟨fun source document is parsed => weaker document (first source document is parsed),
      fun answer => ih answer (rest answer)⟩

/-- A list of actions of an exchange runs no templates. -/
theorem runsOnly_ofActions {such : Template.Document → Prop} {actions : List Action}
    (own : ∀ action ∈ actions, action.isOwn) : (ofActions actions).RunsOnly such := by
  induction actions with
  | nil => trivial
  | cons action rest ih =>
    obtain ⟨first, others⟩ := List.forall_mem_cons.mp own
    refine ⟨?_, fun answer => ?_⟩
    · rintro source document rfl
      contradiction
    · cases answer with
      | error e => trivial
      | ok reply => exact ih others

variable (quiet : ∀ action : Action, action.isPlain → ¬ action.isSetter → allowed action)
  {include? : Option Include}
  (includes : ∀ runPath ∈ include?, ∀ path, Performs id allowed crash (runPath path))

include quiet includes

/-- An action of a handler performs itself, or what the path or the template performs that it runs. -/
theorem performs_perform {action : Action} (may : action.isOwn → allowed action)
    (media : ∀ source document, action = .runTemplate source → Template.parse source = .ok document →
      Template.SetsMediaType document → ∀ mediaType, allowed (.setMediaType mediaType)) :
    Performs id allowed crash (action.perform include?) := by
  cases action with
  | includePath path =>
    refine Performs.bind ?_ fun _ => performs_pure Reply.nothing
    cases include? with
    | none => exact performs_throw nofun
    | some runPath => exact includes runPath rfl path
  | runTemplate source =>
    refine Performs.bind ?_ fun _ => performs_pure Reply.nothing
    simp only [Action.runSource]
    split
    · next document parsed =>
      exact Template.performs_run quiet includes document (media source document rfl parsed)
    · exact performs_throw nofun
  | _ => exact performs_action rfl (may rfl) include?

/-- By induction on the handler: each of its actions performs what it may. -/
theorem performs_run {handler : Handler} (within : handler.Within allowed crash)
    (runs : handler.RunsOnly fun document =>
      Template.SetsMediaType document → ∀ mediaType, allowed (.setMediaType mediaType)) :
    Performs id allowed crash (handler.run include?) := by
  induction handler with
  | done => exact performs_pure ()
  | fail error => exact performs_throw nofun
  | crash => exact performs_throw fun _ => within
  | perform action next ih =>
    obtain ⟨may, rest⟩ := within
    obtain ⟨media, runsRest⟩ := runs
    have first := performs_perform quiet includes may media
    intro x
    simp only [run]
    cases ran : action.perform include? x with
    | ok reply y => exact (ih (.ok reply) (rest _) (runsRest _) y).of_reaches (first.of_ok ran)
    | error halt y =>
      cases halt with
      | failed e => exact (ih (.error e) (rest _) (runsRest _) y).of_reaches (first.of_error ran).1
      | crashed | unfinished => exact first.of_error ran

end Handler

namespace FileTree

namespace Entry

mutual

/-- What stands in the files of a tree. -/
def contents : Entry → List Bytes
  | .file content => [content]
  | .emptyDevice => []
  | .directory entries => contentsAmong entries

def contentsAmong : List (List Char × Entry) → List Bytes
  | [] => []
  | (_, entry) :: rest => entry.contents ++ contentsAmong rest

end

theorem contents_subset_of_lookup {entries : List (List Char × Entry)} {name : List Char}
    {child : Entry} (found : entries.lookup name = some child) :
    child.contents ⊆ contentsAmong entries := by
  induction entries with
  | nil => contradiction
  | cons first rest ih =>
    obtain ⟨other, entry⟩ := first
    rw [List.lookup_cons] at found
    rw [contentsAmong]
    split at found
    · cases found
      exact List.subset_append_left _ _
    · exact List.Subset.trans (ih found) (List.subset_append_right _ _)

/-- A path leads to nothing but what stands in the directories that it can pass. -/
theorem contents_subset_of_follow {known : List Bytes} {tree entry : Entry} {above : List Entry}
    {segments : List (List Char)} (found : tree.follow above segments = .ok entry)
    (inside : ∀ passed ∈ tree :: above, passed.contents ⊆ known) : entry.contents ⊆ known := by
  induction segments generalizing above tree with
  | nil =>
    cases found
    exact inside _ List.mem_cons_self
  | cons segment rest ih =>
    obtain ⟨entries, rfl, farther, next, later, ⟨passed, fewer⟩ | ⟨-, looked, rfl⟩⟩ := follow_cons_cases found
    · exact ih later (List.forall_mem_cons.mpr
        ⟨inside next passed, fun outer member => inside outer (List.mem_cons_of_mem _ (fewer member))⟩)
    · have inNext : next.contents ⊆ known :=
        List.Subset.trans (contents_subset_of_lookup looked) (inside _ List.mem_cons_self)
      exact ih later (List.forall_mem_cons.mpr ⟨inNext, inside⟩)

end Entry

/-- What stands in the files of a system. -/
def contents (files : FileTree) : List Bytes :=
  files.root.contents

/-- What is read is nothing, or it stands in a file of the system. -/
theorem mem_contents_of_read {files : FileTree} {path : String} {content : Bytes}
    (ran : files.read path = .ok content) : content ∈ [] :: files.contents := by
  simp only [read, bind, Except.bind] at ran
  split at ran
  · contradiction
  · next entry found =>
    have inside : entry.contents ⊆ files.contents :=
      Entry.contents_subset_of_follow (find_eq_ok_iff.mp found).2
        (List.forall_mem_singleton.mpr (List.Subset.refl _))
    cases entry with
    | file =>
      cases ran
      exact List.mem_cons_of_mem _ (inside (List.mem_singleton_self content))
    | emptyDevice =>
      cases ran
      exact List.mem_cons_self
    | directory => contradiction

end FileTree

namespace Site

/-- Every handler of the site keeps to the allowed actions, and crashes only if it may. -/
def Within (site : Site) (allowed : Action → Prop) (crash : Prop) : Prop :=
  ∀ (name : String) (handler : Handler),
    site.routes[name]? = some handler ∨ site.workers[name]? = some handler → handler.Within allowed crash

theorem within_empty : ({} : Site).Within allowed crash := by
  intro name handler found
  simp only [Std.ExtTreeMap.getElem?_empty, reduceCtorEq, or_self] at found

/-- A handler of a site to which one was added is that one, or it was there before. -/
theorem registered_of_route {site : Site} {path name : String} {handler other : Handler}
    (found : (site.route path handler).routes[name]? = some other ∨
      (site.route path handler).workers[name]? = some other) :
    other = handler ∨ site.routes[name]? = some other ∨ site.workers[name]? = some other := by
  rcases found with found | found
  · rw [Site.route, Std.ExtTreeMap.getElem?_insert] at found
    split at found
    · exact .inl (Option.some.inj found).symm
    · exact .inr (.inl found)
  · exact .inr (.inr found)

theorem Within.route {site : Site} (within : site.Within allowed crash) {handler : Handler}
    (keeps : handler.Within allowed crash) (path : String) :
    (site.route path handler).Within allowed crash := by
  intro name other found
  rcases registered_of_route found with rfl | before
  · exact keeps
  · exact within name other before

/-- A handler to which a path leads is one of the site. -/
theorem registered_of_resolve {site : Site} {path : String} {direct : Bool} {handler : Handler}
    (resolved : site.resolve path direct = .ok (.handler handler)) :
    ∃ name : String, site.routes[name]? = some handler ∨ site.workers[name]? = some handler := by
  obtain ⟨text, -, leads⟩ := target_of_resolve resolved
  rcases registered_of_target leads with routed | ⟨name, named⟩
  · exact ⟨text, .inl routed⟩
  · exact ⟨name, .inr named⟩

theorem Within.of_resolve {site : Site} (within : site.Within allowed crash) {path : String}
    {direct : Bool} {handler : Handler} (resolved : site.resolve path direct = .ok (.handler handler)) :
    handler.Within allowed crash := by
  obtain ⟨name, registered⟩ := registered_of_resolve resolved
  exact within name handler registered

/-- Every template of the site is such: those in files, and those that its handlers may come to run from
their sources. -/
structure RunsOnly (site : Site) (such : Template.Document → Prop) : Prop where
  handlers : ∀ (name : String) (handler : Handler),
    site.routes[name]? = some handler ∨ site.workers[name]? = some handler → handler.RunsOnly such
  files : ∀ file source document, (site.files.read file).toOption.bind Text.decode? = some source →
    site.parse source = .ok document → such document

/-- It is enough to look at all that can be read. -/
theorem runsOnly_of_contents {site : Site} {such : Template.Document → Prop}
    (handlers : ∀ (name : String) (handler : Handler),
      site.routes[name]? = some handler ∨ site.workers[name]? = some handler → handler.RunsOnly such)
    (contents : ∀ content ∈ [] :: site.files.contents, ∀ source document,
      Text.decode? content = some source → site.parse source = .ok document → such document) :
    site.RunsOnly such where
  handlers := handlers
  files file source document read parsed := by
    obtain ⟨content, ran, decoded⟩ := Option.bind_eq_some_iff.mp read
    cases result : site.files.read file with
    | error e =>
      rw [result] at ran
      contradiction
    | ok found =>
      rw [result] at ran
      cases ran
      exact contents content (FileTree.mem_contents_of_read result) source document decoded parsed

theorem RunsOnly.route {site : Site} {such : Template.Document → Prop} (runs : site.RunsOnly such)
    {handler : Handler} (keeps : handler.RunsOnly such) (path : String) :
    (site.route path handler).RunsOnly such where
  handlers name other found := by
    rcases registered_of_route found with rfl | before
    · exact keeps
    · exact runs.handlers name other before
  files := runs.files

theorem runsOnly_true (site : Site) : site.RunsOnly fun _ => True where
  handlers _ handler _ := handler.runsOnly_true
  files _ _ _ _ _ := trivial

theorem RunsOnly.imp {site : Site} {such other : Template.Document → Prop}
    (weaker : ∀ document, such document → other document) (runs : site.RunsOnly such) :
    site.RunsOnly other where
  handlers name handler registered := (runs.handlers name handler registered).imp weaker
  files file source document read parsed := weaker document (runs.files file source document read parsed)

/-- All is allowed that the site performs by itself to answer requests, and that its templates perform. -/
structure Permits (site : Site) (allowed : Action → Prop) : Prop where
  /-- Anything plain that sets no header field. -/
  quiet : ∀ action : Action, action.isPlain → ¬ action.isSetter → allowed action
  /-- The fields of a failure page. -/
  status : ∀ status, allowed (.setStatus status)
  text : allowed (.setMediaType "text/plain")
  /-- The fields of a file that is sent. -/
  length : ∀ contentLength, allowed (.setContentLength contentLength)
  type : ∀ path file mediaType, site.resolve path true = .ok (.file file mediaType) →
    allowed (.setMediaType mediaType)
  /-- A media type that a template sets can be any. -/
  templates : site.RunsOnly fun document =>
    Template.SetsMediaType document → ∀ mediaType, allowed (.setMediaType mediaType)

/-- All is allowed that included paths perform. They set no fields of the response, unless a template does. -/
structure PermitsIncludes (site : Site) (allowed : Action → Prop) : Prop where
  quiet : ∀ action : Action, action.isPlain → ¬ action.isSetter → allowed action
  templates : site.RunsOnly fun document =>
    Template.SetsMediaType document → ∀ mediaType, allowed (.setMediaType mediaType)

theorem Permits.includes {site : Site} (permits : site.Permits allowed) : site.PermitsIncludes allowed :=
  ⟨permits.quiet, permits.templates⟩

theorem Permits.of_isPlain (plain : ∀ action : Action, action.isPlain → allowed action) (site : Site) :
    site.Permits allowed where
  quiet action isPlain _ := plain action isPlain
  status _ := plain _ rfl
  text := plain _ rfl
  length _ := plain _ rfl
  type _ _ _ _ := plain _ rfl
  templates := site.runsOnly_true.imp fun _ _ _ _ => plain _ rfl

variable {site : Site} {includePath : Include}

theorem performs_runTemplate (permits : site.PermitsIncludes allowed)
    (includes : ∀ path, Performs id allowed crash (includePath path)) (file : String) :
    Performs id allowed crash (site.runTemplate includePath file) := by
  simp only [runTemplate]
  split
  · exact performs_throw nofun
  · next source read =>
    split
    · exact performs_throw nofun
    · next document parsed =>
      refine Template.performs_run permits.quiet ?_ document
        (permits.templates.files file source document read parsed)
      rintro _ ⟨⟩
      exact includes

theorem run_bind {β : Type} (first : Exchange.Step α) (second : α → Exchange.Step β) :
    (first >>= second).run = first.run >>= fun a => (second a).run := by
  funext x
  simp only [Exchange.Step.run, bind, EStateM.bind]
  cases first x <;> rfl

/-- A file is written, and sets its fields only if a client asked for it. -/
theorem performs_sendFile {direct : Bool} {file mediaType : String}
    (writes : ∀ bytes, allowed (.write bytes))
    (type : direct = true → allowed (.setMediaType mediaType))
    (length : direct = true → ∀ contentLength, allowed (.setContentLength contentLength)) :
    Performs id allowed crash (site.sendFile direct file mediaType) := by
  simp only [sendFile]
  split
  · exact performs_throw nofun
  · next bytes _ =>
    have write : Performs id allowed crash (Exchange.write bytes).run :=
      performs_step (.write bytes) rfl (writes bytes) rfl
    rw [run_bind]
    refine Performs.bind (fun x => .refl x) fun x => ?_
    split
    · next first =>
      have asked := (Bool.and_eq_true_iff.mp first).1
      rw [run_bind]
      refine (performs_step (.setMediaType mediaType) rfl (type asked) rfl).bind fun _ => ?_
      rw [run_bind]
      exact (performs_step (.setContentLength _) rfl (length asked _) rfl).bind fun _ => write
    · exact write

/-- What a path leads to performs allowed actions, if sending it does in case that it is a file. -/
theorem performs_runTarget (permits : site.PermitsIncludes allowed) (within : site.Within allowed crash)
    (includes : ∀ path, Performs id allowed crash (includePath path)) {path : String} {direct : Bool}
    {target : Target} (resolved : site.resolve path direct = .ok target)
    (sends : ∀ file mediaType, target = .file file mediaType →
      Performs id allowed crash (site.sendFile direct file mediaType)) :
    Performs id allowed crash (site.runTarget includePath direct target) := by
  cases target with
  | handler handler =>
    obtain ⟨name, registered⟩ := registered_of_resolve resolved
    refine Handler.performs_run permits.quiet ?_ (within name handler registered)
      (permits.templates.handlers name handler registered)
    rintro _ ⟨⟩
    exact includes
  | template file => exact performs_runTemplate permits includes file
  | file file mediaType => exact sends file mediaType rfl

theorem performs_dispatchWith (permits : site.PermitsIncludes allowed) (within : site.Within allowed crash)
    (includes : ∀ path, Performs id allowed crash (includePath path)) {path : String} {direct : Bool}
    (sends : ∀ file mediaType, site.resolve path direct = .ok (.file file mediaType) →
      Performs id allowed crash (site.sendFile direct file mediaType)) :
    Performs id allowed crash (site.dispatchWith includePath path direct) := by
  simp only [dispatchWith]
  split
  · exact performs_throw nofun
  · next target resolved =>
    refine performs_runTarget permits within includes resolved ?_
    rintro file mediaType rfl
    exact sends file mediaType resolved

theorem performs_asInclude
    (quiet : ∀ action : Action, action.isPlain → ¬ action.isSetter → allowed action)
    {work : Run Unit} (inside : Performs id allowed crash work) :
    Performs id allowed crash (asInclude work) := by
  intro x
  have enters : x.Reaches allowed x.enterInclude :=
    Exchange.reaches_after .enterInclude rfl (quiet _ rfl nofun) x
  have leaves (y : Exchange) : y.Reaches allowed y.leaveInclude :=
    Exchange.reaches_after .leaveInclude rfl (quiet _ rfl nofun) y
  simp only [asInclude]
  cases ran : work x.enterInclude with
  | ok _ y => exact (enters.trans (inside.of_ok ran)).trans (leaves y)
  | error halt y =>
    obtain ⟨reached, crashes⟩ := inside.of_error ran
    exact ⟨(enters.trans reached).trans (leaves y), crashes⟩

/-- By induction on the includes that can be nested. -/
theorem performs_runInclude (permits : site.PermitsIncludes allowed)
    (within : site.Within allowed crash) (levels : Nat) (path : String) :
    Performs id allowed crash (site.runInclude levels path) := by
  induction levels generalizing path with
  | zero => exact performs_throw nofun
  | succ levels ih =>
    intro x
    simp only [runInclude]
    split
    · exact ⟨.refl x, nofun⟩
    · refine performs_asInclude permits.quiet (performs_dispatchWith permits within ih ?_) x
      exact fun _ _ _ => performs_sendFile (fun _ => permits.quiet _ rfl nofun) nofun nofun

/-- Whatever a path leads to performs allowed actions only. -/
theorem performs_dispatch (permits : site.Permits allowed)
    (within : site.Within allowed crash) (path : String) (direct : Bool) :
    Performs id allowed crash (site.dispatch path direct) := by
  refine performs_dispatchWith permits.includes within
    (performs_runInclude permits.includes within includeLevels) fun file mediaType resolved => ?_
  refine performs_sendFile (fun _ => permits.quiet _ rfl nofun) ?_ fun _ => permits.length
  rintro rfl
  exact permits.type path file mediaType resolved

end Site

end PageServer
