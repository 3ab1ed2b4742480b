import PageServer.Site.Dispatch
import PageServer.Proofs.Template.Nesting
import PageServer.Proofs.Template.Simulation

/-! # Including a template is writing it in place

An include resolves a path, reads and parses a file, and runs it on stacks of its own, at a depth that
counts it. None of this shows: if the included template includes nothing itself and binds the variables
that it reads, the including template goes on as if the other one stood in its place
(`visitAll_include`). The two runs are related by the simulation of templates, with the stacks of the
including one at the bottom; its failures come back unchanged through both conversions of failures.
-/

namespace PageServer

/-- The first exchange is the second one inside one more include. -/
def Exchange.Deeper (x y : Exchange) : Prop :=
  x = y.enterInclude

namespace Exchange

variable {x y : Exchange}

theorem leaveInclude_enterInclude (x : Exchange) : x.enterInclude.leaveInclude = x := rfl

theorem agree_onSink {α : Type} (step : EStateM ServerError Sink α) (deeper : Deeper x y) :
    Agree Deeper Deeper (onSink step x) (onSink step y) := by
  subst deeper
  have same : y.enterInclude.sink = y.sink := rfl
  simp only [onSink, same]
  cases step y.sink with
  | ok a sink => exact .ok rfl
  | error e sink => exact .error rfl

theorem agree_modifyHead (change : Http.ResponseHead → Http.ResponseHead) (deeper : Deeper x y) :
    Agree Deeper Deeper (modifyHead change x) (modifyHead change y) := by
  subst deeper
  obtain ⟨sink, head, phase⟩ := y
  cases phase with
  | pending => exact .ok rfl
  | sent => exact .error rfl

theorem agree_sendHeader (deeper : Deeper x y) :
    Agree Deeper Deeper (sendHeader x) (sendHeader y) := by
  subst deeper
  obtain ⟨sink, head, phase⟩ := y
  cases phase with
  | sent => exact .ok rfl
  | pending => exact agree_onSink _ rfl

theorem agree_write (bytes : Bytes) (deeper : Deeper x y) :
    Agree Deeper Deeper (write bytes x) (write bytes y) := by
  refine (agree_sendHeader deeper).bind fun _ _ _ _ deeper => ?_
  refine (agree_onSink _ deeper).bind fun _ _ _ _ deeper => ?_
  refine (agree_onSink _ deeper).bind fun _ _ _ _ deeper => ?_
  subst deeper
  exact .ok rfl

theorem Deeper.told (deeper : Deeper x y) (text : String) : Deeper (x.told text) (y.told text) := by
  have agree := agree_write (Text.encode text) deeper
  simp only [Exchange.told, writeText]
  generalize write (Text.encode text) x = left at agree
  generalize write (Text.encode text) y = right at agree
  cases agree with
  | ok related => exact related
  | error related => exact related

end Exchange

open Exchange (Deeper)

/-- No template can tell how deep it is included. -/
theorem Template.blind_deeper : Template.Blind Deeper where
  parameters deeper := by subst deeper; rfl
  temporary deeper := by subst deeper; rfl
  attributes deeper := by subst deeper; rfl
  told text deeper := deeper.told text
  setMediaType _ deeper := Exchange.agree_modifyHead _ deeper
  setTemporary _ _ deeper := by subst deeper; rfl
  dropTemporary _ deeper := by subst deeper; rfl
  setAttribute _ _ deeper := by subst deeper; rfl
  dropAttribute _ deeper := by subst deeper; rfl

namespace Template.Eval

/-- Two runs come to the same end: the same value or the same failure, and the same response. If they
succeed, each stack holds the same. -/
abbrev SameEnd : EStateM.Result (Halt ScriptError) Machine Unit →
    EStateM.Result (Halt ScriptError) Machine Unit → Prop :=
  Agree (fun s t => s.exchange = t.exchange ∧ ∀ name, s.memory.list name = t.memory.list name)
    fun s t => s.exchange = t.exchange

theorem SameEnd.trans {x y z : EStateM.Result (Halt ScriptError) Machine Unit} (first : SameEnd x y)
    (second : SameEnd y z) : SameEnd x z := by
  cases first with
  | ok left =>
    cases second with
    | ok right =>
      exact .ok ⟨left.1.trans right.1, fun name => (left.2 name).trans (right.2 name)⟩
  | error left =>
    cases second with
    | error right => exact .error (left.trans right)

theorem visitAll_singleton (services : Services) (node : Node) (m : Machine) :
    visitAll services [node] m = visit services node m := by
  simp only [visitAll, bind, EStateM.bind]
  cases visit services node m <;> rfl

/-- The stacks while an echo includes a path: the path was put on the echo stack and taken off. -/
def afterPath (path : String) (memory : Stacks Value) : Stacks Value :=
  (memory.push echoStack (.text path)).set echoStack (memory.list echoStack)

theorem list_afterPath (path : String) (memory : Stacks Value) (name : String) :
    (afterPath path memory).list name = memory.list name := by
  rw [afterPath, Stacks.list_set, Stacks.list_push]
  split
  · next echo => rw [echo]
  · rfl

theorem elements_include (runPath : Include) (path : String) (m : Machine) :
    elements (some runPath) [.literal path, .function "include"] m =
      onExchange (runPath path) { m with memory := afterPath path m.memory } := by
  have popped : pop echoStack { m with memory := m.memory.push echoStack (.text path) } =
      .ok (.text path) { m with memory := afterPath path m.memory } := by
    simp only [pop, Stacks.pop, Stacks.list_push, ↓reduceIte, afterPath]
  have pushed : push echoStack (.text path) m =
      .ok () { m with memory := m.memory.push echoStack (.text path) } := rfl
  have lookup : Builtin.ofName? "include" = some (.unary .includePath) := rfl
  simp only [elements, element, lookup, call, callUnary, bind, EStateM.bind, pushed, popped,
    Value.render]
  cases onExchange (runPath path) { m with memory := afterPath path m.memory } <;> rfl

/-- An echo that includes a path does nothing else. -/
theorem echo_include (runPath : Include) (path : String) (m : Machine)
    (empty : m.memory.list echoStack = []) :
    SameEnd (echo (some runPath) [.literal path, .function "include"] m)
      (onExchange (runPath path) m) := by
  have nothing : (afterPath path m.memory).list echoStack = [] :=
    (list_afterPath path m.memory echoStack).trans empty
  simp only [echo, bind, EStateM.bind, elements_include, onExchange]
  cases runPath path m.exchange with
  | error halt x => exact .error rfl
  | ok _ x =>
    simp only [drain, Stacks.drain_fst, nothing]
    refine .ok ⟨rfl, fun name => ?_⟩
    have drained := Stacks.list_drain (afterPath path m.memory) echoStack name
    refine drained.trans ?_
    split
    · next echo => rw [← echo, empty]
    · exact list_afterPath path m.memory name

end Template.Eval

namespace Site

open Template (Document Machine Services anyIncludes freeAll flatten flatten_injective echoStack)
open Template.Eval (SameEnd InStep onExchange execute visitAll echo_include ensures_visitAll
  inStep_visitAll visitAll_of_not_includes visitAll_singleton)

/-- What templates of a site rely on when includes are nested at most so deep. -/
def services (site : Site) (levels : Nat) : Services :=
  { include? := some (site.runInclude levels) }

def templateAt? (site : Site) (path : String) : Option Document :=
  match site.resolve path false with
  | .ok (.template file) =>
    ((site.files.read file).toOption.bind Text.decode?).bind fun source => (site.parse source).toOption
  | _ => none

variable {site : Site} {path : String} {document : Document}

/-- An include of a template runs it on stacks of its own. -/
theorem runInclude_of_templateAt? (leads : site.templateAt? path = some document) (levels : Nat)
    {x : Exchange} (shallow : x.depth < maxIncludeDepth) :
    site.runInclude (levels + 1) path x =
      asInclude (Template.run (site.services levels) document) x := by
  have ran : site.dispatchWith (site.runInclude levels) path false =
      Template.run (site.services levels) document := by
    simp only [templateAt?] at leads
    split at leads
    · next file resolved =>
      obtain ⟨source, found, parsed⟩ := Option.bind_eq_some_iff.mp leads
      have read : site.parse source = .ok document := by
        cases result : site.parse source with
        | error e => simp [result, Except.toOption] at parsed
        | ok d => simpa [result, Except.toOption] using parsed
      simp only [dispatchWith, resolved, runTarget, runTemplate, found, read, services]
    · contradiction
  simp only [runInclude, if_neg (Nat.not_le.mpr shallow), ran]

/-- Beside the template on the live stacks, the one on its own stacks comes to the same end. -/
theorem inStep_included (site : Site) (levels : Nat) (closed : freeAll document = [])
    (plain : anyIncludes document = false) (m : Machine) (empty : m.memory.list echoStack = []) :
    InStep Deeper m.memory
      (visitAll (site.services levels) document { exchange := m.exchange.enterInclude })
      (visitAll (site.services (levels + 1)) document m) := by
  have above : Template.Above Deeper m.memory { exchange := m.exchange.enterInclude } m := by
    refine ⟨rfl, fun name => ?_⟩
    rw [Stacks.list_empty, List.nil_append]
  have supplied : ∀ name ∈ freeAll document, Template.Supplied m.memory ∅ name := by
    rw [closed]
    exact List.forall_mem_nil _
  -- without includes, the two may as well have no way of including
  have alone : Template.SameIncludes Deeper ({} : Services).include? ({} : Services).include? := .none
  have inner : visitAll (site.services levels) document = visitAll {} document :=
    visitAll_of_not_includes _ none _ document plain
  have outer : visitAll (site.services (levels + 1)) document = visitAll {} document :=
    visitAll_of_not_includes _ none _ document plain
  rw [inner, outer]
  exact inStep_visitAll Template.blind_deeper empty alone rfl document above supplied

theorem sameEnd_asInclude (site : Site) (levels : Nat) (closed : freeAll document = [])
    (plain : anyIncludes document = false) (m : Machine) (empty : m.memory.list echoStack = []) :
    SameEnd (onExchange (asInclude (Template.run (site.services levels) document)) m)
      (visitAll (site.services (levels + 1)) document m) := by
  have agree := inStep_included site levels closed plain m empty
  have kept := ensures_visitAll (site.services (levels + 1)) document m
  simp only [onExchange, asInclude, Template.run, execute]
  generalize visitAll (site.services levels) document _ = inner at agree
  generalize visitAll (site.services (levels + 1)) document m = outer at agree kept
  cases agree with
  | @ok _ s t above =>
    refine .ok ⟨?_, fun name => ((kept () t rfl).list_eq empty name).symm⟩
    rw [above.exchange, Exchange.leaveInclude_enterInclude]
  | @error halt s t deeper =>
    have unchanged : (halt.map ServerError.script).map ScriptError.ofServer = halt := by
      cases halt <;> rfl
    simp only [unchanged]
    refine .error ?_
    rw [deeper, Exchange.leaveInclude_enterInclude]

/-- Including a template that includes nothing itself and binds the variables it reads comes to the same
end as running its parts in its place. -/
theorem visitAll_include (site : Site) (path : String) (document : Document)
    (leads : site.templateAt? path = some document) (closed : freeAll document = [])
    (plain : anyIncludes document = false) (levels : Nat) (m : Machine)
    (shallow : m.exchange.depth < maxIncludeDepth) (empty : m.memory.list echoStack = []) :
    SameEnd
      (visitAll (site.services (levels + 1)) [.echo [.literal path, .function "include"]] m)
      (visitAll (site.services (levels + 1)) document m) := by
  have echoed := echo_include (site.runInclude (levels + 1)) path m empty
  have included := sameEnd_asInclude site levels closed plain m empty
  have unfolded : onExchange (site.runInclude (levels + 1) path) m =
      onExchange (asInclude (Template.run (site.services levels) document)) m := by
    simp only [onExchange, runInclude_of_templateAt? leads levels shallow]
  rw [unfolded] at echoed
  rw [visitAll_singleton]
  exact echoed.trans included

/-- A template with a loop, included inside a loop over the same name, for a client that takes a few
bytes only. -/
theorem visitAll_include_same_name :
    let source := "<% for i = 1 to 2 %><%= $i %>,<% end %>"
    let site : Site := { files := .ofList [("www/part.tmpl", Text.encode source)] }
    let document : Document :=
      [.loop ⟨"i", .literal "1", .literal "2", none⟩ [.echo [.reference "i"], .text ","]]
    let m : Machine :=
      { memory := (∅ : Stacks Template.Value).push "i" (.int 7)
        exchange := { Exchange.blank with sink := { limit := some 60 }, depth := 3 } }
    site.templateAt? "/part.tmpl" = some document ∧ freeAll document = [] ∧
      anyIncludes document = false ∧ m.exchange.depth < maxIncludeDepth ∧
      m.memory.list echoStack = [] ∧
      SameEnd (visitAll (site.services 12) [.echo [.literal "/part.tmpl", .function "include"]] m)
        (visitAll (site.services 12) document m) := by
  intro source site document m
  have leads : site.templateAt? "/part.tmpl" = some document := by
    have read : (site.templateAt? "/part.tmpl").map flatten = (some document).map flatten := by
      decide +kernel
    exact (Option.map_inj_right fun _ _ => flatten_injective).mp read
  have closed : freeAll document = [] := by decide
  have plain : anyIncludes document = false := by decide
  have shallow : m.exchange.depth < maxIncludeDepth := by decide
  have empty : m.memory.list echoStack = [] := by decide +kernel
  exact ⟨leads, closed, plain, shallow, empty,
    visitAll_include site "/part.tmpl" document leads closed plain 11 m shallow empty⟩

end Site

end PageServer
