import PageServer.Proofs.Site.Alike

/-! # Templates do not notice their client

Whether the bytes of a template can be stored or flushed has no influence on anything else: a failed output is
dropped, and the header block counts as sent before the sink sees any of it. So a template comes to the same
end for any two clients, and so do the templates that it includes. Included handlers and files may notice, so
the runs in question are those that crash nowhere if handlers and files cannot be included
(`IncludesTemplatesOnly`); such a run is the same with and without that guard (`Guards`).
-/

namespace PageServer

/-- The second exchange has another sink and may have counted other bytes, and is the same in all else. -/
def Exchange.SameButSink (x y : Exchange) : Prop :=
  ∃ sink written, y = { x with sink, written }

namespace Exchange

variable {x y : Exchange}

theorem SameButSink.told (same : SameButSink x y) (text : String) :
    SameButSink (x.told text) (y.told text) := by
  obtain ⟨sink, written, rfl⟩ := same
  obtain ⟨_, _, left⟩ := told_eq x text
  obtain ⟨sink, written, right⟩ := told_eq { x with sink, written } text
  rw [left, right]
  exact ⟨sink, written, rfl⟩

theorem agree_setMediaType (mediaType : String) (same : SameButSink x y) :
    Agree SameButSink SameButSink (setMediaType mediaType x) (setMediaType mediaType y) := by
  obtain ⟨sink, written, rfl⟩ := same
  obtain ⟨_, head, phase⟩ := x
  cases phase with
  | pending => exact .ok ⟨sink, written, rfl⟩
  | sent => exact .error ⟨sink, written, rfl⟩

end Exchange

open Exchange (SameButSink)

/-- No template can tell to whom it is sent. -/
theorem Template.blind_sameButSink : Template.Blind SameButSink where
  parameters := by rintro x y ⟨sink, written, rfl⟩; rfl
  temporary := by rintro x y ⟨sink, written, rfl⟩; rfl
  attributes := by rintro x y ⟨sink, written, rfl⟩; rfl
  told text same := same.told text
  setMediaType mediaType same := Exchange.agree_setMediaType mediaType same
  setTemporary := by rintro x y _ _ ⟨sink, written, rfl⟩; exact ⟨sink, written, rfl⟩
  dropTemporary := by rintro x y _ ⟨sink, written, rfl⟩; exact ⟨sink, written, rfl⟩
  setAttribute := by rintro x y _ _ ⟨sink, written, rfl⟩; exact ⟨sink, written, rfl⟩
  dropAttribute := by rintro x y _ ⟨sink, written, rfl⟩; exact ⟨sink, written, rfl⟩

/-- The guarded run is the same as the free one, unless it crashes. -/
def Guards {ε σ α : Type} (guarded free : EStateM (Halt ε) σ α) : Prop :=
  ∀ s, guarded s = free s ∨ ∃ t, guarded s = .error .crashed t

section Guards

variable {ε σ α β : Type} {guarded free : EStateM (Halt ε) σ α}

theorem Guards.refl (run : EStateM (Halt ε) σ α) : Guards run run :=
  fun _ => .inl rfl

theorem Guards.bind {f g : α → EStateM (Halt ε) σ β} (first : Guards guarded free)
    (second : ∀ a, Guards (f a) (g a)) : Guards (guarded >>= f) (free >>= g) := by
  intro s
  simp only [Bind.bind, EStateM.bind]
  rcases first s with same | ⟨t, crashed⟩
  · rw [same]
    cases free s with
    | ok a t => exact second a t
    | error halt t => exact .inl rfl
  · rw [crashed]
    exact .inr ⟨t, rfl⟩

/-- A guarded run that does not crash is the free one. -/
theorem Guards.eq_of_not_crashed (guards : Guards guarded free) {s : σ}
    (safe : ∀ t, guarded s ≠ .error .crashed t) : guarded s = free s := by
  rcases guards s with same | ⟨t, crashed⟩
  · exact same
  · exact absurd crashed (safe t)

end Guards

namespace Template

/-- Each way of including guards the other one. -/
abbrev GuardsIncludes : Option Include → Option Include → Prop :=
  Option.Rel fun guarded free => ∀ path, Guards (guarded path) (free path)

namespace Eval

theorem guards_onExchange {α : Type} {guarded free : Run α} (guards : Guards guarded free) :
    Guards (onExchange guarded) (onExchange free) := by
  intro m
  simp only [onExchange]
  rcases guards m.exchange with same | ⟨x, crashed⟩
  · rw [same]
    exact .inl rfl
  · rw [crashed]
    exact .inr ⟨{ m with exchange := x }, rfl⟩

theorem guards_loopRound {guarded free : Eval Unit} (bodies : Guards guarded free) (counter : String)
    (stop step : Value) : Guards (loopRound counter stop step guarded) (loopRound counter stop step free) := by
  refine (Guards.refl (peek counter)).bind fun current => ?_
  refine (Guards.refl (ofExcept (current.numericCompare stop))).bind fun order => ?_
  split
  · exact .refl _
  · exact bodies.bind fun _ => .refl _

theorem guards_iterate {guarded free : Eval Bool} (each : Guards guarded free) (rounds : Nat) :
    Guards (iterate guarded rounds) (iterate free rounds) := by
  induction rounds with
  | zero => exact .refl _
  | succ rounds ih =>
    refine each.bind fun more => ?_
    cases more with
    | false => exact .refl _
    | true => exact ih

theorem guards_runLoop {guarded free : Eval Unit} (bodies : Guards guarded free) (rounds : Nat)
    (header : LoopHeader) : Guards (runLoop rounds header guarded) (runLoop rounds header free) := by
  refine (Guards.refl (operand header.start)).bind fun start => ?_
  refine (Guards.refl (operand header.stop)).bind fun stop => ?_
  refine (Guards.refl (loopStep header.step)).bind fun step => ?_
  refine (Guards.refl (requirePositive header.counter step)).bind fun _ => ?_
  refine (Guards.refl (push header.counter start)).bind fun _ => ?_
  exact (guards_iterate (guards_loopRound bodies header.counter stop step) rounds).bind fun _ => .refl _

section Includes

variable {left right : Option Include}

theorem guards_call (includes : GuardsIncludes left right) (f : Builtin) :
    Guards (call left f) (call right f) := by
  cases f with
  | binary f => exact .refl _
  | unary f =>
    refine (Guards.refl (pop echoStack)).bind fun a => ?_
    cases f with
    | sin | format | dup | mime | dropTemporary | dropAttribute => exact .refl _
    | includePath =>
      cases includes with
      | none => exact .refl _
      | some guards => exact guards_onExchange (guards a.render)

theorem guards_element (includes : GuardsIncludes left right) (e : Element) :
    Guards (element left e) (element right e) := by
  cases e with
  | literal text | reference name | operator symbol => exact .refl _
  | function name =>
    simp only [element]
    cases Builtin.ofName? name with
    | none => exact .refl _
    | some f => exact guards_call includes f

theorem guards_elements (includes : GuardsIncludes left right) (es : List Element) :
    Guards (elements left es) (elements right es) := by
  induction es with
  | nil => exact .refl _
  | cons e rest ih => exact (guards_element includes e).bind fun _ => ih

theorem guards_echo (includes : GuardsIncludes left right) (es : List Element) :
    Guards (echo left es) (echo right es) :=
  (guards_elements includes es).bind fun _ => .refl _

mutual

theorem guards_visit (includes : GuardsIncludes left right) (rounds : Nat) (node : Node) :
    Guards (visit ⟨left, rounds⟩ node) (visit ⟨right, rounds⟩ node) := by
  cases node with
  | text content => exact .refl _
  | echo es => exact guards_echo includes es
  | loop header body => exact guards_runLoop (guards_visitAll includes rounds body) rounds header

theorem guards_visitAll (includes : GuardsIncludes left right) (rounds : Nat) (nodes : List Node) :
    Guards (visitAll ⟨left, rounds⟩ nodes) (visitAll ⟨right, rounds⟩ nodes) := by
  cases nodes with
  | nil => exact .refl _
  | cons node rest =>
    exact (guards_visit includes rounds node).bind fun _ => guards_visitAll includes rounds rest

end

/-- A template whose includes are guarded is guarded itself. -/
theorem guards_execute (includes : GuardsIncludes left right) (rounds : Nat) (document : Document) :
    Guards (execute ⟨left, rounds⟩ document) (execute ⟨right, rounds⟩ document) := by
  intro m
  simp only [execute]
  rcases guards_visitAll includes rounds document m with same | ⟨n, crashed⟩
  · rw [same]
    exact .inl rfl
  · rw [crashed]
    exact .inr ⟨{ n with memory := ∅ }, rfl⟩

end Includes

/-- Two runs come to the same end: to one value or to one failure, with exchanges that are the same but for the
sink. -/
abbrev AgreeButSink {α : Type} :
    EStateM.Result (Halt ScriptError) Machine α → EStateM.Result (Halt ScriptError) Machine α → Prop :=
  Agree (fun s t => SameButSink s.exchange t.exchange) fun s t => SameButSink s.exchange t.exchange

end Eval

theorem guards_run {left right : Option Include} (includes : GuardsIncludes left right) (document : Document) :
    Guards (run { include? := left } document) (run { include? := right } document) := by
  intro x
  simp only [run]
  rcases Eval.guards_execute includes maxRounds document { exchange := x } with same | ⟨m, crashed⟩
  · rw [same]
    exact .inl rfl
  · rw [crashed]
    exact .inr ⟨m.exchange, rfl⟩

end Template

namespace Site

open Template (Document Machine)
open Template.Eval (AgreeButSink execute agree_execute guards_execute)

/-- Runs the template that a path leads to, or fails if the path leads nowhere. A handler or a file is a
crash. -/
def dispatchTemplate (site : Site) (includePath : Include) (path : String) : Run Unit :=
  match site.resolve path false with
  | .error e => throw (.failed e)
  | .ok (.template file) => site.runTemplate includePath file
  | .ok _ => throw .crashed

/-- Includes a template, at most `levels` inside one another. -/
def includeTemplate (site : Site) : Nat → Include
  | 0 => fun _ => throw .unfinished
  | levels + 1 => fun path x =>
    if maxIncludeDepth ≤ x.depth then .error (.failed (tooDeep path)) x
    else asInclude (site.dispatchTemplate (site.includeTemplate levels) path) x

/-- In this run of a template, each path that is included, by it or by an included template, leads to a
template or to nothing. -/
def IncludesTemplatesOnly (site : Site) (levels? : Option Nat) (rounds : Nat) (document : Document)
    (m : Machine) : Prop :=
  ∀ next, execute ⟨levels?.map site.includeTemplate, rounds⟩ document m ≠ .error .crashed next

theorem guards_asInclude {guarded free : Run Unit} (guards : Guards guarded free) :
    Guards (asInclude guarded) (asInclude free) := by
  intro x
  simp only [asInclude]
  rcases guards x.enterInclude with same | ⟨y, crashed⟩
  · rw [same]
    exact .inl rfl
  · rw [crashed]
    exact .inr ⟨y.leaveInclude, rfl⟩

theorem guards_runTemplate (site : Site) {guarded free : Include}
    (guards : ∀ path, Guards (guarded path) (free path)) (file : String) :
    Guards (site.runTemplate guarded file) (site.runTemplate free file) := by
  simp only [runTemplate]
  split
  · exact .refl _
  · split
    · exact .refl _
    · exact Template.guards_run (.some guards) _

theorem guards_dispatchTemplate (site : Site) {guarded free : Include}
    (guards : ∀ path, Guards (guarded path) (free path)) (path : String) :
    Guards (site.dispatchTemplate guarded path) (site.dispatchWith free path false) := by
  simp only [dispatchTemplate, dispatchWith]
  cases site.resolve path false with
  | error e => exact .refl _
  | ok target =>
    cases target with
    | template file => exact guards_runTemplate site guards file
    | handler handler => exact fun x => .inr ⟨x, rfl⟩
    | file file mediaType => exact fun x => .inr ⟨x, rfl⟩

theorem guards_includeTemplate (site : Site) (levels : Nat) (path : String) :
    Guards (site.includeTemplate levels path) (site.runInclude levels path) := by
  induction levels generalizing path with
  | zero => exact .refl _
  | succ levels ih =>
    intro x
    simp only [includeTemplate, runInclude]
    split
    · exact .inl rfl
    · exact guards_asInclude (guards_dispatchTemplate site ih path) x

variable {x y : Exchange}

theorem agree_dispatchTemplate (site : Site) {includePath : Include}
    (agree : ∀ path x y, SameButSink x y →
      Agree SameButSink SameButSink (includePath path x) (includePath path y))
    (path : String) (same : SameButSink x y) :
    Agree SameButSink SameButSink (site.dispatchTemplate includePath path x)
      (site.dispatchTemplate includePath path y) := by
  simp only [dispatchTemplate]
  cases site.resolve path false with
  | error e => exact .error same
  | ok target =>
    cases target with
    | template file => exact agree_runTemplate site Template.blind_sameButSink agree file same
    | handler | file => exact .error same

theorem agree_includeTemplate (site : Site) (levels : Nat) (path : String) (x y : Exchange)
    (same : SameButSink x y) :
    Agree SameButSink SameButSink (site.includeTemplate levels path x)
      (site.includeTemplate levels path y) := by
  induction levels generalizing path x y with
  | zero => exact .error same
  | succ levels ih =>
    have depth : y.depth = x.depth := by
      obtain ⟨sink, written, rfl⟩ := same
      rfl
    simp only [includeTemplate, depth]
    split
    · exact .error same
    · refine agree_asInclude (agree_dispatchTemplate site ih path ?_) ?_
      · obtain ⟨sink, written, rfl⟩ := same
        exact ⟨sink, written, rfl⟩
      · rintro x y ⟨sink, written, rfl⟩
        exact ⟨sink, written, rfl⟩

/-- What a template does, apart from its bytes, does not depend on its client: if its includes lead to
templates or to nothing, it comes to the same end for two exchanges that differ in their sinks and counters
alone, with the same result, and leaves exchanges that differ in these alone. -/
theorem execute_any_sink (site : Site) (levels? : Option Nat) (rounds : Nat) (document : Document)
    (memory : Stacks Template.Value) (x y : Exchange) (same : SameButSink x y)
    (only : site.IncludesTemplatesOnly levels? rounds document ⟨memory, x⟩) :
    AgreeButSink (execute ⟨levels?.map site.runInclude, rounds⟩ document ⟨memory, x⟩)
      (execute ⟨levels?.map site.runInclude, rounds⟩ document ⟨memory, y⟩) := by
  have includes : Template.SameIncludes SameButSink (levels?.map site.includeTemplate)
      (levels?.map site.includeTemplate) := by
    cases levels? with
    | none => exact .none
    | some levels => exact .some fun path x y => agree_includeTemplate site levels path x y
  have guarded : Template.GuardsIncludes (levels?.map site.includeTemplate) (levels?.map site.runInclude) := by
    cases levels? with
    | none => exact .none
    | some levels => exact .some fun path => guards_includeTemplate site levels path
  have agree := agree_execute Template.blind_sameButSink includes rounds document memory same
  have guards := guards_execute guarded rounds document
  -- the second run cannot meet a handler or a file either, since it came to the same end
  have onlyToo : site.IncludesTemplatesOnly levels? rounds document ⟨memory, y⟩ := by
    intro next crashed
    unfold IncludesTemplatesOnly at only
    rw [crashed] at agree
    generalize execute _ document ⟨memory, x⟩ = first at agree only
    cases agree with
    | error related => exact only _ rfl
  rwa [guards.eq_of_not_crashed only, guards.eq_of_not_crashed onlyToo] at agree

/-- A template that sets the media type, includes another one, keeps an attribute and fails for an include
that leads nowhere, for a client that takes everything and for one that takes three bytes and fails to
flush. -/
theorem execute_any_sink_cut :
    let source := "<% for i = 1 to 2 %><%= $i %><% end %>"
    let site : Site := { files := .ofList [("www/part.tmpl", Text.encode source)] }
    let document : Document :=
      [.echo [.literal "text/plain", .function "mime"], .echo [.literal "/part.tmpl", .function "include"],
        .echo [.literal "seen", .literal "1", .function "session.set"],
        .echo [.literal "/none", .function "include"]]
    let x : Exchange := .blank
    let y : Exchange := { x with sink := { limit := some 3, flushFails := true }, written := 7 }
    SameButSink x y ∧ site.IncludesTemplatesOnly (some 3) 10 document ⟨∅, x⟩ ∧
      AgreeButSink (execute ⟨some (site.runInclude 3), 10⟩ document ⟨∅, x⟩)
        (execute ⟨some (site.runInclude 3), 10⟩ document ⟨∅, y⟩) := by
  intro source site document x y
  have same : SameButSink x y := ⟨_, _, rfl⟩
  have calm : (match execute ⟨some (site.includeTemplate 3), 10⟩ document ⟨∅, x⟩ with
      | .error .crashed _ => false
      | _ => true) = true := by
    decide +kernel
  have only : site.IncludesTemplatesOnly (some 3) 10 document ⟨∅, x⟩ := by
    intro next crashed
    simp only [Option.map_some] at crashed
    rw [crashed] at calm
    contradiction
  exact ⟨same, only, execute_any_sink site (some 3) 10 document ∅ x y same only⟩

end Site

end PageServer
