import PageServer.Handler.Action
import PageServer.Proofs.Exchange.Output

/-! # Runs of actions on an exchange

The actions that an exchange answers by itself can come in any order, and each is performed whether or
not those before it succeeded. A run of them is accounted for by a transcript: the header block as it
stood before the first output, and the bodies of all writes behind it. Each step is proved from the
inversion lemmas, and the run by induction on its actions; `accounted_of_own` puts them together.
-/

namespace PageServer

namespace Action

/-- Whether an exchange answers the action by itself, and runs no other path or template for it. -/
def isOwn : Action → Bool
  | .includePath _ | .runTemplate _ => false
  | _ => true

/-- Whether the action sets a header field. -/
def isSetter : Action → Bool
  | .setStatus _ | .setStatusWithReason _ _ | .setMediaType _ | .setEncoding _
  | .setContentLength _ | .setCookies _ | .addCookie _ => true
  | _ => false

/-- The body bytes of an output. To end the response is an output without a body. -/
def output? : Action → Option Bytes
  | .write bytes => some bytes
  | .writeText text => some (Text.encode text)
  | .finish => some []
  | _ => none

def body (action : Action) : Bytes :=
  action.output?.getD []

variable (include? : Option Include)

/-- The exchange after an action, whether it succeeded or failed. -/
def after (action : Action) (x : Exchange) : Exchange :=
  match action.perform include? x with
  | .ok _ next => next
  | .error _ next => next

def succeeds (action : Action) (x : Exchange) : Bool :=
  match action.perform include? x with
  | .ok _ _ => true
  | .error _ _ => false

variable {action : Action}

/-- A header field is set by a change of the head, and by nothing else. -/
theorem perform_setter (setter : action.isSetter) :
    ∃ change, action.perform include? = quietly (Exchange.modifyHead change) := by
  cases action <;> first | exact ⟨_, rfl⟩ | contradiction

theorem quietly_ok {step : Exchange.Step Unit} {x next : Exchange} (ok : step x = .ok () next) :
    quietly step x = .ok .nothing next := by
  simp only [quietly, bind, EStateM.bind, Exchange.Step.run, ok]
  rfl

theorem quietly_error {step : Exchange.Step Unit} {x next : Exchange} {e : ServerError}
    (failed : step x = .error e next) : quietly step x = .error (.failed e) next := by
  simp only [quietly, bind, EStateM.bind, Exchange.Step.run, failed]

private theorem after_write {bytes : Bytes}
    (performs : action.perform include? = quietly (Exchange.write bytes)) (x : Exchange) :
    ∃ sink, x.sink.Took (x.owed ++ bytes) sink ∧ action.after include? x =
      { x with
        phase := .sent, sink
        written := x.written + if action.succeeds include? x then bytes.length else 0 } := by
  obtain ⟨sink, took, ok | ⟨e, failed⟩⟩ := x.write_cases bytes
  · refine ⟨sink, took, ?_⟩
    simp only [after, succeeds, performs, quietly_ok ok, ↓reduceIte]
  · refine ⟨sink, took, ?_⟩
    simp only [after, succeeds, performs, quietly_error failed, Bool.false_eq_true, ↓reduceIte,
      Nat.add_zero]

/-- An output sends what is owed of the header and then its body, and counts the body exactly if it
succeeds. -/
theorem after_output {bytes : Bytes} (output : action.output? = some bytes) (x : Exchange) :
    ∃ sink, x.sink.Took (x.owed ++ bytes) sink ∧ action.after include? x =
      { x with
        phase := .sent, sink
        written := x.written + if action.succeeds include? x then bytes.length else 0 } := by
  cases action with
  | write content =>
    cases output
    exact after_write include? rfl x
  | writeText text =>
    cases output
    exact after_write include? rfl x
  | finish =>
    cases output
    obtain ⟨sink, took, ends⟩ := x.finish_cases
    refine ⟨sink, by rwa [List.append_nil], ?_⟩
    rcases ends with ok | ⟨e, failed⟩
    · simp only [after, perform, quietly_ok ok, List.length_nil, ite_self, Nat.add_zero]
    · simp only [after, perform, quietly_error failed, List.length_nil, ite_self, Nat.add_zero]
  | _ => contradiction

/-- A header setter changes the head before the header is sent, and nothing at all afterwards. -/
theorem perform_setter_pending (setter : action.isSetter) {x : Exchange} (pending : x.phase = .pending) :
    action.perform include? x = .ok .nothing { x with head := (action.after include? x).head } := by
  obtain ⟨change, performs⟩ := perform_setter include? setter
  have ok : Exchange.modifyHead change x = .ok () { x with head := change x.head } := by
    simp only [Exchange.modifyHead, pending]
  simp only [after, performs, quietly_ok ok]

theorem perform_setter_sent (setter : action.isSetter) {x : Exchange} (sent : x.phase = .sent) :
    action.perform include? x = .error (.failed .headerAlreadySent) x := by
  obtain ⟨change, performs⟩ := perform_setter include? setter
  have failed : Exchange.modifyHead change x = .error .headerAlreadySent x := by
    simp only [Exchange.modifyHead, sent]
  rw [performs, quietly_error failed]

/-- An action sends something, or sets a field of a head that may have been sent, or does neither. -/
theorem after_cases (action : Action) (x : Exchange) :
    (∃ bytes, action.output? = some bytes ∧
        ∃ sink written, action.after include? x = { x with phase := .sent, sink, written }) ∨
      (∃ head, action.after include? x = { x with head } ∧ action.isSetter ∧
        (x.phase = .sent → head = x.head)) ∨
      action.output? = none ∧ ¬ action.isSetter := by
  cases output : action.output? with
  | some bytes =>
    obtain ⟨sink, -, same⟩ := after_output include? output x
    exact .inl ⟨bytes, rfl, sink, _, same⟩
  | none =>
    by_cases setter : action.isSetter
    · by_cases sent : x.phase = .sent
      · have same : action.after include? x = x := by rw [after, perform_setter_sent include? setter sent]
        exact .inr (.inl ⟨x.head, same, setter, fun _ => rfl⟩)
      · have pending : x.phase = .pending := by
          cases phase : x.phase with
          | pending => rfl
          | sent => exact absurd phase sent
        obtain ⟨head, performed⟩ : ∃ head, action.perform include? x = .ok .nothing { x with head } :=
          ⟨_, perform_setter_pending include? setter pending⟩
        have same : action.after include? x = { x with head } := by rw [after, performed]
        exact .inr (.inl ⟨head, same, setter, fun gone => absurd gone sent⟩)
    · exact .inr (.inr ⟨rfl, setter⟩)

/-- An action without output leaves the sink, the phase and the count alone. -/
theorem after_quiet (own : action.isOwn) (quiet : action.output? = none) (x : Exchange) :
    (action.after include? x).sink = x.sink ∧ (action.after include? x).phase = x.phase ∧
      (action.after include? x).written = x.written := by
  rcases after_cases include? action x with ⟨bytes, output, -⟩ | ⟨head, same, -⟩ | ⟨-, setter⟩
  · rw [quiet] at output
    contradiction
  · rw [same]
    exact ⟨rfl, rfl, rfl⟩
  · cases action <;> first | exact ⟨rfl, rfl, rfl⟩ | contradiction

end Action

namespace Exchange

variable (include? : Option Include)

/-- The exchange after actions were performed in order, each whether or not those before it
succeeded. -/
def afterAll (x : Exchange) (actions : List Action) : Exchange :=
  actions.foldl (fun x action => action.after include? x) x

/-- What the response consists of after the actions: nothing before the first output, and from then on
the header block as it stood there and the bodies of all writes. -/
def transcript (x : Exchange) (actions : List Action) : Bytes :=
  if actions.any (·.output?.isSome) then
    Text.encode (x.afterAll include? (actions.takeWhile (·.output?.isNone))).head.render ++
      actions.flatMap Action.body
  else []

def succeededBytes (x : Exchange) : List Action → Nat
  | [] => 0
  | action :: rest =>
    (if action.succeeds include? x then action.body.length else 0) +
      succeededBytes (action.after include? x) rest

/-- What a response has come to after the actions, on a sink that takes `limit` bytes in total. -/
structure Accounted (limit : Option Nat) (x : Exchange) (actions : List Action) : Prop where
  /-- The sink stores the transcript, as far as it can. -/
  stored : (x.afterAll include? actions).sink.bytes = Sink.clip limit (x.transcript include? actions)
  /-- The header counts as sent from the first output on. -/
  sent : (x.afterAll include? actions).phase = .sent ↔ ∃ action ∈ actions, action.output?.isSome
  /-- It never counts as pending again. -/
  stays : ∀ earlier, earlier <+: actions → (x.afterAll include? earlier).phase = .sent →
    (x.afterAll include? actions).phase = .sent
  /-- Before the header is sent, a header field can be set, which changes nothing but the head. -/
  settable : (x.afterAll include? actions).phase = .pending → ∀ setter : Action, setter.isSetter →
    setter.perform include? (x.afterAll include? actions) = .ok .nothing
      { x.afterAll include? actions with
        head := (setter.after include? (x.afterAll include? actions)).head }
  /-- Afterwards it is refused, and changes nothing. -/
  locked : (x.afterAll include? actions).phase = .sent → ∀ setter : Action, setter.isSetter →
    setter.perform include? (x.afterAll include? actions) =
      .error (.failed .headerAlreadySent) (x.afterAll include? actions)
  /-- The bytes of the writes that succeeded are counted. -/
  written : (x.afterAll include? actions).written = x.succeededBytes include? actions

@[simp] theorem afterAll_nil (x : Exchange) : x.afterAll include? [] = x := rfl

@[simp] theorem afterAll_cons (x : Exchange) (action : Action) (rest : List Action) :
    x.afterAll include? (action :: rest) = (action.after include? x).afterAll include? rest := rfl

/-- Once the header is sent, the transcript grows by the bodies alone. -/
theorem took_afterAll_of_sent {actions : List Action} (own : ∀ action ∈ actions, action.isOwn)
    {x : Exchange} (sent : x.phase = .sent) :
    x.sink.Took (actions.flatMap Action.body) (x.afterAll include? actions).sink := by
  induction actions generalizing x with
  | nil => exact Sink.Took.refl x.sink
  | cons action rest ih =>
    obtain ⟨ownFirst, ownRest⟩ := List.forall_mem_cons.mp own
    rw [List.flatMap_cons, afterAll_cons]
    cases output : action.output? with
    | none =>
      obtain ⟨sink, phase, -⟩ := Action.after_quiet include? ownFirst output x
      have tail := ih ownRest (phase.trans sent)
      rw [sink] at tail
      simpa only [Action.body, output, Option.getD_none, List.nil_append] using tail
    | some bytes =>
      obtain ⟨sink, took, after⟩ := Action.after_output include? output x
      have tail := ih (x := action.after include? x) ownRest (by rw [after])
      have owed : x.owed = [] := by simp only [Exchange.owed, sent]
      rw [owed, List.nil_append] at took
      rw [after] at tail ⊢
      simpa only [Action.body, output, Option.getD_some] using took.trans tail

theorem transcript_cons_quiet {action : Action} (quiet : action.output? = none) (x : Exchange)
    (rest : List Action) :
    x.transcript include? (action :: rest) = (action.after include? x).transcript include? rest := by
  simp only [transcript, List.any_cons, quiet, Option.isSome_none, Bool.false_or, Option.isNone_none,
    List.takeWhile_cons_of_pos, afterAll_cons, List.flatMap_cons, Action.body, Option.getD_none,
    List.nil_append]

theorem transcript_cons_output {action : Action} {bytes : Bytes}
    (output : action.output? = some bytes) (x : Exchange) (rest : List Action) :
    x.transcript include? (action :: rest) =
      Text.encode x.head.render ++ (bytes ++ rest.flatMap Action.body) := by
  simp only [transcript, List.any_cons, output, Option.isSome_some, Bool.true_or, ↓reduceIte,
    Option.isNone_some, List.takeWhile_cons, Bool.false_eq_true, afterAll_nil, List.flatMap_cons,
    Action.body, Option.getD_some]

/-- Before the header is sent, what the sink is given is the transcript. -/
theorem took_afterAll_of_pending {actions : List Action} (own : ∀ action ∈ actions, action.isOwn)
    {x : Exchange} (pending : x.phase = .pending) :
    x.sink.Took (x.transcript include? actions) (x.afterAll include? actions).sink := by
  induction actions generalizing x with
  | nil => exact Sink.Took.refl x.sink
  | cons action rest ih =>
    obtain ⟨ownFirst, ownRest⟩ := List.forall_mem_cons.mp own
    rw [afterAll_cons]
    cases output : action.output? with
    | none =>
      obtain ⟨sink, phase, -⟩ := Action.after_quiet include? ownFirst output x
      rw [transcript_cons_quiet include? output, ← sink]
      exact ih ownRest (phase.trans pending)
    | some bytes =>
      obtain ⟨sink, took, after⟩ := Action.after_output include? output x
      have tail := took_afterAll_of_sent include? (x := action.after include? x) ownRest
        (by rw [after])
      have owed : x.owed = Text.encode x.head.render := by simp only [Exchange.owed, pending]
      rw [transcript_cons_output include? output, ← List.append_assoc, ← owed]
      rw [after] at tail ⊢
      exact took.trans tail

/-- Exactly an output sends the header. -/
theorem phase_afterAll {actions : List Action} (own : ∀ action ∈ actions, action.isOwn)
    (x : Exchange) : (x.afterAll include? actions).phase =
      if actions.any (·.output?.isSome) then .sent else x.phase := by
  induction actions generalizing x with
  | nil => rfl
  | cons action rest ih =>
    obtain ⟨ownFirst, ownRest⟩ := List.forall_mem_cons.mp own
    rw [afterAll_cons, ih ownRest, List.any_cons]
    cases output : action.output? with
    | none =>
      obtain ⟨-, phase, -⟩ := Action.after_quiet include? ownFirst output x
      rw [phase, Option.isSome_none, Bool.false_or]
    | some bytes =>
      obtain ⟨sink, -, after⟩ := Action.after_output include? output x
      rw [after, Option.isSome_some, Bool.true_or, if_pos rfl, ite_self]

theorem written_afterAll {actions : List Action} (own : ∀ action ∈ actions, action.isOwn)
    (x : Exchange) :
    (x.afterAll include? actions).written = x.written + x.succeededBytes include? actions := by
  induction actions generalizing x with
  | nil => rfl
  | cons action rest ih =>
    obtain ⟨ownFirst, ownRest⟩ := List.forall_mem_cons.mp own
    rw [afterAll_cons, ih ownRest, succeededBytes]
    cases output : action.output? with
    | none =>
      obtain ⟨-, -, written⟩ := Action.after_quiet include? ownFirst output x
      simp only [written, Action.body, output, Option.getD_none, List.length_nil, ite_self, Nat.zero_add]
    | some bytes =>
      obtain ⟨sink, -, after⟩ := Action.after_output include? output x
      simp only [after, Action.body, output, Option.getD_some, Nat.add_assoc]

/-- From a pending header on, the header is sent exactly if there was an output. -/
theorem phase_afterAll_eq_sent_iff {actions : List Action}
    (own : ∀ action ∈ actions, action.isOwn) {x : Exchange} (pending : x.phase = .pending) :
    (x.afterAll include? actions).phase = .sent ↔ ∃ action ∈ actions, action.output?.isSome := by
  rw [phase_afterAll include? own, pending, ← List.any_eq_true]
  split
  · next output => exact ⟨fun _ => output, fun _ => rfl⟩
  · next quiet => exact ⟨fun sent => (nomatch sent), fun output => (quiet output).elim⟩

/-- An exchange to which nothing has happened, on a sink that takes `limit` bytes in total. -/
def unstarted (limit : Option Nat) (flushFails : Bool) (head : Http.ResponseHead)
    (parameters : Scope) (session : Session) : Exchange :=
  { sink := { limit, flushFails }, head, parameters, session }

/-- An exchange accounts for any actions of its own, in any order and on any sink. -/
theorem accounted_of_own (include? : Option Include) (limit : Option Nat) (flushFails : Bool)
    (head : Http.ResponseHead) (parameters : Scope) (session : Session) (actions : List Action)
    (own : ∀ action ∈ actions, action.isOwn) :
    Accounted include? limit (unstarted limit flushFails head parameters session) actions := by
  have pending : (unstarted limit flushFails head parameters session).phase = .pending := rfl
  constructor
  case stored =>
    obtain ⟨bound, took⟩ := took_afterAll_of_pending include? own pending
    have empty : (unstarted limit flushFails head parameters session).sink.Keeps [] := by
      cases limit with
      | none => rfl
      | some n => exact List.take_nil.symm
    have kept := took [] empty
    rwa [Sink.Keeps, bound, List.nil_append] at kept
  case sent => exact phase_afterAll_eq_sent_iff include? own pending
  case stays =>
    intro earlier start sent
    have ownStart : ∀ action ∈ earlier, action.isOwn := fun action member =>
      own action (start.subset member)
    obtain ⟨action, member, output⟩ := (phase_afterAll_eq_sent_iff include? ownStart pending).mp sent
    exact (phase_afterAll_eq_sent_iff include? own pending).mpr ⟨action, start.subset member, output⟩
  case settable => exact fun pending setter is => Action.perform_setter_pending include? is pending
  case locked => exact fun sent setter is => Action.perform_setter_sent include? is sent
  case written => rw [written_afterAll include? own, unstarted, Nat.zero_add]

/-- The sink gives out inside the header, and a setter comes too late. -/
theorem accounted_header_cut :
    let actions : List Action :=
      [.setStatus 404, .writeText "no", .setStatus 200, .setTemporary "a" "b", .finish, .write [1, 2]]
    (∀ action ∈ actions, action.isOwn) ∧
      Accounted none (some 20) (unstarted (some 20) true ⟨200, "OK", "text/html", "UTF-8", none, []⟩ ∅
        ⟨"", "localhost", 0, ∅⟩) actions :=
  ⟨by decide, accounted_of_own none (some 20) true _ ∅ _ _ (by decide)⟩

end Exchange

end PageServer
