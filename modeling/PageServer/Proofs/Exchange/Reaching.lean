import PageServer.Proofs.Exchange.ActionRun

/-! # What work can do to an exchange

Whatever works on an exchange does nothing but perform actions that the exchange answers by itself, since
what it includes works on the same exchange. So the exchange that is left is reached by such actions
(`Exchange.Reaches`), however the work ends (`Performs`).

On a sink that never fails, an exchange that is reached has either sent nothing yet, or it has sent one
header block, which is its own, and the bodies of the writes behind it (`Reaches.responded`).
-/

namespace PageServer

namespace Action

variable {action : Action}

theorem perform_of_own (own : action.isOwn) (include? : Option Include) :
    action.perform include? = action.perform none := by
  cases action <;> first | rfl | contradiction

/-- An action of its own either is answered or fails in a way that can be reported. -/
theorem perform_cases (own : action.isOwn) (include? : Option Include) (x : Exchange) :
    (∃ reply, action.perform include? x = .ok reply (action.after none x)) ∨
      ∃ e, action.perform include? x = .error (.failed e) (action.after none x) := by
  have quiet (step : Exchange.Step Unit) (performs : action.perform none = quietly step) :
      (∃ reply, action.perform none x = .ok reply (action.after none x)) ∨
        ∃ e, action.perform none x = .error (.failed e) (action.after none x) := by
    cases ran : step x with
    | ok _ y =>
      have done := quietly_ok ran
      rw [← performs] at done
      exact .inl ⟨.nothing, by rw [after, done]⟩
    | error e y =>
      have failed := quietly_error ran
      rw [← performs] at failed
      exact .inr ⟨e, by rw [after, failed]⟩
  rw [perform_of_own own]
  cases action with
  | includePath | runTemplate => contradiction
  | write | writeText | finish | setStatus | setStatusWithReason | setMediaType | setEncoding
  | setContentLength | setCookies | addCookie => exact quiet _ rfl
  | _ => exact .inl ⟨_, rfl⟩

theorem after_quietly {step : Exchange.Step Unit} (performs : action.perform none = quietly step)
    {x y : Exchange} (ran : step x = .ok () y) : action.after none x = y := by
  rw [after, performs, quietly_ok ran]

/-- Whether the action is also performed where no handler asks for it: by templates, files and includes,
and at the end of a request. -/
def isPlain : Action → Bool
  | .write _ | .writeText _ | .finish | .setStatus _ | .setMediaType _ | .setContentLength _
  | .setTemporary _ _ | .dropTemporary _ | .setAttribute _ _ | .dropAttribute _ | .enterInclude
  | .leaveInclude => true
  | _ => false

/-- Whether the action declares that an include begins or is over. -/
def changesDepth : Action → Bool
  | .enterInclude | .leaveInclude => true
  | _ => false

/-- No other action of an exchange changes the depth. -/
theorem depth_after (own : action.isOwn) (steady : ¬ action.changesDepth) (x : Exchange) :
    (action.after none x).depth = x.depth := by
  rcases after_cases none action x with ⟨_, -, _, _, same⟩ | ⟨_, same, -⟩ | ⟨output, setter⟩
  · rw [same]
  · rw [same]
  · cases action <;> first | rfl | contradiction

/-- No action of an exchange changes the parameters. -/
theorem parameters_after (own : action.isOwn) (x : Exchange) :
    (action.after none x).parameters = x.parameters := by
  rcases after_cases none action x with ⟨_, -, _, _, same⟩ | ⟨_, same, -⟩ | ⟨output, setter⟩
  · rw [same]
  · rw [same]
  · cases action <;> first | rfl | contradiction

/-- Only a header setter changes the head, and only before the head is sent. -/
theorem head_after_cases (own : action.isOwn) (x : Exchange) :
    (action.after none x).head = x.head ∨ action.isSetter ∧ x.phase = .pending := by
  rcases after_cases none action x with ⟨_, -, _, _, same⟩ | ⟨_, same, setter, kept⟩ | ⟨output, setter⟩
  · exact .inl (by rw [same])
  · cases phase : x.phase with
    | pending => exact .inr ⟨setter, rfl⟩
    | sent => exact .inl (by rw [same, kept phase])
  · left
    cases action <;> first | rfl | contradiction

end Action

namespace Exchange

/-- The second exchange is the first one after allowed actions that it answers by itself. -/
def Reaches (allowed : Action → Prop) (x y : Exchange) : Prop :=
  ∃ actions : List Action, (∀ action ∈ actions, action.isOwn ∧ allowed action) ∧
    y = x.afterAll none actions

variable {allowed : Action → Prop} {x y z : Exchange}

theorem afterAll_append (include? : Option Include) (x : Exchange) (first second : List Action) :
    x.afterAll include? (first ++ second) = (x.afterAll include? first).afterAll include? second :=
  List.foldl_append

theorem Reaches.refl (x : Exchange) : x.Reaches allowed x :=
  ⟨[], List.forall_mem_nil _, rfl⟩

theorem Reaches.trans (first : x.Reaches allowed y) (second : y.Reaches allowed z) :
    x.Reaches allowed z := by
  obtain ⟨before, ownBefore, rfl⟩ := first
  obtain ⟨behind, ownBehind, rfl⟩ := second
  refine ⟨before ++ behind, ?_, (afterAll_append none x before behind).symm⟩
  exact List.forall_mem_append.mpr ⟨ownBefore, ownBehind⟩

theorem Reaches.imp {other : Action → Prop} (weaker : ∀ action, allowed action → other action)
    (reaches : x.Reaches allowed y) : x.Reaches other y := by
  obtain ⟨actions, own, rfl⟩ := reaches
  exact ⟨actions, fun action member => (own action member).imp_right (weaker action), rfl⟩

theorem reaches_after (action : Action) (own : action.isOwn) (may : allowed action) (x : Exchange) :
    x.Reaches allowed (action.after none x) :=
  ⟨[action], List.forall_mem_singleton.mpr ⟨own, may⟩, rfl⟩

/-- What every allowed action keeps is kept. -/
theorem Reaches.induction {motive : Exchange → Prop} (reaches : x.Reaches allowed y) (start : motive x)
    (step : ∀ action x, action.isOwn → allowed action → motive x → motive (action.after none x)) :
    motive y := by
  obtain ⟨actions, own, rfl⟩ := reaches
  induction actions generalizing x with
  | nil => exact start
  | cons action rest ih =>
    obtain ⟨⟨ownFirst, may⟩, ownRest⟩ := List.forall_mem_cons.mp own
    exact ih (step action x ownFirst may start) ownRest

/-- Once the header block is sent, the head stays as it was sent. -/
theorem head_after_of_sent {action : Action} (own : action.isOwn) (sent : x.phase = .sent) :
    (action.after none x).head = x.head := by
  rcases Action.head_after_cases own x with same | ⟨-, pending⟩
  · exact same
  · rw [sent] at pending
    contradiction

/-- An exchange that is reached from one that has sent nothing has still sent nothing, or it has given the
sink one header block, which is its own, and something behind it. -/
theorem Reaches.took (reaches : x.Reaches allowed y) (pending : x.phase = .pending) :
    y.phase = .pending ∧ x.sink.Took [] y.sink ∨
      y.phase = .sent ∧ ∃ body, x.sink.Took (Text.encode y.head.render ++ body) y.sink := by
  refine reaches.induction (motive := fun z => z.phase = .pending ∧ x.sink.Took [] z.sink ∨
    z.phase = .sent ∧ ∃ body, x.sink.Took (Text.encode z.head.render ++ body) z.sink)
    (.inl ⟨pending, Sink.Took.refl x.sink⟩) fun action z own _ took => ?_
  cases output : action.output? with
  | none =>
    obtain ⟨sink, phase, -⟩ := Action.after_quiet none own output z
    rw [sink, phase]
    rcases took with ⟨still, nothing⟩ | ⟨sent, body, given⟩
    · exact .inl ⟨still, nothing⟩
    · rw [head_after_of_sent own sent]
      exact .inr ⟨sent, body, given⟩
  | some bytes =>
    obtain ⟨sink, more, after⟩ := Action.after_output none output z
    rw [after]
    right
    rcases took with ⟨still, nothing⟩ | ⟨sent, body, given⟩
    · have owed : z.owed = Text.encode z.head.render := by simp only [Exchange.owed, still]
      rw [owed] at more
      exact ⟨rfl, bytes, nothing.trans more⟩
    · have owed : z.owed = [] := by simp only [Exchange.owed, sent]
      rw [owed] at more
      refine ⟨rfl, body ++ bytes, ?_⟩
      rw [← List.append_assoc]
      exact given.trans more

end Exchange

section

variable {ε σ α β : Type}

/-- Work that began on the exchange left one that is reached by allowed actions, and crashed only if it
may. -/
def Leaves (exchange : σ → Exchange) (allowed : Action → Prop) (crash : Prop) (x : Exchange) :
    EStateM.Result (Halt ε) σ α → Prop
  | .ok _ t => x.Reaches allowed (exchange t)
  | .error halt t => x.Reaches allowed (exchange t) ∧ (halt = .crashed → crash)

/-- Wherever the work begins, it performs allowed actions, and crashes only if it may. -/
def Performs (exchange : σ → Exchange) (allowed : Action → Prop) (crash : Prop)
    (work : EStateM (Halt ε) σ α) : Prop :=
  ∀ s, Leaves exchange allowed crash (exchange s) (work s)

variable {exchange : σ → Exchange} {allowed : Action → Prop} {crash : Prop}

theorem Performs.of_ok {work : EStateM (Halt ε) σ α} (performs : Performs exchange allowed crash work)
    {s t : σ} {a : α} (ran : work s = .ok a t) : (exchange s).Reaches allowed (exchange t) := by
  have left := performs s
  rwa [ran] at left

theorem Performs.of_error {work : EStateM (Halt ε) σ α} (performs : Performs exchange allowed crash work)
    {s t : σ} {halt : Halt ε} (ran : work s = .error halt t) :
    (exchange s).Reaches allowed (exchange t) ∧ (halt = .crashed → crash) := by
  have left := performs s
  rwa [ran] at left

theorem Leaves.of_reaches {x y : Exchange} {result : EStateM.Result (Halt ε) σ α}
    (left : Leaves exchange allowed crash y result) (before : x.Reaches allowed y) :
    Leaves exchange allowed crash x result := by
  cases result with
  | ok a t => exact before.trans left
  | error halt t => exact ⟨before.trans left.1, left.2⟩

theorem Performs.bind {first : EStateM (Halt ε) σ α} {second : α → EStateM (Halt ε) σ β}
    (start : Performs exchange allowed crash first)
    (rest : ∀ a, Performs exchange allowed crash (second a)) :
    Performs exchange allowed crash (first >>= second) := by
  intro s
  simp only [Bind.bind, EStateM.bind]
  cases ran : first s with
  | error halt t => exact start.of_error ran
  | ok a t => exact (rest a t).of_reaches (start.of_ok ran)

theorem performs_pure (a : α) : Performs exchange allowed crash (pure a : EStateM (Halt ε) σ α) :=
  fun s => .refl (exchange s)

theorem performs_throw {halt : Halt ε} (crashes : halt = .crashed → crash) :
    Performs exchange allowed crash (throw halt : EStateM (Halt ε) σ α) :=
  fun s => ⟨.refl (exchange s), crashes⟩

/-- An action of its own, as a piece of work. -/
theorem performs_action {action : Action} (own : action.isOwn) (may : allowed action)
    (include? : Option Include) : Performs id allowed crash (action.perform include?) := by
  intro x
  have reached := Exchange.reaches_after action own may x
  obtain ⟨reply, ran⟩ | ⟨e, ran⟩ := Action.perform_cases own include? x
  · rw [ran]
    exact reached
  · rw [ran]
    exact ⟨reached, nofun⟩

/-- The step of an exchange that an action consists of. -/
theorem performs_step (action : Action) (own : action.isOwn) (may : allowed action)
    {step : Exchange.Step Unit} (consists : action.perform none = Action.quietly step) :
    Performs id allowed crash step.run := by
  intro x
  have reached : Performs id allowed crash (Action.quietly step) := consists ▸ performs_action own may none
  simp only [Exchange.Step.run]
  cases ran : step x with
  | ok _ y => exact reached.of_ok (Action.quietly_ok ran)
  | error e y => exact reached.of_error (Action.quietly_error ran)

end

/-- The sink takes all bytes and can be flushed. -/
def Sink.Reliable (sink : Sink) : Prop :=
  sink.limit = none ∧ sink.flushFails = false

namespace Sink

variable {sink : Sink}

theorem write_of_reliable (reliable : sink.Reliable) (bytes : Bytes) :
    ∃ next, write bytes sink = .ok () next ∧ next.Reliable ∧ next.bytes = sink.bytes ++ bytes := by
  obtain ⟨unlimited, flushes⟩ := reliable
  have room : sink.hasRoom bytes = true := by rw [hasRoom, unlimited]
  have fits : sink.fitting bytes = bytes := by rw [fitting, unlimited]
  refine ⟨sink.store bytes, by rw [write, if_pos room], ⟨unlimited, flushes⟩, ?_⟩
  rw [bytes_store, fits]

theorem flush_of_reliable (reliable : sink.Reliable) :
    ∃ next, flush sink = .ok () next ∧ next.Reliable ∧ next.bytes = sink.bytes := by
  refine ⟨{ sink with flushes := sink.flushes + 1 }, ?_, reliable, rfl⟩
  simp only [flush, reliable.2, Bool.false_eq_true, ↓reduceIte]

end Sink

namespace Exchange

variable {x : Exchange}

theorem sendHeader_of_reliable (reliable : x.sink.Reliable) :
    ∃ sink, sendHeader x = .ok () { x with phase := .sent, sink } ∧ sink.Reliable ∧
      sink.bytes = x.sink.bytes ++ x.owed := by
  obtain ⟨sink, head, phase⟩ := x
  cases phase with
  | sent => exact ⟨sink, rfl, reliable, (List.append_nil _).symm⟩
  | pending =>
    obtain ⟨next, wrote, still, stored⟩ := Sink.write_of_reliable reliable (Text.encode head.render)
    exact ⟨next, by simp only [sendHeader, onSink, wrote], still, stored⟩

theorem write_of_reliable (reliable : x.sink.Reliable) (bytes : Bytes) :
    ∃ sink, write bytes x =
        .ok () { x with phase := .sent, sink, written := x.written + bytes.length } ∧
      sink.Reliable ∧ sink.bytes = x.sink.bytes ++ (x.owed ++ bytes) := by
  obtain ⟨first, sent, reliable₁, header⟩ := sendHeader_of_reliable reliable
  obtain ⟨second, wrote, reliable₂, body⟩ := Sink.write_of_reliable reliable₁ bytes
  obtain ⟨last, flushed, reliable₃, same⟩ := Sink.flush_of_reliable reliable₂
  refine ⟨last, ?_, reliable₃, by rw [same, body, header, List.append_assoc]⟩
  simp only [write, bind, EStateM.bind, sent, onSink, wrote, flushed, countWritten]
  rfl

theorem finish_of_reliable (reliable : x.sink.Reliable) :
    ∃ sink, finish x = .ok () { x with phase := .sent, sink } ∧ sink.Reliable ∧
      sink.bytes = x.sink.bytes ++ x.owed := by
  obtain ⟨first, sent, reliable₁, header⟩ := sendHeader_of_reliable reliable
  obtain ⟨last, flushed, reliable₂, same⟩ := Sink.flush_of_reliable reliable₁
  refine ⟨last, ?_, reliable₂, by rw [same, header]⟩
  simp only [finish, bind, EStateM.bind, sent, onSink, flushed]

/-- An output is stored whole, and changes nothing of the head. -/
theorem after_output_of_reliable {action : Action} {bytes : Bytes}
    (output : action.output? = some bytes) (reliable : x.sink.Reliable) :
    (action.after none x).sink.Reliable ∧ (action.after none x).phase = .sent ∧
      (action.after none x).head = x.head ∧
      (action.after none x).sink.bytes = x.sink.bytes ++ (x.owed ++ bytes) := by
  cases action with
  | write | writeText =>
    cases output
    obtain ⟨sink, wrote, still, stored⟩ := write_of_reliable reliable _
    rw [Action.after_quietly rfl wrote]
    exact ⟨still, rfl, rfl, stored⟩
  | finish =>
    cases output
    obtain ⟨sink, finished, still, stored⟩ := finish_of_reliable reliable
    rw [Action.after_quietly rfl finished, List.append_nil]
    exact ⟨still, rfl, rfl, stored⟩
  | _ => contradiction

/-- The second exchange has sent one header block, which is the one of its head, and behind it the bodies
of the writes that were made since the first exchange. -/
def Responded (x y : Exchange) : Prop :=
  y.phase = .sent ∧ ∃ actions : List Action, (∀ action ∈ actions, action.isOwn) ∧
    y = x.afterAll none actions ∧
    y.sink.bytes = x.sink.bytes ++ (Text.encode y.head.render ++ actions.flatMap Action.body)

theorem reliable_after {action : Action} (own : action.isOwn) (reliable : x.sink.Reliable) :
    (action.after none x).sink.Reliable := by
  cases output : action.output? with
  | some bytes => exact (after_output_of_reliable output reliable).1
  | none =>
    obtain ⟨sink, -, -⟩ := Action.after_quiet none own output x
    exact sink ▸ reliable

theorem afterAll_of_sent {actions : List Action} (own : ∀ action ∈ actions, action.isOwn)
    (reliable : x.sink.Reliable) (sent : x.phase = .sent) :
    (x.afterAll none actions).head = x.head ∧
      (x.afterAll none actions).sink.bytes = x.sink.bytes ++ actions.flatMap Action.body := by
  induction actions generalizing x with
  | nil => exact ⟨rfl, (List.append_nil _).symm⟩
  | cons action rest ih =>
    obtain ⟨ownFirst, ownRest⟩ := List.forall_mem_cons.mp own
    have still := reliable_after ownFirst reliable
    have head := head_after_of_sent ownFirst sent
    rw [afterAll_cons, List.flatMap_cons, Action.body]
    cases output : action.output? with
    | none =>
      obtain ⟨sink, phase, -⟩ := Action.after_quiet none ownFirst output x
      obtain ⟨headRest, stored⟩ := ih ownRest still (phase.trans sent)
      exact ⟨headRest.trans head, by rw [stored, sink, Option.getD_none, List.nil_append]⟩
    | some bytes =>
      obtain ⟨-, phase, -, first⟩ := after_output_of_reliable output reliable
      obtain ⟨headRest, stored⟩ := ih ownRest still phase
      have owed : x.owed = [] := by simp only [Exchange.owed, sent]
      refine ⟨headRest.trans head, ?_⟩
      rw [stored, first, owed, List.nil_append, Option.getD_some, List.append_assoc]

/-- Actions on an exchange that has sent nothing leave it so, or send one header block. -/
theorem afterAll_of_pending {actions : List Action} (own : ∀ action ∈ actions, action.isOwn)
    (reliable : x.sink.Reliable) (pending : x.phase = .pending) :
    let y := x.afterAll none actions
    y.phase = .pending ∧ y.sink = x.sink ∨ y.phase = .sent ∧
      y.sink.bytes = x.sink.bytes ++ (Text.encode y.head.render ++ actions.flatMap Action.body) := by
  induction actions generalizing x with
  | nil => exact .inl ⟨pending, rfl⟩
  | cons action rest ih =>
    obtain ⟨ownFirst, ownRest⟩ := List.forall_mem_cons.mp own
    have still := reliable_after ownFirst reliable
    rw [afterAll_cons, List.flatMap_cons, Action.body]
    cases output : action.output? with
    | none =>
      obtain ⟨sink, phase, -⟩ := Action.after_quiet none ownFirst output x
      rw [Option.getD_none, List.nil_append, ← sink]
      exact ih ownRest still (phase.trans pending)
    | some bytes =>
      obtain ⟨-, phase, head, first⟩ := after_output_of_reliable output reliable
      obtain ⟨headRest, stored⟩ := afterAll_of_sent ownRest still phase
      have owed : x.owed = Text.encode x.head.render := by simp only [Exchange.owed, pending]
      refine .inr ⟨?_, ?_⟩
      · rw [phase_afterAll none ownRest, phase, ite_self]
      · rw [stored, first, owed, headRest, head, Option.getD_some]
        simp only [List.append_assoc]

variable {allowed : Action → Prop} {y : Exchange}

theorem Reaches.reliable (reaches : x.Reaches allowed y) (start : x.sink.Reliable) : y.sink.Reliable :=
  reaches.induction (motive := fun z => z.sink.Reliable) start fun _ _ own _ still =>
    reliable_after own still

/-- An exchange that was reached from one that had sent nothing has sent nothing either, or a response. -/
theorem Reaches.responded (reaches : x.Reaches allowed y) (reliable : x.sink.Reliable)
    (pending : x.phase = .pending) : y.phase = .pending ∧ y.sink = x.sink ∨ x.Responded y := by
  obtain ⟨actions, own, rfl⟩ := reaches
  have owned : ∀ action ∈ actions, action.isOwn := fun action mem => (own action mem).1
  exact (afterAll_of_pending owned reliable pending).imp_right
    (And.imp_right fun stored => ⟨actions, owned, rfl, stored⟩)

end Exchange

end PageServer
