import PageServer.Proofs.Site.Performing
import PageServer.Proofs.Template.Simulation

/-! # Work on exchanges that are alike

A template comes to the same end on two exchanges that it cannot tell apart, provided that its includes do
(`Template.agree_run`). So does everything around it: a template in a file, an include, and a handler whose
actions do (`Handler.agree_runBy`). What is alike is left open; each observer has a relation of its own. The
simplest says that the two are one exchange, and that it has some property (`Exchange.Same`).
-/

namespace PageServer

variable {alike : Exchange → Exchange → Prop} {x y : Exchange}

/-- A text that was written as well as it can be leaves the header block sent, whatever the sink did. -/
theorem Exchange.told_eq (x : Exchange) (text : String) :
    ∃ sink written, x.told text = { x with phase := .sent, sink, written } := by
  obtain ⟨sink, -, stored | ⟨e, failed⟩⟩ := write_cases (Text.encode text) x
  · exact ⟨sink, x.written + (Text.encode text).length, by simp only [told, writeText, stored]⟩
  · exact ⟨sink, x.written, by simp only [told, writeText, failed]⟩

/-- The two exchanges are one, of which something is known. -/
def Exchange.Same (known : Exchange → Prop) (x y : Exchange) : Prop :=
  x = y ∧ known x

section Same

open Exchange (Same)

variable {known : Exchange → Prop} {allowed : Action → Prop} {crash : Prop} {α : Type}

/-- Work in step on one exchange is the same work. -/
theorem eq_of_agree_same {ε : Type} {left right : EStateM.Result ε Exchange α}
    (agree : Agree (Same known) (Same known) left right) : left = right := by
  cases agree with
  | ok related => rw [related.1]
  | error related => rw [related.1]

/-- Work that performs nothing but actions that keep what is known is in step with itself. -/
theorem agree_same_of_performs {work : Run α} (performs : Performs id allowed crash work)
    (keeps : ∀ action x, action.isOwn → allowed action → known x → known (action.after none x))
    (related : Same known x y) : Agree (Same known) (Same known) (work x) (work y) := by
  obtain ⟨rfl, start⟩ := related
  have kept {z : Exchange} (reached : x.Reaches allowed z) : known z :=
    reached.induction start keeps
  cases ran : work x with
  | ok a z => exact .ok ⟨rfl, kept (performs.of_ok ran)⟩
  | error halt z => exact .error ⟨rfl, kept (performs.of_error ran).1⟩

/-- What no action but those of includes changes, no template changes. -/
theorem Template.blind_same
    (keeps : ∀ (action : Action) x, action.isOwn → ¬ action.changesDepth → known x →
      known (action.after none x)) :
    Template.Blind (Same known) where
  parameters related := congrArg _ related.1
  temporary related := congrArg _ related.1
  attributes related := congrArg (·.session.attributes) related.1
  told := by
    rintro x _ text ⟨rfl, start⟩
    have same : (Action.writeText text).after none x = x.told text := by
      rw [Exchange.told]
      cases ran : Exchange.writeText text x with
      | ok _ z => exact Action.after_quietly rfl ran
      | error e z =>
        have failed : (Action.writeText text).perform none x = .error (.failed e) z :=
          Action.quietly_error ran
        rw [Action.after, failed]
    exact ⟨rfl, same ▸ keeps (.writeText text) x rfl Bool.false_ne_true start⟩
  setMediaType := by
    rintro x _ mediaType ⟨rfl, start⟩
    have next := keeps (.setMediaType mediaType) x rfl Bool.false_ne_true start
    obtain ⟨sink, head, phase⟩ := x
    cases phase with
    | pending => exact .ok ⟨rfl, next⟩
    | sent => exact .error ⟨rfl, start⟩
  setTemporary := by
    rintro x _ name value ⟨rfl, start⟩
    exact ⟨rfl, keeps (.setTemporary name value) x rfl Bool.false_ne_true start⟩
  dropTemporary := by
    rintro x _ name ⟨rfl, start⟩
    exact ⟨rfl, keeps (.dropTemporary name) x rfl Bool.false_ne_true start⟩
  setAttribute := by
    rintro x _ name value ⟨rfl, start⟩
    exact ⟨rfl, keeps (.setAttribute name value) x rfl Bool.false_ne_true start⟩
  dropAttribute := by
    rintro x _ name ⟨rfl, start⟩
    exact ⟨rfl, keeps (.dropAttribute name) x rfl Bool.false_ne_true start⟩

end Same

namespace Handler

/-- Runs a handler whose actions are performed in a way of their own. -/
def runBy (perform : Action → Run Reply) : Handler → Run Unit
  | .done => pure ()
  | .fail error => throw (.failed error)
  | .crash => throw .crashed
  | .perform action next => fun x =>
    match perform action x with
    | .ok reply x => (next (.ok reply)).runBy perform x
    | .error (.failed error) x => (next (.error error)).runBy perform x
    | .error halt x => .error halt x

theorem run_eq_runBy (include? : Option Include) (handler : Handler) :
    handler.run include? = handler.runBy (Action.perform include?) := by
  induction handler with
  | done | fail | crash => rfl
  | perform action next ih =>
    funext x
    simp only [run, runBy]
    cases action.perform include? x with
    | ok reply y => exact congrFun (ih _) y
    | error halt y =>
      cases halt with
      | failed error => exact congrFun (ih _) y
      | crashed | unfinished => rfl

variable {allowed : Action → Prop} {crash : Prop}

/-- By induction on the handler: the same answers lead to the same actions. -/
theorem agree_runBy {left right : Action → Run Reply}
    (each : ∀ action, (action.isOwn → allowed action) → ∀ x y, alike x y →
      Agree alike alike (left action x) (right action y))
    {handler : Handler} (within : handler.Within allowed crash) (related : alike x y) :
    Agree alike alike (handler.runBy left x) (handler.runBy right y) := by
  induction handler generalizing x y with
  | done => exact .ok related
  | fail | crash => exact .error related
  | perform action next ih =>
    obtain ⟨may, rest⟩ := within
    have first := each action may x y related
    simp only [runBy]
    generalize left action x = answer at first
    generalize right action y = other at first
    cases first with
    | ok related => exact ih _ (rest _) related
    | @error halt s t related =>
      cases halt with
      | failed e => exact ih _ (rest _) related
      | crashed | unfinished => exact .error related

/-- An action that runs a path or a template comes to the same end if the includes do. -/
theorem agree_perform (blind : Template.Blind alike) {left right : Include}
    (includes : ∀ path x y, alike x y → Agree alike alike (left path x) (right path y)) {action : Action}
    (own : action.isOwn → Agree alike alike (action.perform none x) (action.perform none y))
    (related : alike x y) :
    Agree alike alike (action.perform (some left) x) (action.perform (some right) y) := by
  by_cases isOwn : action.isOwn
  · rw [Action.perform_of_own isOwn (some left), Action.perform_of_own isOwn (some right)]
    exact own isOwn
  · cases action with
    | includePath path => exact (includes path x y related).bind fun _ _ _ _ related => .ok related
    | runTemplate source =>
      have ran : Agree alike alike (Action.runSource (some left) source x)
          (Action.runSource (some right) source y) := by
        simp only [Action.runSource]
        cases Template.parse source with
        | error e => exact .error related
        | ok document => exact Template.agree_run blind (.some includes) document related
      exact ran.bind fun _ _ _ _ related => .ok related
    | _ => exact absurd rfl isOwn

end Handler

namespace Site

theorem agree_runTemplate (site : Site) (blind : Template.Blind alike) {left right : Include}
    (includes : ∀ path x y, alike x y → Agree alike alike (left path x) (right path y)) (file : String)
    (related : alike x y) :
    Agree alike alike (site.runTemplate left file x) (site.runTemplate right file y) := by
  simp only [runTemplate]
  cases (site.files.read file).toOption.bind Text.decode? with
  | none => exact .error related
  | some source =>
    dsimp only
    cases site.parse source with
    | error e => exact .error related
    | ok document => exact Template.agree_run blind (.some includes) document related

/-- Inside an include, something else may be alike. -/
theorem agree_asInclude {inside : Exchange → Exchange → Prop} {left right : Run Unit}
    (agree : Agree inside inside (left x.enterInclude) (right y.enterInclude))
    (leaves : ∀ x y, inside x y → alike x.leaveInclude y.leaveInclude) :
    Agree alike alike (asInclude left x) (asInclude right y) := by
  simp only [asInclude]
  generalize left x.enterInclude = first at agree
  generalize right y.enterInclude = second at agree
  cases agree with
  | ok related => exact .ok (leaves _ _ related)
  | error related => exact .error (leaves _ _ related)

end Site

end PageServer
