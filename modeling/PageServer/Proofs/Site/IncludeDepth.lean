import PageServer.Proofs.Site.Alike

/-! # How deep includes are nested

The depth of an exchange counts the includes that are running. It is raised where an include begins and
lowered where it ends, however it ends, and nothing else changes it; so whatever a path leads to leaves the
depth as it was. Since an include is refused at the greatest depth, nothing runs deeper than that. To say so,
work is watched: a watch stops whatever is about to run on an exchange that it objects to. A watch for work
that is too deep never has anything to stop (`boundsIncludes`).

Both are proved at once, by running the site with and without the watch on one exchange, and by induction on
the includes that can be nested.
-/

namespace PageServer

/-- The two exchanges are the same, and so many includes are running. -/
abbrev Exchange.SameAt (depth : Nat) : Exchange → Exchange → Prop :=
  Exchange.Same (·.depth = depth)

open Exchange (SameAt)

variable {depth : Nat} {x y : Exchange}

theorem keeps_depth (action : Action) (x : Exchange) (own : action.isOwn) (steady : ¬ action.changesDepth)
    (same : x.depth = depth) : (action.after none x).depth = depth :=
  (Action.depth_after own steady x).trans same

/-- Work that performs nothing but actions that keep the depth is in step with itself. -/
theorem agree_of_performs {crash : Prop} {α : Type} {work : Run α}
    (performs : Performs id (fun action => ¬ action.changesDepth) crash work) (related : SameAt depth x y) :
    Agree (SameAt depth) (SameAt depth) (work x) (work y) :=
  agree_same_of_performs performs keeps_depth related

/-- Templates run at the depth at which they begin. -/
theorem Template.blind_sameAt (depth : Nat) : Template.Blind (SameAt depth) :=
  Template.blind_same keeps_depth

/-- Why work on an exchange is stopped, if it is. -/
abbrev Watch := Exchange → Option (Halt ServerError)

namespace Watch

variable {α : Type}

/-- Work that a watch may stop before it begins. -/
def before (watch : Watch) (work : Run α) : Run α := fun x =>
  match watch x with
  | some halt => .error halt x
  | none => work x

/-- Stops work that is nested more deeply than so many includes. -/
def above (limit : Nat) (halt : Halt ServerError) : Watch := fun x =>
  if limit < x.depth then some halt else none

theorem before_of_quiet {watch : Watch} (quiet : watch x = none) (work : Run α) :
    watch.before work x = work x := by
  rw [before, quiet]

theorem above_eq_none {limit : Nat} (shallow : x.depth ≤ limit) (halt : Halt ServerError) :
    above limit halt x = none :=
  if_neg (Nat.not_lt.mpr shallow)

end Watch

namespace Site

/-- Runs a target under a watch: whatever the target is, it is watched where it begins, and a handler also
at each of its actions. -/
def watchedTarget (site : Site) (watch : Watch) (includePath : Include) (direct : Bool) :
    Target → Run Unit
  | .handler handler =>
    watch.before (handler.runBy fun action => watch.before (action.perform (some includePath)))
  | .template file => watch.before (site.runTemplate includePath file)
  | .file file mediaType => watch.before (site.sendFile direct file mediaType)

def watchedWith (site : Site) (watch : Watch) (includePath : Include) (path : String) (direct : Bool) :
    Run Unit :=
  match site.resolve path direct with
  | .error e => throw (.failed e)
  | .ok target => site.watchedTarget watch includePath direct target

/-- Includes a path under a watch, which also looks at the one that includes it. -/
def watchedInclude (site : Site) (watch : Watch) : Nat → Include
  | 0 => fun _ => throw .unfinished
  | levels + 1 => fun path => watch.before fun x =>
    if maxIncludeDepth ≤ x.depth then .error (.failed (tooDeep path)) x
    else asInclude (site.watchedWith watch (site.watchedInclude watch levels) path false) x

/-- Runs what a path leads to under a watch, with at most `levels` includes inside one another. -/
def watchedDispatch (site : Site) (watch : Watch) (levels : Nat) (path : String) (direct : Bool) :
    Run Unit :=
  site.watchedWith watch (site.watchedInclude watch levels) path direct

variable {site : Site} {watch : Watch} {left right : Include}

theorem agree_watchedTarget (within : site.Within (fun action => ¬ action.changesDepth) True)
    (quiet : ∀ x, x.depth = depth → watch x = none)
    (includes : ∀ path x y, SameAt depth x y →
      Agree (SameAt depth) (SameAt depth) (left path x) (right path y))
    (path : String) (direct : Bool) (related : SameAt depth x y) :
    Agree (SameAt depth) (SameAt depth) (site.dispatchWith left path direct x)
      (site.watchedWith watch right path direct y) := by
  have calm : watch y = none := quiet y (related.1 ▸ related.2)
  have blind := Template.blind_sameAt depth
  simp only [dispatchWith, watchedWith]
  cases resolved : site.resolve path direct with
  | error e => exact .error related
  | ok target =>
    cases target with
    | template file =>
      simp only [runTarget, watchedTarget, Watch.before_of_quiet calm]
      exact agree_runTemplate site blind includes file related
    | file file mediaType =>
      simp only [runTarget, watchedTarget, Watch.before_of_quiet calm]
      have performs : Performs id (fun action => ¬ action.changesDepth) True
          (site.sendFile direct file mediaType) :=
        performs_sendFile (fun _ => Bool.false_ne_true) (fun _ => Bool.false_ne_true)
          fun _ _ => Bool.false_ne_true
      exact agree_of_performs performs related
    | handler handler =>
      simp only [runTarget, watchedTarget, Watch.before_of_quiet calm, Handler.run_eq_runBy]
      refine Handler.agree_runBy ?_ (within.of_resolve resolved) related
      intro action may x y related
      rw [Watch.before_of_quiet (quiet y (related.1 ▸ related.2))]
      refine Handler.agree_perform blind includes (fun own => ?_) related
      have performs : Performs id (fun action => ¬ action.changesDepth) True (action.perform none) :=
        performs_action own (may own) none
      exact agree_of_performs performs related

theorem runInclude_succ (site : Site) (levels : Nat) (path : String) (x : Exchange) :
    site.runInclude (levels + 1) path x =
      if maxIncludeDepth ≤ x.depth then .error (.failed (tooDeep path)) x
      else asInclude (site.dispatchWith (site.runInclude levels) path false) x :=
  rfl

theorem watchedInclude_succ (quiet : watch x = none) (levels : Nat) (path : String) :
    site.watchedInclude watch (levels + 1) path x =
      if maxIncludeDepth ≤ x.depth then .error (.failed (tooDeep path)) x
      else asInclude (site.watchedWith watch (site.watchedInclude watch levels) path false) x := by
  rw [watchedInclude]
  exact Watch.before_of_quiet quiet _

/-- An include and the watched include are the same work at one depth, and leave that depth, as long as the
watch does not object to work that is nested so deep. The numbers of includes that can be nested are the same,
or they are both more than enough. -/
theorem agree_watchedInclude (within : site.Within (fun action => ¬ action.changesDepth) True)
    (levels others : Nat) (quiet : ∀ x, x.depth ≤ max depth maxIncludeDepth → watch x = none)
    (enough : levels = others ∨
      depth ≤ maxIncludeDepth ∧ maxIncludeDepth < levels + depth ∧ maxIncludeDepth < others + depth)
    (path : String) (related : SameAt depth x y) :
    Agree (SameAt depth) (SameAt depth) (site.runInclude levels path x)
      (site.watchedInclude watch others path y) := by
  induction levels generalizing others depth path x y with
  | zero =>
    cases others with
    | zero => exact .error related
    | succ others => omega
  | succ levels ih =>
    cases others with
    | zero => omega
    | succ others =>
      obtain ⟨rfl, rfl⟩ := related
      rw [runInclude_succ, watchedInclude_succ (quiet x (Nat.le_max_left _ _))]
      by_cases deep : maxIncludeDepth ≤ x.depth
      · simp only [deep, ↓reduceIte]
        exact .error ⟨rfl, rfl⟩
      · simp only [deep, ↓reduceIte]
        -- what is included runs one level deeper, which is still not too deep
        have deeper : max (x.depth + 1) maxIncludeDepth ≤ max x.depth maxIncludeDepth := by omega
        have includes (path : String) (y z : Exchange) (related : SameAt (x.depth + 1) y z) :
            Agree (SameAt (x.depth + 1)) (SameAt (x.depth + 1)) (site.runInclude levels path y)
              (site.watchedInclude watch others path z) := by
          refine ih others (fun z shallow => quiet z (shallow.trans deeper)) ?_ path related
          omega
        have inside : Agree (SameAt (x.depth + 1)) (SameAt (x.depth + 1))
            (site.dispatchWith (site.runInclude levels) path false x.enterInclude)
            (site.watchedWith watch (site.watchedInclude watch others) path false x.enterInclude) := by
          refine agree_watchedTarget within (fun z same => quiet z ?_) includes path false ⟨rfl, rfl⟩
          omega
        refine agree_asInclude inside ?_
        rintro y _ ⟨rfl, same⟩
        exact ⟨rfl, Nat.sub_eq_of_eq_add same⟩

/-- What holds of the includes of a site. -/
structure BoundsIncludes (site : Site) : Prop where
  /-- An include that returns leaves the depth as it was, whether it succeeded or failed. -/
  restores : ∀ levels path x y,
    (site.runInclude levels path x = .ok () y ∨ ∃ e, site.runInclude levels path x = .error (.failed e) y) →
    y.depth = x.depth
  /-- While a request is answered, nothing runs that a watch for work below the greatest depth would stop,
  and no more includes are nested than that. -/
  shallow : ∀ halt levels path direct x, maxIncludeDepth < levels → x.depth = 0 →
    site.watchedDispatch (.above maxIncludeDepth halt) levels path direct x = site.dispatch path direct x
  /-- At the greatest depth, an include is refused, and nothing happens to the exchange. -/
  refuses : ∀ levels path x, x.depth = maxIncludeDepth →
    site.runInclude (levels + 1) path x =
      .error (.failed (.script (.unsupported s!"include depth exceeded at '{path}'"))) x
  /-- A template that includes at the greatest depth fails in the same way. -/
  refusesTemplate : ∀ levels (path : Template.Value) (m : Template.Machine),
    m.exchange.depth = maxIncludeDepth →
    Template.Eval.callUnary (some (site.runInclude (levels + 1))) .includePath path m =
      .error (.failed (.unsupported s!"include depth exceeded at '{path.render}'")) m

/-- A site bounds its includes, unless its handlers change the depth themselves. -/
theorem boundsIncludes (site : Site) (within : site.Within (fun action => ¬ action.changesDepth) True) :
    site.BoundsIncludes := by
  constructor
  case restores =>
    intro levels path x y returned
    let idle : Watch := fun _ => none
    have agree : Agree (SameAt x.depth) (SameAt x.depth) (site.runInclude levels path x)
        (site.watchedInclude idle levels path x) :=
      agree_watchedInclude within levels levels (fun _ _ => rfl) (.inl rfl) path ⟨rfl, rfl⟩
    have same := eq_of_agree_same agree
    rw [← same] at agree
    rcases returned with ran | ⟨e, ran⟩
    · rw [ran] at agree
      cases agree with
      | ok related => exact related.2
    · rw [ran] at agree
      cases agree with
      | error related => exact related.2
  case shallow =>
    intro halt levels path direct x enough start
    have quiet : ∀ y : Exchange, y.depth ≤ max 0 maxIncludeDepth →
        Watch.above maxIncludeDepth halt y = none := by
      intro y shallow
      exact Watch.above_eq_none (by omega) halt
    have includes (path : String) (x y : Exchange) (related : SameAt 0 x y) :
        Agree (SameAt 0) (SameAt 0) (site.runInclude includeLevels path x)
          (site.watchedInclude (.above maxIncludeDepth halt) levels path y) := by
      refine agree_watchedInclude within includeLevels levels quiet (.inr ?_) path related
      exact ⟨Nat.zero_le _, by decide, enough⟩
    have agree : Agree (SameAt 0) (SameAt 0) (site.dispatch path direct x)
        (site.watchedDispatch (.above maxIncludeDepth halt) levels path direct x) :=
      agree_watchedTarget within (fun y same => quiet y (by omega)) includes path direct ⟨rfl, start⟩
    exact (eq_of_agree_same agree).symm
  case refuses =>
    intro levels path x deep
    rw [runInclude_succ, if_pos (Nat.le_of_eq deep.symm), tooDeep]
  case refusesTemplate =>
    intro levels path m deep
    have refused : site.runInclude (levels + 1) path.render m.exchange =
        .error (.failed (tooDeep path.render)) m.exchange :=
      if_pos (Nat.le_of_eq deep.symm)
    simp only [Template.Eval.callUnary, Template.Eval.onExchange, refused]
    rfl

/-- A handler and a template that include each other, of which the handler does not care whether it fails:
the includes are bounded, and the bound is met. -/
theorem boundsIncludes_cycle :
    let handler : Handler := .ofSteps
      [{ deed := .perform (.includePath "/b.tmpl"), mayFail := true },
        { deed := .perform .depth, echoes := true }]
    let source := "<%= \"/a\" include %>"
    let site := ({ files := .ofList [("www/b.tmpl", Text.encode source)] } : Site).route "/a" handler
    let x : Exchange := .blank
    site.Within (fun action => ¬ action.changesDepth) True ∧ site.BoundsIncludes ∧
      ∃ y, site.watchedDispatch (.above 15 .crashed) 17 "/a" true x = .error .crashed y := by
  intro handler source site x
  have keeps : handler.Within (fun action => ¬ action.changesDepth) True := by
    have rest : (Handler.ofSteps [{ deed := .perform .depth, echoes := true }]).Within
        (fun action => ¬ action.changesDepth) True := by
      refine ⟨fun _ => nofun, fun answer => ?_⟩
      cases answer with
      | error e => trivial
      | ok reply =>
        refine ⟨fun _ => nofun, fun answer => ?_⟩
        cases answer <;> trivial
    refine ⟨nofun, fun answer => ?_⟩
    cases answer <;> exact rest
  have within := within_empty.route keeps "/a"
  have stopped : (match site.watchedDispatch (.above 15 .crashed) 17 "/a" true x with
      | .error .crashed _ => true
      | _ => false) = true := by
    decide +kernel
  refine ⟨within, boundsIncludes site within, ?_⟩
  split at stopped
  · next y ran => exact ⟨y, ran⟩
  · contradiction

end Site

end PageServer
