import Mathlib.Data.List.Basic
import PageServer.Proofs.Session.Resolve

/-! # When sessions expire

A registry reads the clock in nanoseconds and counts whole milliseconds since its origin; an instant before the
origin counts as the origin, and neither a time nor a timeout exceeds 64 bits. A session is used when it is
issued and whenever resolving gives it again. Each use moves its expiry to the timeout behind it, but never
back, and nothing else moves it (`expiry?_next`); so after any run it is the latest one that a use asked for. If
the clock never went back, that is the one of the last use.
-/

namespace PageServer

/-- The whole milliseconds of a duration in nanoseconds, as far as they fit into 64 bits. -/
def Session.millis (nanoseconds : Nat) : Nat :=
  min endOfTime (nanoseconds / 1000000)

namespace SessionRegistry

inductive Request
  | resolve (presented : Option String) (host : String) (instant : Nat)
  | create (host : String) (instant : Nat)
  | lookup (id : String)
  | sweep (instant : Nat)
  /-- Writes the attributes of a session. -/
  | write (number : Nat) (change : Scope → Scope)

/-- The time of an instant, for a registry with this origin. -/
def elapsed (origin instant : Nat) : Nat :=
  Session.millis (instant - origin)

/-- When the clock is read for a request. -/
def Request.instant? : Request → Option Nat
  | .resolve _ _ instant | .create _ instant | .sweep instant => some instant
  | .lookup _ | .write _ _ => none

def Request.next (origin : Nat) (r : SessionRegistry) : Request → SessionRegistry
  | .resolve presented host instant =>
    Operation.apply r (.resolve presented host (elapsed origin instant))
  | .create host instant => Operation.apply r (.create host (elapsed origin instant))
  | .lookup _ => r
  | .sweep instant => Operation.apply r (.sweep (elapsed origin instant))
  | .write number change => Operation.apply r (.write number change)

/-- When a request uses the session with this number, if it does: it gives it to somebody, be it new or not. -/
def Request.use? (origin : Nat) (r : SessionRegistry) (number : Nat) : Request → Option Nat
  | .resolve presented host instant =>
    let now := elapsed origin instant
    if (r.resolve presented host now).1 = number then some now else none
  | .create host instant =>
    let now := elapsed origin instant
    if (r.create host now).1 = number then some now else none
  | .lookup _ | .sweep _ | .write _ _ => none

/-- A new registry with a timeout in nanoseconds. -/
def start (timeout : Nat) (draw : Nat → String) : SessionRegistry :=
  { timeout := Session.millis timeout, draw }

def served (origin : Nat) (r : SessionRegistry) (requests : List Request) : SessionRegistry :=
  requests.foldl (Request.next origin) r

/-- The times at which requests use the session with this number. -/
def uses (origin : Nat) (r : SessionRegistry) (number : Nat) : List Request → List Nat
  | [] => []
  | request :: rest =>
    (request.use? origin r number).toList ++ uses origin (request.next origin r) number rest

/-- When the session with this number expires. -/
def expiry? (r : SessionRegistry) (number : Nat) : Option Nat :=
  (r.session? number).map (·.expiresAt)

variable {r : SessionRegistry} {origin : Nat}

theorem expiry?_create (r : SessionRegistry) (host : String) (now number : Nat) :
    (r.create host now).2.expiry? number =
      Option.merge max (r.expiry? number)
        ((if (r.create host now).1 = number then some now else none).map r.deadline) := by
  have given : (r.create host now).1 = r.issued.size := rfl
  rw [expiry?, expiry?, session?_create, given]
  by_cases new : number = r.issued.size
  · have unissued : r.session? number = none := session?_eq_none_iff.mpr (by omega)
    rw [if_pos new, if_pos new.symm, unissued]
    rfl
  · rw [if_neg new, if_neg (Ne.symm new)]
    exact Option.merge_none_right.symm

theorem Outcome.expiry? {presented : Option String} {host : String} {now : Nat}
    {result : Nat × Bool × SessionRegistry} (outcome : r.Outcome host now presented result) (number : Nat) :
    result.2.2.expiry? number =
      Option.merge max (r.expiry? number) ((if result.1 = number then some now else none).map r.deadline) := by
  cases outcome with
  | absent | unknown | foreign => exact expiry?_create r host now number
  | @expired id => exact expiry?_create { r with live := r.live.erase id } host now number
  | @reused id other s held own runs =>
    have session := held.2
    simp only [SessionRegistry.expiry?, session?_modify]
    by_cases same : other = number
    · subst same
      simp only [↓reduceIte, session]
      rfl
    · rw [if_neg same, if_neg same]
      exact Option.merge_none_right.symm

/-- A use moves the expiry to its deadline unless it was later before, and nothing else moves it. -/
theorem expiry?_next (sound : r.Sound) (request : Request) (number : Nat) :
    (request.next origin r).expiry? number =
      Option.merge max (r.expiry? number) ((request.use? origin r number).map r.deadline) := by
  cases request with
  | resolve presented host instant =>
    exact (sound.outcome presented host (elapsed origin instant)).expiry? number
  | create host instant => exact expiry?_create r host (elapsed origin instant) number
  | lookup | sweep => exact Option.merge_none_right.symm
  | write other change =>
    have kept : ((r.modify other fun s => { s with attributes := change s.attributes }).session? number).map
        (·.expiresAt) = (r.session? number).map (·.expiresAt) := by
      rw [session?_modify]
      split
      · rw [Option.map_map]
        rfl
      · rfl
    exact kept.trans Option.merge_none_right.symm

theorem Outcome.timeout {presented : Option String} {host : String} {now : Nat}
    {result : Nat × Bool × SessionRegistry} (outcome : r.Outcome host now presented result) :
    result.2.2.timeout = r.timeout := by
  cases outcome <;> rfl

theorem deadline_next (sound : r.Sound) (request : Request) :
    (request.next origin r).deadline = r.deadline := by
  have timeout : (request.next origin r).timeout = r.timeout := by
    cases request with
    | resolve presented host instant => exact (sound.outcome presented host _).timeout
    | create | lookup | sweep | write => rfl
  funext now
  rw [deadline, deadline, timeout]

theorem Sound.request (sound : r.Sound) (request : Request) : (request.next origin r).Sound := by
  cases request with
  | lookup => exact sound
  | resolve | create | sweep | write => exact sound.apply _

theorem sound_served (sound : r.Sound) (requests : List Request) : (served origin r requests).Sound := by
  induction requests generalizing r with
  | nil => exact sound
  | cons request rest ih => exact ih (sound.request request)

theorem max?_toList_append (first : Option Nat) (rest : List Nat) :
    (first.toList ++ rest).max? = Option.merge max first rest.max? := by
  cases first with
  | none => exact Option.merge_none_left.symm
  | some time =>
    rw [Option.toList_some, List.singleton_append, List.max?_cons]
    cases rest.max? <;> rfl

/-- After a run, the expiry is the latest one of that before the run and those that its uses asked for. -/
theorem expiry?_served (sound : r.Sound) (requests : List Request) (number : Nat) :
    (served origin r requests).expiry? number =
      Option.merge max (r.expiry? number) ((uses origin r number requests).map r.deadline).max? := by
  induction requests generalizing r with
  | nil => exact Option.merge_none_right.symm
  | cons request rest ih =>
    have stepped : (request.next origin r).Sound := sound.request request
    have later := ih stepped
    rw [deadline_next sound, expiry?_next sound] at later
    rw [uses, List.map_append, ← Option.toList_map, max?_toList_append]
    refine later.trans ?_
    exact Std.Associative.assoc _ _ _

/-- Later requests only move the expiry forward. -/
theorem le_expiry?_served (sound : r.Sound) (requests : List Request) {number earlier : Nat}
    (expires : r.expiry? number = some earlier) :
    ∃ later, (served origin r requests).expiry? number = some later ∧ earlier ≤ later := by
  rw [expiry?_served sound requests, expires]
  cases ((uses origin r number requests).map r.deadline).max? with
  | none => exact ⟨earlier, rfl, Nat.le_refl _⟩
  | some used => exact ⟨max earlier used, rfl, Nat.le_max_left _ _⟩

/-- The request does not give the session with this number to anybody: it looks at a session, writes to
one, sweeps, or presents the id of this session for another host. -/
inductive Request.LeavesAlone (r : SessionRegistry) (number : Nat) : Request → Prop
  | lookup (id : String) : LeavesAlone r number (.lookup id)
  | sweep (instant : Nat) : LeavesAlone r number (.sweep instant)
  | write (other : Nat) (change : Scope → Scope) : LeavesAlone r number (.write other change)
  | foreign {id host : String} {s : Session} (held : r.Holds id number s) (other : s.host ≠ host)
      (instant : Nat) : LeavesAlone r number (.resolve (some id) host instant)

theorem expiry?_of_leavesAlone (sound : r.Sound) {request : Request} {number : Nat}
    (leaves : request.LeavesAlone r number) :
    (request.next origin r).expiry? number = r.expiry? number := by
  have unused : request.use? origin r number = none := by
    cases leaves with
    | lookup | sweep | write => rfl
    | @foreign id host s held other instant =>
      have issued : (r.resolve (some id) host (elapsed origin instant)).1 = r.issued.size := by
        rw [resolve_of_holds held, if_pos other]
        rfl
      have earlier := held.lt
      exact if_neg (by omega)
  rw [expiry?_next sound, unused]
  exact Option.merge_none_right

theorem elapsed_mono (origin : Nat) {first second : Nat} (ordered : first ≤ second) :
    elapsed origin first ≤ elapsed origin second := by
  simp only [elapsed, Session.millis]
  have divided : (first - origin) / 1000000 ≤ (second - origin) / 1000000 :=
    Nat.div_le_div_right (by omega)
  omega

theorem use_sublist (origin : Nat) (r : SessionRegistry) (number : Nat) (request : Request) :
    (request.use? origin r number).toList.Sublist (request.instant?.toList.map (elapsed origin)) := by
  cases request with
  | resolve presented host instant =>
    simp only [Request.use?, Request.instant?]
    split
    · exact List.Sublist.refl _
    · exact List.nil_sublist _
  | create host instant =>
    simp only [Request.use?, Request.instant?]
    split
    · exact List.Sublist.refl _
    · exact List.nil_sublist _
  | lookup | sweep | write => exact List.nil_sublist _

theorem uses_sublist (origin : Nat) (r : SessionRegistry) (number : Nat) (requests : List Request) :
    (uses origin r number requests).Sublist
      ((requests.filterMap Request.instant?).map (elapsed origin)) := by
  induction requests generalizing r with
  | nil => exact List.Sublist.refl _
  | cons request rest ih =>
    have both := (use_sublist origin r number request).append (ih (request.next origin r))
    rw [uses]
    cases instant : request.instant? with
    | none => simpa [instant] using both
    | some time => simpa [instant] using both

/-- Of uses in order, the last one is decisive. -/
theorem max?_deadline_of_ordered (r : SessionRegistry) {used : List Nat} (ordered : used.Pairwise (· ≤ ·)) :
    (used.map r.deadline).max? = used.getLast?.map r.deadline := by
  rcases List.eq_nil_or_concat' used with rfl | ⟨before, last, rfl⟩
  · rfl
  · have bound : ∀ now ∈ before, now ≤ last := by
      intro now member
      exact (List.pairwise_append.mp ordered).2.2 now member last List.mem_cons_self
    rw [List.getLast?_concat, Option.map_some, List.max?_eq_some_iff]
    constructor
    · exact List.mem_map.mpr ⟨last, by simp, rfl⟩
    · intro other member
      obtain ⟨now, inside, rfl⟩ := List.mem_map.mp member
      have earlier : now ≤ last := by
        rcases List.mem_append.mp inside with front | back
        · exact bound now front
        · exact Nat.le_of_eq (List.mem_singleton.mp back)
      simp only [deadline]
      omega

theorem sound_start (timeout : Nat) (draw : Nat → String) : (start timeout draw).Sound :=
  sound_run (Session.millis timeout) draw []

/-- If the clock never went back, a session expires the timeout after its last use. -/
theorem expiresAt_eq_of_ordered (origin timeout : Nat) (draw : Nat → String) {requests : List Request}
    (ordered : (requests.filterMap Request.instant?).Pairwise (· ≤ ·)) {number : Nat} {s : Session}
    (session : (served origin (start timeout draw) requests).session? number = some s) :
    ∃ last, (uses origin (start timeout draw) number requests).getLast? = some last ∧
      s.expiresAt = (start timeout draw).deadline last := by
  have inOrder : (uses origin (start timeout draw) number requests).Pairwise (· ≤ ·) := by
    refine List.Pairwise.sublist (uses_sublist origin _ number requests) ?_
    exact List.pairwise_map.mpr (ordered.imp (elapsed_mono origin))
  have expires : (served origin (start timeout draw) requests).expiry? number = _ :=
    expiry?_served (sound_start timeout draw) requests number
  rw [max?_deadline_of_ordered _ inOrder, expiry?, session] at expires
  have unissued : (start timeout draw).expiry? number = none := rfl
  rw [unissued, Option.merge_none_left, Option.map_some] at expires
  obtain ⟨last, found, same⟩ := Option.map_eq_some_iff.mp expires.symm
  exact ⟨last, found, same.symm⟩

section Holds

variable {id : String} {number : Nat} {s : Session} (held : r.Holds id number s) (now : Nat)

include held

theorem resolve_reuses_iff :
    (∃ next, r.resolve (some id) s.host now = (number, false, next)) ↔ now < s.expiresAt := by
  have own : ¬ s.host ≠ s.host := fun other => other rfl
  rw [resolve_of_holds held, if_neg own]
  split
  · next past =>
    constructor
    · rintro ⟨next, same⟩
      have isNew : true = false := congrArg (·.2.1) same
      contradiction
    · intro runs
      omega
  · next running => exact ⟨fun _ => Nat.not_le.mp running, fun _ => ⟨_, rfl⟩⟩

theorem lookup_sweep_of_holds :
    (r.sweep now).2.lookup id = if now < s.expiresAt then some number else none := by
  have expired : r.isExpired number now = decide (s.expiresAt ≤ now) := by
    rw [isExpired, held.2]
    rfl
  rw [lookup_sweep, held.1, Option.filter_some, expired]
  by_cases runs : now < s.expiresAt
  · simp [runs]
  · simp [runs, Nat.not_lt.mp runs]

end Holds

/-- Whatever was asked of a registry, a session expires at the latest time that one of its uses asked for, so
that later requests never move this back, and those that do not give the session to anybody do not move it
at all. If the clock never went back, its own host goes on with a session exactly before the timeout behind
the last use has passed, and a sweep takes it exactly from then on. -/
theorem expiry_of_uses (origin timeout : Nat) (draw : Nat → String) (requests : List Request) (number : Nat) :
    let r := served origin (start timeout draw) requests
    let used := uses origin (start timeout draw) number requests
    r.expiry? number =
        (used.map fun now => min Session.endOfTime (now + Session.millis timeout)).max? ∧
      (∀ more earlier, r.expiry? number = some earlier →
        ∃ later, (served origin r more).expiry? number = some later ∧ earlier ≤ later) ∧
      (∀ request : Request, request.LeavesAlone r number →
        (request.next origin r).expiry? number = r.expiry? number) ∧
      ((requests.filterMap Request.instant?).Pairwise (· ≤ ·) → ∀ id s, r.Holds id number s →
        ∃ last, used.getLast? = some last ∧ ∀ instant,
          let now := elapsed origin instant
          let deadline := min Session.endOfTime (last + Session.millis timeout)
          ((∃ next, r.resolve (some id) s.host now = (number, false, next)) ↔ now < deadline) ∧
            (r.sweep now).2.lookup id = if now < deadline then some number else none) := by
  intro r used
  have sound : r.Sound := sound_served (sound_start timeout draw) requests
  refine ⟨?_, fun more earlier => le_expiry?_served sound more, fun request =>
    expiry?_of_leavesAlone sound, fun ordered id s held => ?_⟩
  · have latest : r.expiry? number = _ := expiry?_served (sound_start timeout draw) requests number
    exact latest.trans Option.merge_none_left
  · obtain ⟨last, found, expires⟩ := expiresAt_eq_of_ordered origin timeout draw ordered held.2
    have deadline : min Session.endOfTime (last + Session.millis timeout) = s.expiresAt := expires.symm
    refine ⟨last, found, fun instant => ?_⟩
    simp only [deadline]
    exact ⟨resolve_reuses_iff held _, lookup_sweep_of_holds held _⟩

/-- A session that is used again after eight seconds, while another host presents its id and a sweep passes,
goes on until ten seconds later, to the millisecond. -/
theorem expiry_of_uses_again :
    let id := drawnId 1 0
    let requests : List Request :=
      [.create "a" 5001999999, .lookup id, .resolve (some id) "a" 13000000000,
        .resolve (some id) "b" 14000000000, .sweep 20000000000]
    let r := served 5000000000 (start 10000000000 (drawnId 1)) requests
    (requests.filterMap Request.instant?).Pairwise (· ≤ ·) ∧ (∃ s, r.Holds id 0 s ∧ s.host = "a") ∧
      (∃ next, r.resolve (some id) "a" (elapsed 5000000000 22999999999) = (0, false, next)) ∧
      (¬ ∃ next, r.resolve (some id) "a" (elapsed 5000000000 23000000000) = (0, false, next)) ∧
      (r.sweep (elapsed 5000000000 22999999999)).2.lookup id = some 0 ∧
      (r.sweep (elapsed 5000000000 23000000000)).2.lookup id = none := by
  intro id requests r
  have ordered : (requests.filterMap Request.instant?).Pairwise (· ≤ ·) := by decide
  have used : (uses 5000000000 (start 10000000000 (drawnId 1)) 0 requests).getLast? = some 8000 := by
    decide +kernel
  have looked : r.lookup id = some 0 := by decide +kernel
  have host : (r.session? 0).map (·.host) = some "a" := by decide +kernel
  obtain ⟨s, session, own⟩ := Option.map_eq_some_iff.mp host
  obtain ⟨-, -, -, consequence⟩ := expiry_of_uses 5000000000 10000000000 (drawnId 1) requests 0
  obtain ⟨last, found, decided⟩ := consequence ordered id s ⟨looked, session⟩
  rw [used] at found
  cases found
  rw [own] at decided
  have before := decided 22999999999
  have behind := decided 23000000000
  have early : elapsed 5000000000 22999999999 < min Session.endOfTime (8000 + Session.millis 10000000000) := by
    decide
  have late : ¬ elapsed 5000000000 23000000000 < min Session.endOfTime (8000 + Session.millis 10000000000) := by
    decide
  exact ⟨ordered, ⟨s, ⟨looked, session⟩, own⟩, before.1.mpr early, fun reused => late (behind.1.mp reused),
    before.2.trans (if_pos early), behind.2.trans (if_neg late)⟩

end SessionRegistry

end PageServer
