import PageServer.Site.Connection
import PageServer.Proofs.Session.Resolve

/-! # Visits to a site

Connections are served one after another, and the sessions are swept in between. A connection whose head
is accepted is a visit, which is served on one session (`visit?_cases`). What the other visits and the
sweeps may do to a session is little: it stays what it is, and is found by its id, until it has expired
(`SessionRegistry.Tracked`); its attributes are those that the last visit of it left.
-/

namespace PageServer

namespace SessionRegistry

/-- A session has this number, id, host and these attributes, and is found by its id unless it has
expired. -/
def Tracked (r : SessionRegistry) (now number : Nat) (id host : String) (attributes : Scope) : Prop :=
  ∃ s, r.session? number = some s ∧ s.id = id ∧ s.host = host ∧ s.attributes = attributes ∧
    (r.lookup id = some number ∨ s.expiresAt ≤ now)

variable {r : SessionRegistry} {now number : Nat} {id host : String} {attributes : Scope}

theorem Tracked.later (tracked : r.Tracked now number id host attributes) {time : Nat}
    (after : now ≤ time) : r.Tracked time number id host attributes := by
  obtain ⟨s, session, sameId, sameHost, same, found⟩ := tracked
  exact ⟨s, session, sameId, sameHost, same, found.imp_right fun past => Nat.le_trans past after⟩

theorem Tracked.sweep (tracked : r.Tracked now number id host attributes) :
    (r.sweep now).2.Tracked now number id host attributes := by
  obtain ⟨s, session, sameId, sameHost, same, found⟩ := tracked
  refine ⟨s, session, sameId, sameHost, same, ?_⟩
  rcases found with found | past
  · by_cases past : s.expiresAt ≤ now
    · exact .inr past
    · left
      have running : r.isExpired number now = false := by
        simpa [isExpired, session, Session.isExpired] using past
      rw [lookup_sweep, found, Option.filter_some, running]
      rfl
  · exact .inr past

theorem Tracked.create (tracked : r.Tracked now number id host attributes) (owner : String) (time : Nat) :
    (r.create owner time).2.Tracked now number id host attributes := by
  obtain ⟨s, session, sameId, sameHost, same, found⟩ := tracked
  refine ⟨s, session?_create_of_some session owner time, sameId, sameHost, same, ?_⟩
  exact found.imp_left fun found =>
    (r.lookup_create owner time id).trans ((if_neg (freshId_ne found)).trans found)

/-- Only a session that has expired is taken out. -/
theorem Tracked.erase (tracked : r.Tracked now number id host attributes) {other : Nat} {t : Session}
    {gone : String} (held : r.Holds gone other t) (past : t.expiresAt ≤ now) :
    ({ r with live := r.live.erase gone } : SessionRegistry).Tracked now number id host attributes := by
  obtain ⟨s, session, sameId, sameHost, same, found⟩ := tracked
  refine ⟨s, session, sameId, sameHost, same, ?_⟩
  rcases found with found | expired
  · rw [lookup_erase]
    split
    · next equal =>
      right
      subst equal
      obtain ⟨-, rfl⟩ := held.unique ⟨found, session⟩
      exact past
    · exact .inl found
  · exact .inr expired

/-- A session that is found may change its expiry, and any other. -/
theorem Tracked.extend (sound : r.Sound) (tracked : r.Tracked now number id host attributes) {other : Nat}
    {t : Session} {shown : String} (held : r.Holds shown other t) (deadline : Nat) :
    (r.modify other (·.extendTo deadline)).Tracked now number id host attributes := by
  obtain ⟨s, session, sameId, sameHost, same, found⟩ := tracked
  by_cases own : other = number
  · subst own
    have heldToo : r.Holds shown other s := ⟨held.1, session⟩
    obtain rfl := (heldToo.id_eq sound).symm.trans sameId
    exact ⟨s.extendTo deadline, by rw [session?_modify, if_pos rfl, session, Option.map_some], sameId,
      sameHost, same, .inl held.1⟩
  · exact ⟨s, by rwa [session?_modify, if_neg own], sameId, sameHost, same, found⟩

/-- Resolving an id, whichever it is. -/
theorem Tracked.resolve (sound : r.Sound) (tracked : r.Tracked now number id host attributes)
    {presented : Option String} {owner : String} {result : Nat × Bool × SessionRegistry}
    (outcome : r.Outcome owner now presented result) :
    result.2.2.Tracked now number id host attributes := by
  cases outcome with
  | absent | unknown | foreign => exact tracked.create owner now
  | expired held own past => exact (tracked.erase held past).create owner now
  | reused held own runs => exact tracked.extend sound held _

/-- Writing the attributes of a session, this one or another. -/
theorem Tracked.write (tracked : r.Tracked now number id host attributes) (other : Nat)
    (written : Scope) :
    (r.modify other fun s => { s with attributes := written }).Tracked now number id host
      (if other = number then written else attributes) := by
  obtain ⟨s, session, sameId, sameHost, same, found⟩ := tracked
  split
  · next own =>
    subst own
    exact ⟨{ s with attributes := written }, by rw [session?_modify, if_pos rfl, session, Option.map_some],
      sameId, sameHost, rfl, found⟩
  · next own => exact ⟨s, by rwa [session?_modify, if_neg own], sameId, sameHost, same, found⟩

/-- A session is issued by a registry that draws ids as before. -/
theorem Outcome.issues {presented : Option String} {owner : String}
    {result : Nat × Bool × SessionRegistry} (outcome : r.Outcome owner now presented result)
    (isNew : result.2.1 = true) :
    ∃ left : SessionRegistry, left.draw = r.draw ∧ result = left.issue owner now := by
  cases outcome with
  | absent | unknown | foreign => exact ⟨r, rfl, rfl⟩
  | expired => exact ⟨{ r with live := r.live.erase _ }, rfl, rfl⟩
  | reused => contradiction

theorem Outcome.draw_eq {presented : Option String} {owner : String}
    {result : Nat × Bool × SessionRegistry} (outcome : r.Outcome owner now presented result) :
    result.2.2.draw = r.draw := by
  cases outcome <;> rfl

theorem tracked_issue (r : SessionRegistry) (owner : String) (now : Nat) :
    (r.issue owner now).2.2.Tracked now (r.issue owner now).1 r.freshId.1 owner ∅ :=
  ⟨_, (r.session?_create owner now r.issued.size).trans (if_pos rfl), rfl, rfl, rfl,
    .inl ((r.lookup_create owner now r.freshId.1).trans (if_pos rfl))⟩

end SessionRegistry

namespace Site

/-- What happens to a server. -/
inductive Event
  | connection (stream : Http.Stream) (sink : Sink) (now : Nat)
  | sweep (now : Nat)

def Event.instant : Event → Nat
  | .connection _ _ now | .sweep now => now

/-- A request that was served: the session that served it, the exchange at its start and at its end, and
what was returned. -/
structure Visit where
  number : Nat
  isNew : Bool
  first : Exchange
  last : Exchange
  result : Except (Halt ServerError) Unit

/-- The visit that a connection makes, if its head is accepted. -/
def visit? (site : Site) (r : SessionRegistry) (now : Nat) (stream : Http.Stream) (sink : Sink) :
    Option Visit :=
  match site.readRequest stream with
  | .error _ => none
  | .ok head =>
    let (number, isNew, next) :=
      r.resolve (head.cookie? Session.cookieName) (head.host site.settings.defaultDomain) now
    (next.session? number).map fun s =>
      let first := site.exchange head s isNew sink
      match site.answer head.path first with
      | .ok _ last => { number, isNew, first, last, result := .ok () }
      | .error halt last => { number, isNew, first, last, result := .error halt }

def Event.visit? (site : Site) (r : SessionRegistry) : Event → Option Visit
  | .connection stream sink now => site.visit? r now stream sink
  | .sweep _ => none

def Event.next (site : Site) (r : SessionRegistry) : Event → SessionRegistry
  | .connection stream sink now => (site.serve r now stream sink).sessions
  | .sweep now => (r.sweep now).2

def after (site : Site) (r : SessionRegistry) (events : List Event) : SessionRegistry :=
  events.foldl (Event.next site) r

def visitsAmong (site : Site) (r : SessionRegistry) : List Event → List Visit
  | [] => []
  | event :: rest => (event.visit? site r).toList ++ site.visitsAmong (event.next site r) rest

/-- The attributes of a session after visits: those that the last visit of it left, or those before. -/
def leftBy (visits : List Visit) (number : Nat) (before : Scope) : Scope :=
  visits.foldl (fun attributes v => if v.number = number then v.last.session.attributes else attributes)
    before

/-- All that a visit is: its head was accepted and a session resolved for it, the path was answered on
the exchange for both, and the attributes at its end were kept. -/
structure Makes (site : Site) (r : SessionRegistry) (now : Nat) (stream : Http.Stream) (sink : Sink)
    (head : Http.RequestHead) (v : Visit) (next : SessionRegistry) : Prop where
  accepted : site.readRequest stream = .ok head
  resolved : r.resolve (head.cookie? Session.cookieName) (head.host site.settings.defaultDomain) now =
    (v.number, v.isNew, next)
  session : next.session? v.number = some v.first.session
  first : v.first = site.exchange head v.first.session v.isNew sink
  answered : site.answer head.path v.first = match v.result with
    | .ok _ => .ok () v.last
    | .error halt => .error halt v.last
  served : site.serve r now stream sink = {
    result := v.result, sink := v.last.sink
    sessions := next.modify v.number fun s => { s with attributes := v.last.session.attributes } }

variable {site : Site} {r : SessionRegistry} {now : Nat} {stream : Http.Stream} {sink : Sink}

/-- An accepted head makes a visit. -/
theorem makes_of_accepted {head : Http.RequestHead} (accepted : site.readRequest stream = .ok head) :
    ∃ v next, site.visit? r now stream sink = some v ∧ site.Makes r now stream sink head v next := by
  obtain ⟨s, session⟩ := r.session?_resolve (head.cookie? Session.cookieName)
    (head.host site.settings.defaultDomain) now
  generalize resolved : r.resolve (head.cookie? Session.cookieName)
    (head.host site.settings.defaultDomain) now = found at session
  obtain ⟨number, isNew, next⟩ := found
  cases answered : site.answer head.path (site.exchange head s isNew sink) with
  | ok _ last =>
    refine ⟨⟨number, isNew, site.exchange head s isNew sink, last, .ok ()⟩, next, ?_, ?_⟩
    · simp only [visit?, accepted, resolved, session, Option.map_some, answered]
    · refine ⟨accepted, resolved, session, rfl, answered, ?_⟩
      simp only [serve, accepted, serveRequest, resolved, session, answered]
  | error halt last =>
    refine ⟨⟨number, isNew, site.exchange head s isNew sink, last, .error halt⟩, next, ?_, ?_⟩
    · simp only [visit?, accepted, resolved, session, Option.map_some, answered]
    · refine ⟨accepted, resolved, session, rfl, answered, ?_⟩
      simp only [serve, accepted, serveRequest, resolved, session, answered]

/-- A connection makes a visit, or leaves the sessions alone. -/
theorem visit?_cases (site : Site) (r : SessionRegistry) (now : Nat) (stream : Http.Stream) (sink : Sink) :
    site.visit? r now stream sink = none ∧ (site.serve r now stream sink).sessions = r ∨
      ∃ head v next, site.visit? r now stream sink = some v ∧ site.Makes r now stream sink head v next := by
  cases read : site.readRequest stream with
  | error e => exact .inl ⟨by simp only [visit?, read], by simp only [serve, read]⟩
  | ok head => exact .inr ⟨head, makes_of_accepted read⟩

theorem makes_of_visit? {v : Visit} (visited : site.visit? r now stream sink = some v) :
    ∃ head next, site.Makes r now stream sink head v next := by
  obtain ⟨refused, -⟩ | ⟨head, w, next, same, makes⟩ := site.visit?_cases r now stream sink
  · rw [refused] at visited
    contradiction
  · rw [same] at visited
    cases visited
    exact ⟨head, next, makes⟩

theorem sound_next (sound : r.Sound) (event : Event) : (event.next site r).Sound := by
  cases event with
  | sweep now => exact sound.sweep now
  | connection stream sink now =>
    obtain ⟨-, same⟩ | ⟨head, v, next, -, makes⟩ := site.visit?_cases r now stream sink
    · simpa only [Event.next, same] using sound
    · have outcome := sound.outcome (head.cookie? Session.cookieName)
        (head.host site.settings.defaultDomain) now
      rw [makes.resolved] at outcome
      simp only [Event.next, makes.served]
      exact (outcome.sound sound).modify v.number fun _ => rfl

theorem sound_after (sound : r.Sound) (events : List Event) : (site.after r events).Sound := by
  induction events generalizing r with
  | nil => exact sound
  | cons event rest ih => exact ih (sound_next sound event)

theorem draw_next (sound : r.Sound) (event : Event) : (event.next site r).draw = r.draw := by
  cases event with
  | sweep now => rfl
  | connection stream sink now =>
    obtain ⟨-, same⟩ | ⟨head, v, next, -, makes⟩ := site.visit?_cases r now stream sink
    · simp only [Event.next, same]
    · have outcome := sound.outcome (head.cookie? Session.cookieName)
        (head.host site.settings.defaultDomain) now
      rw [makes.resolved] at outcome
      simp only [Event.next, makes.served]
      exact outcome.draw_eq

theorem draw_after (sound : r.Sound) (events : List Event) : (site.after r events).draw = r.draw := by
  induction events generalizing r with
  | nil => rfl
  | cons event rest ih => exact (ih (sound_next sound event)).trans (draw_next sound event)

theorem leftBy_append (first second : List Visit) (number : Nat) (before : Scope) :
    leftBy (first ++ second) number before = leftBy second number (leftBy first number before) :=
  List.foldl_append

variable {number : Nat} {id host : String} {attributes : Scope}

/-- An event lets a session be, but for what a visit of it leaves in it. -/
theorem tracked_next (sound : r.Sound) (tracked : r.Tracked now number id host attributes) {event : Event}
    (due : now ≤ event.instant) :
    (event.next site r).Tracked event.instant number id host
      (leftBy (event.visit? site r).toList number attributes) := by
  have before := tracked.later due
  cases event with
  | sweep time => exact before.sweep
  | connection stream sink time =>
    obtain ⟨refused, same⟩ | ⟨head, v, next, visited, makes⟩ := site.visit?_cases r time stream sink
    · simp only [Event.next, Event.visit?, refused, same]
      exact before
    · have outcome := sound.outcome (head.cookie? Session.cookieName)
        (head.host site.settings.defaultDomain) time
      rw [makes.resolved] at outcome
      simp only [Event.next, Event.visit?, visited, makes.served]
      exact (before.resolve sound outcome).write v.number v.last.session.attributes

/-- By induction on the events. -/
theorem tracked_after (sound : r.Sound) (tracked : r.Tracked now number id host attributes)
    {events : List Event} (ordered : (now :: events.map Event.instant).Pairwise (· ≤ ·)) {last : Nat}
    (bound : ∀ time ∈ now :: events.map Event.instant, time ≤ last) :
    (site.after r events).Tracked last number id host
      (leftBy (site.visitsAmong r events) number attributes) := by
  induction events generalizing r now attributes with
  | nil => exact tracked.later (bound now List.mem_cons_self)
  | cons event rest ih =>
    rw [List.map_cons] at ordered bound
    obtain ⟨due, orderedRest⟩ := List.pairwise_cons.mp ordered
    have next : (event.next site r).Tracked event.instant number id host _ :=
      tracked_next sound tracked (due event.instant List.mem_cons_self)
    rw [visitsAmong, leftBy_append]
    exact ih (sound_next sound event) next orderedRest fun time member =>
      bound time (List.mem_cons_of_mem now member)

end Site

end PageServer
