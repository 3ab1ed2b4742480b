import PageServer.Proofs.Session.FreshId

/-! # Resolving sessions

Whatever was done to a registry before, what is found by an id is a session with this id
(`SessionRegistry.Sound`). From such a registry, resolving has one of five outcomes (`Outcome`), which
say all that it does. `resolved_run` draws from them what clients rely on: a session serves its own
host only, goes on as it was left, and is not touched by requests for others.
-/

namespace PageServer.SessionRegistry

variable (r : SessionRegistry)

theorem session?_create (host : String) (now number : Nat) :
    (r.create host now).2.session? number =
      if number = r.issued.size then some ⟨r.freshId.1, host, r.deadline now, ∅⟩
      else r.session? number :=
  Array.getElem?_push

theorem lookup_create (host : String) (now : Nat) (id : String) :
    (r.create host now).2.lookup id =
      if r.freshId.1 = id then some r.issued.size else r.lookup id := by
  simp [create, lookup, Std.ExtTreeMap.getElem?_insert]

theorem lookup_freshId : r.lookup r.freshId.1 = none :=
  Std.ExtTreeMap.getElem?_eq_none_of_contains_eq_false r.freshId_free

/-- A new session gets no id under which another is found. -/
theorem freshId_ne {r : SessionRegistry} {id : String} {number : Nat}
    (found : r.lookup id = some number) : r.freshId.1 ≠ id := by
  intro fresh
  rw [← fresh, lookup_freshId] at found
  contradiction

theorem session?_modify (number : Nat) (change : Session → Session) (other : Nat) :
    (r.modify number change).session? other =
      if number = other then (r.session? other).map change else r.session? other :=
  Array.getElem?_modify

theorem lookup_erase (id other : String) :
    ({ r with live := r.live.erase id } : SessionRegistry).lookup other =
      if id = other then none else r.lookup other := by
  simp [lookup, Std.ExtTreeMap.getElem?_erase]

theorem lookup_sweep (now : Nat) (id : String) :
    (r.sweep now).2.lookup id = (r.lookup id).filter fun number => !r.isExpired number now := by
  simp [sweep, lookup]

variable {r}

theorem session?_eq_none_iff {number : Nat} : r.session? number = none ↔ r.issued.size ≤ number :=
  Array.getElem?_eq_none_iff

/-- A new session leaves those alone that were issued before. -/
theorem session?_create_of_some {number : Nat} {s : Session} (session : r.session? number = some s)
    (host : String) (now : Nat) : (r.create host now).2.session? number = some s := by
  have earlier : number ≠ r.issued.size := by
    intro last
    rw [session?_eq_none_iff.mpr (by omega)] at session
    contradiction
  rwa [session?_create, if_neg earlier]

/-- Whatever is presented, resolving gives the number of a session. -/
theorem session?_resolve (r : SessionRegistry) (presented : Option String) (host : String) (now : Nat) :
    ∃ s, (r.resolve presented host now).2.2.session? (r.resolve presented host now).1 = some s := by
  have issued (left : SessionRegistry) :
      ∃ s, (left.create host now).2.session? (left.create host now).1 = some s :=
    ⟨_, (left.session?_create host now left.issued.size).trans (if_pos rfl)⟩
  simp only [resolve]
  split
  · exact issued r
  · next id number s found =>
    split
    · exact issued r
    · split
      · exact issued _
      · have session : r.session? number = some s := by
          obtain ⟨_, -, inner⟩ := Option.bind_eq_some_iff.mp found
          obtain ⟨_, -, mapped⟩ := Option.bind_eq_some_iff.mp inner
          obtain ⟨_, session, same⟩ := Option.map_eq_some_iff.mp mapped
          cases same
          exact session
        exact ⟨_, by rw [session?_modify, if_pos rfl, session, Option.map_some]⟩

/-- The session with this number can be found by this id. -/
def Holds (r : SessionRegistry) (id : String) (number : Nat) (s : Session) : Prop :=
  r.lookup id = some number ∧ r.session? number = some s

/-- What is found by an id is a session with this id. -/
def Sound (r : SessionRegistry) : Prop :=
  ∀ id number, r.lookup id = some number → ∃ s, r.session? number = some s ∧ s.id = id

theorem Holds.id_eq {id : String} {number : Nat} {s : Session} (held : r.Holds id number s)
    (sound : r.Sound) : s.id = id := by
  obtain ⟨t, session, same⟩ := sound id number held.1
  rw [held.2] at session
  cases session
  exact same

theorem Sound.erase (sound : r.Sound) (id : String) :
    ({ r with live := r.live.erase id } : SessionRegistry).Sound := by
  intro other number found
  rw [lookup_erase] at found
  split at found
  · contradiction
  · exact sound other number found

theorem Sound.sweep (sound : r.Sound) (now : Nat) : (r.sweep now).2.Sound := by
  intro id number found
  rw [lookup_sweep] at found
  exact sound id number (Option.eq_some_of_filter_eq_some found)

theorem Sound.modify (sound : r.Sound) (number : Nat) {change : Session → Session}
    (sameId : ∀ s, (change s).id = s.id) : (r.modify number change).Sound := by
  intro id other found
  obtain ⟨s, session, same⟩ := sound id other found
  rw [session?_modify, session]
  split
  · exact ⟨change s, rfl, (sameId s).trans same⟩
  · exact ⟨s, rfl, same⟩

theorem Sound.create (sound : r.Sound) (host : String) (now : Nat) :
    (r.create host now).2.Sound := by
  intro id number found
  rw [lookup_create] at found
  split at found
  · next same =>
    cases found
    exact ⟨_, (session?_create r host now r.issued.size).trans (if_pos rfl), same⟩
  · obtain ⟨s, session, same⟩ := sound id number found
    exact ⟨s, session?_create_of_some session host now, same⟩

/-- A new session for a host, in the form in which resolving gives it. -/
def issue (r : SessionRegistry) (host : String) (now : Nat) : Nat × Bool × SessionRegistry :=
  ((r.create host now).1, true, (r.create host now).2)

/-- What resolving can come to. -/
inductive Outcome (r : SessionRegistry) (host : String) (now : Nat) :
    Option String → Nat × Bool × SessionRegistry → Prop
  /-- No id was presented. -/
  | absent : Outcome r host now none (r.issue host now)
  /-- Nothing is found by the id. -/
  | unknown {id : String} (missing : r.lookup id = none) :
      Outcome r host now (some id) (r.issue host now)
  /-- The session belongs to another host. -/
  | foreign {id : String} {number : Nat} {s : Session} (held : r.Holds id number s)
      (other : s.host ≠ host) : Outcome r host now (some id) (r.issue host now)
  /-- The session is over. -/
  | expired {id : String} {number : Nat} {s : Session} (held : r.Holds id number s)
      (own : s.host = host) (past : s.expiresAt ≤ now) :
      Outcome r host now (some id)
        (issue ({ r with live := r.live.erase id } : SessionRegistry) host now)
  /-- The session goes on. -/
  | reused {id : String} {number : Nat} {s : Session} (held : r.Holds id number s)
      (own : s.host = host) (runs : now < s.expiresAt) :
      Outcome r host now (some id) (number, false, r.modify number (·.extendTo (r.deadline now)))

theorem resolve_of_missing {id : String} (missing : r.lookup id = none) (host : String) (now : Nat) :
    r.resolve (some id) host now = r.issue host now := by
  simp only [resolve, Option.bind_some, missing, Option.bind_none, issue]

theorem resolve_of_holds {id : String} {number : Nat} {s : Session} (held : r.Holds id number s)
    (host : String) (now : Nat) :
    r.resolve (some id) host now =
      if s.host ≠ host then r.issue host now
      else if s.expiresAt ≤ now then
        issue ({ r with live := r.live.erase id } : SessionRegistry) host now
      else (number, false, r.modify number (·.extendTo (r.deadline now))) := by
  simp only [resolve, Option.bind_some, held.1, held.2, Option.map_some, issue, Session.isExpired,
    decide_eq_true_eq]

theorem Sound.outcome (sound : r.Sound) (presented : Option String) (host : String) (now : Nat) :
    Outcome r host now presented (r.resolve presented host now) := by
  cases presented with
  | none => exact .absent
  | some id =>
    cases found : r.lookup id with
    | none =>
      rw [resolve_of_missing found]
      exact .unknown found
    | some number =>
      obtain ⟨s, session, -⟩ := sound id number found
      rw [resolve_of_holds ⟨found, session⟩]
      split
      · next other => exact .foreign ⟨found, session⟩ other
      · next own =>
        rw [ne_eq, Decidable.not_not] at own
        split
        · next past => exact .expired ⟨found, session⟩ own past
        · next running => exact .reused ⟨found, session⟩ own (Nat.not_le.mp running)

theorem Outcome.sound {presented : Option String} {host : String} {now : Nat}
    {result : Nat × Bool × SessionRegistry} (outcome : r.Outcome host now presented result)
    (sound : r.Sound) : result.2.2.Sound := by
  cases outcome with
  | absent | unknown | foreign => exact sound.create host now
  | expired => exact (sound.erase _).create host now
  | reused => exact sound.modify _ fun _ => rfl

inductive Operation
  | resolve (presented : Option String) (host : String) (now : Nat)
  | create (host : String) (now : Nat)
  | sweep (now : Nat)
  /-- Whoever holds a session writes its attributes, also after it left the registry. -/
  | write (number : Nat) (change : Scope → Scope)

def Operation.apply (r : SessionRegistry) : Operation → SessionRegistry
  | .resolve presented host now => (r.resolve presented host now).2.2
  | .create host now => (r.create host now).2
  | .sweep now => (r.sweep now).2
  | .write number change => r.modify number fun s => { s with attributes := change s.attributes }

/-- A new registry after some operations. The draws may be any, also ones that repeat. -/
def run (timeout : Nat) (draw : Nat → String) (operations : List Operation) : SessionRegistry :=
  operations.foldl Operation.apply { timeout, draw }

theorem Sound.apply (sound : r.Sound) (operation : Operation) : (operation.apply r).Sound := by
  cases operation with
  | resolve presented host now => exact (sound.outcome presented host now).sound sound
  | create host now => exact sound.create host now
  | sweep now => exact sound.sweep now
  | write number change => exact sound.modify number fun _ => rfl

theorem Sound.foldl (sound : r.Sound) (operations : List Operation) :
    (operations.foldl Operation.apply r).Sound := by
  induction operations generalizing r with
  | nil => exact sound
  | cons operation rest ih => exact ih (sound.apply operation)

theorem sound_run (timeout : Nat) (draw : Nat → String) (operations : List Operation) :
    (run timeout draw operations).Sound := by
  refine Sound.foldl ?_ operations
  intro id number found
  simp [lookup] at found

/-- The session with this number and the registry afterwards are right for a client of the host that
presented an id, if it did. -/
structure Resolved (r : SessionRegistry) (presented : Option String) (host : String) (now : Nat)
    (number : Nat) (isNew : Bool) (next : SessionRegistry) : Prop where
  /-- The session belongs to the host and is found by its own id. -/
  owned : ∃ s, next.Holds s.id number s ∧ s.host = host
  /-- No session is issued exactly if the id is that of a session of the host that is not over. -/
  reused_iff : isNew = false ↔ ∃ id other s, presented = some id ∧ r.Holds id other s ∧
    s.host = host ∧ now < s.expiresAt
  /-- A session that goes on is the presented one, and only its expiry moves. -/
  reused : isNew = false → ∃ id s, presented = some id ∧ r.Holds id number s ∧
    next.session? number = some { s with expiresAt := max s.expiresAt (r.deadline now) }
  /-- An issued session never was there before, has no attributes and shares its id with no other. -/
  issued : isNew = true → r.session? number = none ∧ ∃ s, next.session? number = some s ∧
    s.attributes = ∅ ∧ ∀ id other t, next.Holds id other t → other ≠ number → t.id ≠ s.id
  /-- The presented session leaves the registry if it belongs to the host and is over. No other does. -/
  leaves_iff : ∀ id other s, r.Holds id other s →
    (next.lookup id ≠ some other ↔ presented = some id ∧ s.host = host ∧ s.expiresAt ≤ now)
  /-- Only the session that is returned can enter the registry. -/
  enters : ∀ id other, next.lookup id = some other → r.lookup id = some other ∨ other = number
  /-- Every session but the one that is returned stays as it is, whether it can be found or not. -/
  kept : ∀ other, other ≠ number → next.session? other = r.session? other

theorem Holds.unique {id : String} {number other : Nat} {s t : Session} (left : r.Holds id number s)
    (right : r.Holds id other t) : number = other ∧ s = t := by
  obtain ⟨foundLeft, sessionLeft⟩ := left
  obtain ⟨foundRight, sessionRight⟩ := right
  rw [foundLeft] at foundRight
  cases foundRight
  rw [sessionLeft] at sessionRight
  exact ⟨rfl, Option.some.inj sessionRight⟩

theorem Holds.lt {id : String} {number : Nat} {s : Session} (held : r.Holds id number s) :
    number < r.issued.size :=
  (Array.getElem?_eq_some_iff.mp held.2).1

/-- A session is issued from a registry that may have lost the presented one. -/
theorem Resolved.of_issue {left : SessionRegistry} {presented : Option String} {host : String}
    {now : Nat} (sound : left.Sound) (sameIssued : left.issued = r.issued)
    (enters : ∀ id other, left.lookup id = some other → r.lookup id = some other)
    (gone : ∀ id other s, r.Holds id other s →
      (left.lookup id = none ↔ presented = some id ∧ s.host = host ∧ s.expiresAt ≤ now))
    (unusable : ∀ id other s, presented = some id → r.Holds id other s → s.host = host →
      s.expiresAt ≤ now) :
    Resolved r presented host now (left.create host now).1 true (left.create host now).2 := by
  have sessions : ∀ other, left.session? other = r.session? other := fun other => by
    rw [session?, session?, sameIssued]
  have number : (left.create host now).1 = left.issued.size := rfl
  have session := left.session?_create host now left.issued.size
  rw [if_pos rfl] at session
  constructor
  case owned =>
    exact ⟨_, ⟨by rw [lookup_create, if_pos rfl, number], session⟩, rfl⟩
  case reused_iff =>
    refine ⟨nofun, ?_⟩
    rintro ⟨id, other, s, presented, held, own, runs⟩
    exact absurd (unusable id other s presented held own) (Nat.not_le.mpr runs)
  case reused => exact nofun
  case issued =>
    intro _
    have unknown : r.session? left.issued.size = none := by
      rw [← sessions]
      exact session?_eq_none_iff.mpr (Nat.le_refl _)
    refine ⟨unknown, _, session, rfl, ?_⟩
    intro id other t held distinct same
    have own : t.id = id := held.id_eq (sound.create host now)
    have found := held.1
    rw [lookup_create, if_pos (same.symm.trans own)] at found
    exact distinct (Option.some.inj found).symm
  case leaves_iff =>
    intro id other s held
    rw [← gone id other s held, lookup_create]
    cases found : left.lookup id with
    | none =>
      have earlier := held.lt
      rw [← sameIssued] at earlier
      simp only [iff_true]
      split
      · exact fun same => Nat.ne_of_gt earlier (Option.some.inj same)
      · exact nofun
    | some found' =>
      have same := enters id found' found
      rw [held.1] at same
      rw [if_neg (freshId_ne found)]
      simp [same]
  case enters =>
    intro id other found
    rw [lookup_create] at found
    split at found
    · exact .inr (Option.some.inj found).symm
    · exact .inl (enters id other found)
  case kept =>
    intro other distinct
    rw [number] at distinct
    rw [session?_create, if_neg distinct, sessions]

/-- The presented session is not lost when another is issued, because it belongs to another host. -/
theorem Resolved.of_foreign {presented : Option String} {host : String} {now : Nat} (sound : r.Sound)
    (foreign : ∀ id other s, presented = some id → r.Holds id other s → s.host ≠ host) :
    Resolved r presented host now (r.create host now).1 true (r.create host now).2 := by
  refine .of_issue sound rfl (fun _ _ found => found) ?_ ?_
  · intro id other s held
    constructor
    · intro missing
      rw [held.1] at missing
      contradiction
    · rintro ⟨shown, own, -⟩
      exact absurd own (foreign id other s shown held)
  · intro id other s shown held own
    exact absurd own (foreign id other s shown held)

theorem Resolved.of_expired {id : String} {number : Nat} {s : Session} {host : String} {now : Nat}
    (sound : r.Sound) (held : r.Holds id number s) (own : s.host = host) (past : s.expiresAt ≤ now) :
    let left : SessionRegistry := { r with live := r.live.erase id }
    Resolved r (some id) host now (left.create host now).1 true (left.create host now).2 := by
  refine .of_issue (sound.erase id) rfl ?_ ?_ ?_
  · intro other found kept
    rw [lookup_erase] at kept
    split at kept
    · contradiction
    · exact kept
  · intro other found t heldToo
    rw [lookup_erase]
    split
    · next same =>
      cases same
      obtain ⟨-, rfl⟩ := held.unique heldToo
      simp only [own, past, and_self]
    · next distinct => simp [heldToo.1, distinct]
  · intro other found t shown heldToo _
    cases shown
    obtain ⟨-, rfl⟩ := held.unique heldToo
    exact past

theorem Resolved.of_reused {id : String} {number : Nat} {s : Session} {host : String} {now : Nat}
    (sound : r.Sound) (held : r.Holds id number s) (own : s.host = host) (runs : now < s.expiresAt) :
    Resolved r (some id) host now number false (r.modify number (·.extendTo (r.deadline now))) := by
  have session : (r.modify number (·.extendTo (r.deadline now))).session? number =
      some (s.extendTo (r.deadline now)) := by
    rw [session?_modify, if_pos rfl, held.2, Option.map_some]
  constructor
  case owned =>
    obtain rfl := held.id_eq sound
    exact ⟨s.extendTo (r.deadline now), ⟨held.1, session⟩, own⟩
  case reused_iff => exact ⟨fun _ => ⟨id, number, s, rfl, held, own, runs⟩, fun _ => rfl⟩
  case reused => exact fun _ => ⟨id, s, rfl, held, session⟩
  case issued => exact nofun
  case leaves_iff =>
    intro other found t heldToo
    constructor
    · intro gone
      exact absurd heldToo.1 gone
    · rintro ⟨shown, -, past⟩
      cases shown
      obtain ⟨-, rfl⟩ := held.unique heldToo
      exact absurd past (Nat.not_le.mpr runs)
  case enters => exact fun _ _ found => .inl found
  case kept =>
    intro other distinct
    rw [session?_modify, if_neg (Ne.symm distinct)]

theorem Outcome.resolved {presented : Option String} {host : String} {now : Nat}
    {result : Nat × Bool × SessionRegistry} (outcome : r.Outcome host now presented result)
    (sound : r.Sound) : Resolved r presented host now result.1 result.2.1 result.2.2 := by
  cases outcome with
  | absent => exact .of_foreign sound nofun
  | unknown missing =>
    refine .of_foreign sound ?_
    intro id other s shown held
    cases shown
    rw [held.1] at missing
    contradiction
  | foreign held distinct =>
    refine .of_foreign sound ?_
    intro id other s shown heldToo
    cases shown
    obtain ⟨-, rfl⟩ := held.unique heldToo
    exact distinct
  | expired held own past => exact .of_expired sound held own past
  | reused held own runs => exact .of_reused sound held own runs

/-- Whatever was done to a registry before, resolving is right. -/
theorem resolved_run (timeout : Nat) (draw : Nat → String) (operations : List Operation)
    (presented : Option String) (host : String) (now : Nat) :
    ∃ number isNew next,
      (run timeout draw operations).resolve presented host now = (number, isNew, next) ∧
      Resolved (run timeout draw operations) presented host now number isNew next :=
  have sound := sound_run timeout draw operations
  ⟨_, _, _, rfl, (sound.outcome presented host now).resolved sound⟩

/-- A session whose id is the only one that is ever drawn. Its host goes on with it while it runs, another host
gets a session of its own and leaves this one alone, and when it is over its host gets another one. -/
theorem resolved_run_same_draw :
    let r := run 10 (fun _ => "x") [.create "a" 0, .write 0 (·.insert "seen" "1")]
    ∃ s, r.Holds "x" 0 s ∧ s.host = "a" ∧ s.expiresAt = 10 ∧
      (∃ next, r.resolve (some "x") "a" 9 = (0, false, next) ∧
        next.session? 0 = some { s with expiresAt := 19 }) ∧
      (∃ number next, r.resolve (some "x") "b" 9 = (number, true, next) ∧ next.lookup "x" = some 0 ∧
        next.session? 0 = some s) ∧
      ∃ number next, r.resolve (some "x") "a" 10 = (number, true, next) ∧ next.lookup "x" ≠ some 0 := by
  intro r
  have found : r.lookup "x" = some 0 := by decide +kernel
  have told : (r.session? 0).map (fun s => (s.host, s.expiresAt)) = some ("a", 10) := by decide +kernel
  obtain ⟨s, session, fields⟩ := Option.map_eq_some_iff.mp told
  obtain ⟨own, expiry⟩ := Prod.mk.inj fields
  have held : r.Holds "x" 0 s := ⟨found, session⟩
  have resolved (host : String) (now : Nat) : ∃ number isNew next,
      r.resolve (some "x") host now = (number, isNew, next) ∧
        Resolved r (some "x") host now number isNew next := resolved_run 10 _ _ (some "x") host now
  -- what was presented can only go on as the one session that it is the id of
  have onlyIf {host : String} {now number : Nat} {next : SessionRegistry}
      (goesOn : Resolved r (some "x") host now number false next) : s.host = host ∧ now < s.expiresAt := by
    obtain ⟨_, _, _, ⟨⟩, heldToo, same, runs⟩ := goesOn.reused_iff.mp rfl
    obtain ⟨-, rfl⟩ := held.unique heldToo
    exact ⟨same, runs⟩
  refine ⟨s, held, own, expiry, ?_, ?_, ?_⟩
  · obtain ⟨number, isNew, next, done, right⟩ := resolved "a" 9
    obtain rfl : isNew = false :=
      right.reused_iff.mpr ⟨"x", 0, s, rfl, held, own, by rw [expiry]; decide⟩
    obtain ⟨_, _, ⟨⟩, heldToo, extended⟩ := right.reused rfl
    obtain ⟨rfl, rfl⟩ := held.unique heldToo
    have deadline : max s.expiresAt (r.deadline 9) = 19 := by
      rw [expiry]
      decide +kernel
    exact ⟨next, done, deadline ▸ extended⟩
  · obtain ⟨number, isNew, next, done, right⟩ := resolved "b" 9
    have foreign : s.host ≠ "b" := own ▸ by decide
    cases isNew with
    | false => exact absurd (onlyIf right).1 foreign
    | true =>
      have other : 0 ≠ number := by
        rintro rfl
        exact absurd (session.symm.trans (right.issued rfl).1) nofun
      have stays : next.lookup "x" = some 0 :=
        not_not.mp fun gone => foreign ((right.leaves_iff "x" 0 s held).mp gone).2.1
      exact ⟨number, next, done, stays, (right.kept 0 other).trans session⟩
  · obtain ⟨number, isNew, next, done, right⟩ := resolved "a" 10
    cases isNew with
    | false => exact absurd (onlyIf right).2 (by rw [expiry]; decide)
    | true => exact ⟨number, next, done, (right.leaves_iff "x" 0 s held).mpr ⟨rfl, own, expiry.le⟩⟩

end PageServer.SessionRegistry
