import PageServer.Proofs.Session.Resolve

/-! # Sweeping is not noticed

Two registries serve the same calls, and one of them is swept in between. They come to hold different
sessions, but only such as have expired, and these are of no more use to anybody: the client that presents
one gets a new session from either registry (`Unswept`, which each call keeps). So the calls are answered
alike, and a last sweep of both leaves the same sessions (`sweeps_unnoticed`).

The two registries may draw different ids. A client presents the id that it was given by the registry it
talks to, and what it learns of a session is all but the id.
-/

namespace PageServer

/-- All of a session but its id. -/
def Session.withoutId (s : Session) : Session :=
  { s with id := "" }

namespace SessionRegistry

/-- What a client presents: nothing, the id of an issued session, or a text that is no such id. -/
inductive Presented
  | nothing
  | issued (number : Nat)
  | unknown (text : String)

/-- The text that is presented to a registry. -/
def Presented.id? (r : SessionRegistry) : Presented → Option String
  | .nothing => none
  | .issued number => (r.session? number).map (·.id)
  | .unknown text => some text

/-- What is asked of a registry, and what is done to the sessions that it has issued. -/
inductive Call
  | resolve (presented : Presented) (host : String) (now : Nat)
  | create (host : String) (now : Nat)
  /-- Reads the attributes of a session. -/
  | read (number : Nat)
  /-- Writes the attributes of a session. -/
  | write (number : Nat) (change : Scope → Scope)
  | sweep (now : Nat)

inductive Answer
  /-- A session, whether it was issued for the call, and what it holds. -/
  | session (number : Nat) (isNew : Bool) (content : Option Session)
  | attributes (found : Option Scope)

namespace Call

def isSweep : Call → Bool
  | .sweep _ => true
  | _ => false

/-- When a call is made, if it depends on the time. -/
def instant? : Call → Option Nat
  | .resolve _ _ now | .create _ now | .sweep now => some now
  | .read _ | .write _ _ => none

/-- The text that a call presents, if it is no id of an issued session. -/
def unknown? : Call → Option String
  | .resolve (.unknown text) _ _ => some text
  | _ => none

def next (r : SessionRegistry) : Call → SessionRegistry
  | .resolve presented host now => Operation.apply r (.resolve (presented.id? r) host now)
  | .create host now => Operation.apply r (.create host now)
  | .read _ => r
  | .write number change => Operation.apply r (.write number change)
  | .sweep now => Operation.apply r (.sweep now)

/-- The answer to a call. Writes and sweeps are not answered. -/
def answer (r : SessionRegistry) : Call → List Answer
  | .resolve presented host now =>
    let (number, isNew, next) := r.resolve (presented.id? r) host now
    [.session number isNew ((next.session? number).map Session.withoutId)]
  | .create host now =>
    let (number, next) := r.create host now
    [.session number true ((next.session? number).map Session.withoutId)]
  | .read number => [.attributes ((r.session? number).map (·.attributes))]
  | .write _ _ | .sweep _ => []

end Call

def after (r : SessionRegistry) (calls : List Call) : SessionRegistry :=
  calls.foldl Call.next r

def answers (r : SessionRegistry) : List Call → List Answer
  | [] => []
  | call :: rest => call.answer r ++ answers (call.next r) rest

def ids (r : SessionRegistry) : List String :=
  r.issued.toList.map (·.id)

/-- The session with this number, as long as it is found by its id. -/
def held? (r : SessionRegistry) (number : Nat) : Option Session :=
  (r.session? number).filter fun s => r.lookup s.id == some number

theorem getElem?_ids (r : SessionRegistry) (number : Nat) :
    r.ids[number]? = (r.session? number).map (·.id) := by
  simp [ids, session?]

/-- No two sessions have the same id. -/
theorem number_unique {r : SessionRegistry} (distinct : r.ids.Nodup) {m n : Nat} {s t : Session}
    (left : r.session? m = some s) (right : r.session? n = some t) (same : s.id = t.id) : m = n := by
  have inside : m < r.ids.length := by
    simpa [ids, session?] using (Array.getElem?_eq_some_iff.mp left).1
  refine (List.getElem?_inj inside distinct).mp ?_
  rw [getElem?_ids, getElem?_ids, left, right, Option.map_some, Option.map_some, same]

theorem ids_modify (r : SessionRegistry) (number : Nat) {change : Session → Session}
    (sameId : ∀ s, (change s).id = s.id) : (r.modify number change).ids = r.ids := by
  refine List.ext_getElem? fun other => ?_
  rw [getElem?_ids, getElem?_ids, session?_modify]
  split
  · rw [Option.map_map]
    exact congrArg (Option.map · _) (funext sameId)
  · rfl

theorem ids_create (r : SessionRegistry) (host : String) (now : Nat) :
    (r.create host now).2.ids = r.ids ++ [r.freshId.1] := by
  simp [ids, create]

theorem Outcome.keeps_ids {r : SessionRegistry} {presented : Option String} {host : String} {now : Nat}
    {result : Nat × Bool × SessionRegistry} (outcome : r.Outcome host now presented result) :
    r.ids <+: result.2.2.ids := by
  cases outcome with
  | absent | unknown | foreign =>
    exact (ids_create r host now).symm ▸ List.prefix_append _ _
  | expired =>
    exact (ids_create _ host now).symm ▸ List.prefix_append r.ids _
  | reused =>
    have same (number deadline : Nat) : (r.modify number (·.extendTo deadline)).ids = r.ids :=
      ids_modify r number fun _ => rfl
    exact (same _ _).symm ▸ List.prefix_rfl

/-- A call adds ids behind those that were issued before. -/
theorem ids_prefix_next {r : SessionRegistry} (sound : r.Sound) (call : Call) :
    r.ids <+: (call.next r).ids := by
  cases call with
  | read number => exact List.prefix_rfl
  | sweep now => exact List.prefix_rfl
  | write number change =>
    have same : (Operation.apply r (.write number change)).ids = r.ids := ids_modify r number fun _ => rfl
    exact same ▸ List.prefix_rfl
  | create host now =>
    rw [Call.next, Operation.apply, ids_create]
    exact List.prefix_append _ _
  | resolve presented host now => exact (sound.outcome (presented.id? r) host now).keeps_ids

theorem Sound.next {r : SessionRegistry} (sound : r.Sound) (call : Call) : (call.next r).Sound := by
  cases call with
  | read => exact sound
  | resolve | create | write | sweep => exact sound.apply _

theorem ids_prefix_after {r : SessionRegistry} (sound : r.Sound) (calls : List Call) :
    r.ids <+: (r.after calls).ids := by
  induction calls generalizing r with
  | nil => exact List.prefix_rfl
  | cons call rest ih => exact (ids_prefix_next sound call).trans (ih (sound.next call))

/-- The session with this number is found by some id. -/
def Found (r : SessionRegistry) (number : Nat) : Prop :=
  ∃ id, r.lookup id = some number

variable {r swept : SessionRegistry}

theorem Found.holds (sound : r.Sound) {number : Nat} {s : Session} (found : r.Found number)
    (session : r.session? number = some s) : r.Holds s.id number s := by
  obtain ⟨id, looked⟩ := found
  obtain ⟨t, same, own⟩ := sound id number looked
  rw [session] at same
  cases same
  exact ⟨own ▸ looked, session⟩

theorem lookup_of_not_found (sound : r.Sound) (distinct : r.ids.Nodup) {number : Nat} {s : Session}
    (session : r.session? number = some s) (lost : ¬ r.Found number) : r.lookup s.id = none := by
  cases looked : r.lookup s.id with
  | none => rfl
  | some other =>
    obtain ⟨t, sessionToo, same⟩ := sound s.id other looked
    have equal := number_unique distinct session sessionToo same.symm
    exact absurd ⟨s.id, equal ▸ looked⟩ lost

theorem lookup_of_unknown (sound : r.Sound) {text : String} (unknown : text ∉ r.ids) :
    r.lookup text = none := by
  cases looked : r.lookup text with
  | none => rfl
  | some number =>
    obtain ⟨s, session, same⟩ := sound text number looked
    have present : r.ids[number]? = some text := by rw [getElem?_ids, session, Option.map_some, same]
    exact absurd (List.mem_of_getElem? present) unknown

theorem found_create_iff {host : String} {now number : Nat} :
    (r.create host now).2.Found number ↔ number = r.issued.size ∨ r.Found number := by
  simp only [Found, lookup_create]
  constructor
  · rintro ⟨id, looked⟩
    split at looked
    · exact .inl (Option.some.inj looked).symm
    · exact .inr ⟨id, looked⟩
  · rintro (rfl | ⟨id, looked⟩)
    · exact ⟨r.freshId.1, if_pos rfl⟩
    · exact ⟨id, (if_neg (freshId_ne looked)).trans looked⟩

theorem held?_of_found (sound : r.Sound) {number : Nat} (found : r.Found number) :
    r.held? number = r.session? number := by
  cases session : r.session? number with
  | none => rw [held?, session, Option.filter_none]
  | some s =>
    have held := found.holds sound session
    rw [held?, session, Option.filter_some, if_pos (beq_iff_eq.mpr held.1)]

theorem held?_of_not_found {number : Nat} (lost : ¬ r.Found number) : r.held? number = none := by
  rw [held?, Option.filter_eq_none_iff]
  intro s _ looked
  exact lost ⟨s.id, beq_iff_eq.mp looked⟩

/-- A session that is taken out is not found any more, and all others are. -/
theorem found_erase_iff (sound : r.Sound) {id : String} {number other : Nat} {s : Session}
    (held : r.Holds id number s) :
    ({ r with live := r.live.erase id } : SessionRegistry).Found other ↔
      other ≠ number ∧ r.Found other := by
  simp only [Found, lookup_erase]
  constructor
  · rintro ⟨id', looked⟩
    split at looked
    · contradiction
    · next different =>
      refine ⟨?_, id', looked⟩
      rintro rfl
      have also : r.Holds id' other s := ⟨looked, held.2⟩
      exact different ((held.id_eq sound).symm.trans (also.id_eq sound))
  · rintro ⟨different, id', looked⟩
    refine ⟨id', ?_⟩
    rwa [if_neg]
    rintro rfl
    rw [held.1] at looked
    exact different (Option.some.inj looked).symm

theorem found_sweep_iff {now number : Nat} :
    (r.sweep now).2.Found number ↔ r.Found number ∧ r.isExpired number now = false := by
  simp only [Found, lookup_sweep, Option.filter_eq_some_iff, Bool.not_eq_true']
  exact ⟨fun ⟨id, looked, running⟩ => ⟨⟨id, looked⟩, running⟩,
    fun ⟨⟨id, looked⟩, running⟩ => ⟨id, looked, running⟩⟩

/-- The second registry is the first one after some sweeps, none of them later than now: it has issued the
same sessions, and of those that the first one finds it misses only such as have expired. -/
structure Unswept (now : Nat) (r swept : SessionRegistry) : Prop where
  sound : r.Sound
  soundSwept : swept.Sound
  timeout : r.timeout = swept.timeout
  sessions (number : Nat) :
    (r.session? number).map Session.withoutId = (swept.session? number).map Session.withoutId
  found {number : Nat} : swept.Found number → r.Found number
  expired {number : Nat} {s : Session} :
    r.Found number → ¬ swept.Found number → r.session? number = some s → s.expiresAt ≤ now

namespace Unswept

variable {now : Nat}

theorem later (unswept : Unswept now r swept) {time : Nat} (after : now ≤ time) :
    Unswept time r swept :=
  { unswept with
    expired := fun found lost session => Nat.le_trans (unswept.expired found lost session) after }

theorem deadline_eq (unswept : Unswept now r swept) (time : Nat) :
    r.deadline time = swept.deadline time := by
  rw [deadline, deadline, unswept.timeout]

theorem size_eq (unswept : Unswept now r swept) : r.issued.size = swept.issued.size := by
  have same (number : Nat) : r.issued.size ≤ number ↔ swept.issued.size ≤ number := by
    rw [← session?_eq_none_iff, ← session?_eq_none_iff, ← Option.map_eq_none_iff,
      unswept.sessions number, Option.map_eq_none_iff]
  exact Nat.le_antisymm ((same _).mpr (Nat.le_refl _)) ((same _).mp (Nat.le_refl _))

/-- A session of one registry is one of the other as well, but for the id. -/
theorem session (unswept : Unswept now r swept) {number : Nat} {s : Session}
    (session : r.session? number = some s) :
    ∃ t, swept.session? number = some t ∧ t.withoutId = s.withoutId := by
  have same := unswept.sessions number
  rw [session, Option.map_some] at same
  exact Option.map_eq_some_iff.mp same.symm

theorem isExpired_eq (unswept : Unswept now r swept) (number time : Nat) :
    r.isExpired number time = swept.isExpired number time := by
  have same := congrArg (Option.all (Session.isExpired · time)) (unswept.sessions number)
  rw [Option.all_map, Option.all_map] at same
  exact same

theorem create (unswept : Unswept now r swept) (host : String) (time : Nat) :
    Unswept now (r.create host time).2 (swept.create host time).2 where
  sound := unswept.sound.create host time
  soundSwept := unswept.soundSwept.create host time
  timeout := unswept.timeout
  sessions number := by
    rw [session?_create, session?_create, unswept.size_eq, unswept.deadline_eq]
    split
    · rfl
    · exact unswept.sessions number
  found := by
    simp only [found_create_iff, unswept.size_eq]
    exact Or.imp id unswept.found
  expired := by
    intro number s found lost session
    rw [found_create_iff] at found lost
    rw [← unswept.size_eq, not_or] at lost
    rw [session?_create, if_neg lost.1] at session
    exact unswept.expired (found.resolve_left lost.1) lost.2 session

/-- Both registries issue a session with the same number. -/
theorem issue (unswept : Unswept now r swept) (host : String) (time : Nat) :
    (r.issue host time).1 = (swept.issue host time).1 ∧
      (r.issue host time).2.1 = (swept.issue host time).2.1 ∧
      Unswept now (r.issue host time).2.2 (swept.issue host time).2.2 :=
  ⟨unswept.size_eq, rfl, unswept.create host time⟩

/-- Both registries may change a session alike, unless a session moves its expiry that one of them has
lost. -/
theorem modify (unswept : Unswept now r swept) {number : Nat} {change : Session → Session}
    (sameId : ∀ s, (change s).id = s.id) (blind : ∀ s, (change s).withoutId = change s.withoutId)
    (harmless : swept.Found number ∨ ∀ s, (change s).expiresAt = s.expiresAt) :
    Unswept now (r.modify number change) (swept.modify number change) where
  sound := unswept.sound.modify number sameId
  soundSwept := unswept.soundSwept.modify number sameId
  timeout := unswept.timeout
  sessions other := by
    rw [session?_modify, session?_modify]
    split
    · have commutes : Session.withoutId ∘ change = change ∘ Session.withoutId := funext blind
      rw [Option.map_map, Option.map_map, commutes, ← Option.map_map, ← Option.map_map,
        unswept.sessions other]
    · exact unswept.sessions other
  found := unswept.found
  expired := by
    intro other s found lost session
    rw [session?_modify] at session
    split at session
    · next same =>
      obtain ⟨t, before, rfl⟩ := Option.map_eq_some_iff.mp session
      have kept := harmless.resolve_left fun there => lost (same ▸ there)
      rw [kept]
      exact unswept.expired found lost before
    · exact unswept.expired found lost session

/-- An expired session that is presented is dropped, from one registry or from both. -/
theorem erase (unswept : Unswept now r swept) {id : String} {number : Nat} {s : Session}
    (held : r.Holds id number s) (lost : ¬ swept.Found number) :
    Unswept now { r with live := r.live.erase id } swept where
  sound := unswept.sound.erase id
  soundSwept := unswept.soundSwept
  timeout := unswept.timeout
  sessions := unswept.sessions
  found := by
    intro other there
    rw [found_erase_iff unswept.sound held]
    exact ⟨fun same => lost (same ▸ there), unswept.found there⟩
  expired := by
    intro other t found missing session
    rw [found_erase_iff unswept.sound held] at found
    exact unswept.expired found.2 missing session

theorem erase_both (unswept : Unswept now r swept) {id id' : String} {number : Nat} {s t : Session}
    (held : r.Holds id number s) (heldToo : swept.Holds id' number t) :
    Unswept now { r with live := r.live.erase id } { swept with live := swept.live.erase id' } where
  sound := unswept.sound.erase id
  soundSwept := unswept.soundSwept.erase id'
  timeout := unswept.timeout
  sessions := unswept.sessions
  found := by
    intro other
    rw [found_erase_iff unswept.sound held, found_erase_iff unswept.soundSwept heldToo]
    exact And.imp_right unswept.found
  expired := by
    intro other u found lost session
    rw [found_erase_iff unswept.sound held] at found
    rw [found_erase_iff unswept.soundSwept heldToo, not_and] at lost
    exact unswept.expired found.2 (lost found.1) session

/-- A sweep of the one registry only takes out sessions that have expired. -/
theorem sweep (unswept : Unswept now r swept) : Unswept now r (swept.sweep now).2 where
  sound := unswept.sound
  soundSwept := unswept.soundSwept.sweep now
  timeout := unswept.timeout
  sessions := unswept.sessions
  found there := unswept.found (found_sweep_iff.mp there).1
  expired := by
    intro number s found lost session
    by_cases there : swept.Found number
    · obtain ⟨t, sessionToo, same⟩ := unswept.session session
      have isOver : swept.isExpired number now = true := by
        rw [found_sweep_iff, not_and, Bool.not_eq_false] at lost
        exact lost there
      have past : t.expiresAt ≤ now := by
        simpa [isExpired, sessionToo, Session.isExpired] using isOver
      have expiry : t.expiresAt = s.expiresAt := congrArg (·.expiresAt) same
      exact expiry ▸ past
    · exact unswept.expired found there session

/-- An id that was issued is resolved alike, whether or not its session was swept. -/
theorem resolve_issued (unswept : Unswept now r swept) (distinct : r.ids.Nodup)
    (distinctSwept : swept.ids.Nodup) {number : Nat} {s t : Session}
    (session : r.session? number = some s) (sessionSwept : swept.session? number = some t)
    (same : t.withoutId = s.withoutId) (host : String) :
    (r.resolve (some s.id) host now).1 = (swept.resolve (some t.id) host now).1 ∧
      (r.resolve (some s.id) host now).2.1 = (swept.resolve (some t.id) host now).2.1 ∧
      Unswept now (r.resolve (some s.id) host now).2.2
        (swept.resolve (some t.id) host now).2.2 := by
  have hosts : t.host = s.host := congrArg (·.host) same
  have expiries : t.expiresAt = s.expiresAt := congrArg (·.expiresAt) same
  by_cases there : swept.Found number
  · have held := (unswept.found there).holds unswept.sound session
    have heldSwept := there.holds unswept.soundSwept sessionSwept
    rw [resolve_of_holds held, resolve_of_holds heldSwept, hosts, expiries]
    by_cases own : s.host = host
    · by_cases past : s.expiresAt ≤ now
      · simp only [own, past, ne_eq, not_true, ↓reduceIte]
        exact (unswept.erase_both held heldSwept).issue host now
      · simp only [own, past, ne_eq, not_true, ↓reduceIte, unswept.deadline_eq]
        exact ⟨trivial, trivial, unswept.modify (fun _ => rfl) (fun _ => rfl) (.inl there)⟩
    · simp only [own, ne_eq, not_false_eq_true, ↓reduceIte]
      exact unswept.issue host now
  · have gone := lookup_of_not_found unswept.soundSwept distinctSwept sessionSwept there
    rw [resolve_of_missing gone]
    by_cases here : r.Found number
    · have held := here.holds unswept.sound session
      have past : s.expiresAt ≤ now := unswept.expired here there session
      rw [resolve_of_holds held]
      by_cases own : s.host = host
      · simp only [own, past, ne_eq, not_true, ↓reduceIte]
        exact (unswept.erase held there).issue host now
      · simp only [own, ne_eq, not_false_eq_true, ↓reduceIte]
        exact unswept.issue host now
    · rw [resolve_of_missing (lookup_of_not_found unswept.sound distinct session here)]
      exact unswept.issue host now

theorem resolve (unswept : Unswept now r swept) (distinct : r.ids.Nodup)
    (distinctSwept : swept.ids.Nodup) (presented : Presented)
    (unknown : ∀ text, presented = .unknown text → text ∉ r.ids ∧ text ∉ swept.ids) (host : String) :
    (r.resolve (presented.id? r) host now).1 = (swept.resolve (presented.id? swept) host now).1 ∧
      (r.resolve (presented.id? r) host now).2.1 =
        (swept.resolve (presented.id? swept) host now).2.1 ∧
      Unswept now (r.resolve (presented.id? r) host now).2.2
        (swept.resolve (presented.id? swept) host now).2.2 := by
  cases presented with
  | nothing => exact unswept.issue host now
  | unknown text =>
    obtain ⟨foreign, foreignSwept⟩ := unknown text rfl
    rw [Presented.id?, resolve_of_missing (lookup_of_unknown unswept.sound foreign),
      Presented.id?, resolve_of_missing (lookup_of_unknown unswept.soundSwept foreignSwept)]
    exact unswept.issue host now
  | issued number =>
    cases session : r.session? number with
    | none =>
      have none : swept.session? number = none := by
        rw [session?_eq_none_iff] at session ⊢
        exact unswept.size_eq ▸ session
      simp only [Presented.id?, session, none, Option.map_none]
      exact unswept.issue host now
    | some s =>
      obtain ⟨t, sessionSwept, same⟩ := unswept.session session
      simp only [Presented.id?, session, sessionSwept, Option.map_some]
      exact unswept.resolve_issued distinct distinctSwept session sessionSwept same host

/-- A call that is no sweep is answered alike, and the registries stay related. -/
theorem next (unswept : Unswept now r swept) (distinct : r.ids.Nodup) (distinctSwept : swept.ids.Nodup)
    {call : Call} (plain : call.isSweep = false) (due : ∀ time ∈ call.instant?, now ≤ time)
    (unknown : ∀ text ∈ call.unknown?, text ∉ r.ids ∧ text ∉ swept.ids) :
    call.answer r = call.answer swept ∧
      Unswept (call.instant?.getD now) (call.next r) (call.next swept) := by
  cases call with
  | sweep time => contradiction
  | read number =>
    have blind : (·.attributes) ∘ Session.withoutId = Session.attributes := rfl
    have same := congrArg (Option.map Session.attributes) (unswept.sessions number)
    rw [Option.map_map, Option.map_map, blind] at same
    rw [Call.answer, Call.answer, same]
    exact ⟨rfl, unswept⟩
  | write number change =>
    exact ⟨rfl, unswept.modify (fun _ => rfl) (fun _ => rfl) (.inr fun _ => rfl)⟩
  | create host time =>
    have next := (unswept.later (due time rfl)).create host time
    refine ⟨?_, next⟩
    have number : (r.create host time).1 = (swept.create host time).1 := unswept.size_eq
    simp only [Call.answer, number, next.sessions]
  | resolve presented host time =>
    have texts : ∀ text, presented = .unknown text → text ∉ r.ids ∧ text ∉ swept.ids := by
      rintro text rfl
      exact unknown text rfl
    obtain ⟨number, isNew, next⟩ :=
      (unswept.later (due time rfl)).resolve distinct distinctSwept presented texts host
    refine ⟨?_, next⟩
    simp only [Call.answer, number, isNew, next.sessions]

/-- Once all that has expired is swept from both, the registries hold the same sessions. -/
theorem held_sweep (unswept : Unswept now r swept) (number : Nat) :
    ((r.sweep now).2.held? number).map Session.withoutId =
      ((swept.sweep now).2.held? number).map Session.withoutId := by
  have sameFound : (r.sweep now).2.Found number ↔ (swept.sweep now).2.Found number := by
    rw [found_sweep_iff, found_sweep_iff, unswept.isExpired_eq]
    refine ⟨fun ⟨found, running⟩ => ⟨?_, running⟩, And.imp_left unswept.found⟩
    by_contra lost
    obtain ⟨id, looked⟩ := found
    obtain ⟨s, session, -⟩ := unswept.sound id number looked
    have past := unswept.expired ⟨id, looked⟩ lost session
    rw [← unswept.isExpired_eq, isExpired, session, Option.all_some, Session.isExpired,
      decide_eq_false_iff_not] at running
    exact running past
  by_cases found : (r.sweep now).2.Found number
  · rw [held?_of_found (unswept.sound.sweep now) found,
      held?_of_found (unswept.soundSwept.sweep now) (sameFound.mp found)]
    exact unswept.sessions number
  · rw [held?_of_not_found found, held?_of_not_found (sameFound.not.mp found)]

theorem instants_rest (now : Nat) (call : Call) (rest : List Call) :
    call.instant?.getD now :: rest.filterMap Call.instant? ⊆
      now :: (call :: rest).filterMap Call.instant? := by
  cases instant : call.instant? with
  | none =>
    rw [List.filterMap_cons_none instant]
    exact List.Subset.refl _
  | some time =>
    rw [List.filterMap_cons_some instant]
    exact List.subset_cons_self now _

/-- What is left to be done after a call comes no earlier than the call. -/
theorem ordered_rest {call : Call} {rest : List Call}
    (ordered : (now :: (call :: rest).filterMap Call.instant?).Pairwise (· ≤ ·)) :
    (∀ time ∈ call.instant?, now ≤ time) ∧
      (call.instant?.getD now :: rest.filterMap Call.instant?).Pairwise (· ≤ ·) := by
  cases instant : call.instant? with
  | none =>
    rw [List.filterMap_cons_none instant] at ordered
    exact ⟨nofun, ordered⟩
  | some time =>
    rw [List.filterMap_cons_some instant, List.pairwise_cons] at ordered
    obtain ⟨due, ordered⟩ := ordered
    refine ⟨?_, ordered⟩
    rintro _ ⟨⟩
    exact due time List.mem_cons_self

/-- By induction on the calls. The ids that are distinct at the end were so before, since none of them
is ever taken back. -/
theorem answers_eq (unswept : Unswept now r swept) (calls : List Call)
    (ordered : (now :: calls.filterMap Call.instant?).Pairwise (· ≤ ·))
    (distinct : (r.after (calls.filter (!·.isSweep))).ids.Nodup)
    (distinctSwept : (swept.after calls).ids.Nodup)
    (unknown : ∀ text ∈ calls.filterMap Call.unknown?,
      text ∉ (r.after (calls.filter (!·.isSweep))).ids ∧ text ∉ (swept.after calls).ids) :
    r.answers (calls.filter (!·.isSweep)) = swept.answers calls ∧
      ∀ last, (∀ time ∈ now :: calls.filterMap Call.instant?, time ≤ last) →
        Unswept last (r.after (calls.filter (!·.isSweep))) (swept.after calls) := by
  induction calls generalizing r swept now with
  | nil => exact ⟨rfl, fun last bound => unswept.later (bound now List.mem_cons_self)⟩
  | cons call rest ih =>
    obtain ⟨due, orderedRest⟩ := ordered_rest ordered
    cases plain : call.isSweep with
    | true =>
      cases call with
      | sweep time =>
        have next := (unswept.later (due time rfl)).sweep
        obtain ⟨same, related⟩ := ih next orderedRest distinct distinctSwept unknown
        exact ⟨same, fun last bound => related last fun earlier mem =>
          bound earlier (List.mem_cons_of_mem now mem)⟩
      | _ => contradiction
    | false =>
      rw [List.filter_cons_of_pos (by simp only [plain, Bool.not_false])] at distinct unknown ⊢
      have kept := (ids_prefix_next unswept.sound call).trans
        (ids_prefix_after (unswept.sound.next call) (rest.filter (!·.isSweep)))
      have keptSwept := (ids_prefix_next unswept.soundSwept call).trans
        (ids_prefix_after (unswept.soundSwept.next call) rest)
      have texts : ∀ text ∈ call.unknown?, text ∉ r.ids ∧ text ∉ swept.ids := by
        intro text shown
        have apart := unknown text (List.mem_filterMap.mpr ⟨call, List.mem_cons_self, shown⟩)
        exact ⟨mt (kept.subset ·) apart.1, mt (keptSwept.subset ·) apart.2⟩
      obtain ⟨answered, next⟩ := unswept.next (distinct.sublist kept.sublist)
        (distinctSwept.sublist keptSwept.sublist) plain due texts
      obtain ⟨same, related⟩ := ih next orderedRest distinct distinctSwept fun text mem =>
        unknown text (((List.sublist_cons_self call rest).filterMap Call.unknown?).subset mem)
      refine ⟨?_, fun last bound => related last fun time mem => ?_⟩
      · rw [answers, answers, answered, same]
      · exact bound time (instants_rest now call rest mem)

end Unswept

/-- A new registry is related to a new registry that draws other ids. -/
theorem unswept_empty (timeout : Nat) (draw draw' : Nat → String) :
    Unswept 0 { timeout, draw } { timeout, draw := draw' } where
  sound := sound_run timeout draw []
  soundSwept := sound_run timeout draw' []
  timeout := rfl
  sessions _ := rfl
  found found := found
  expired found lost := absurd found lost

/-- Calls are answered alike with and without the sweeps among them, and a last sweep leaves the same
sessions, if no call comes before an earlier one, no id is issued twice, and no other text that a client
presents is an id. -/
theorem sweeps_unnoticed (timeout : Nat) (draw draw' : Nat → String) (calls : List Call)
    (ordered : (calls.filterMap Call.instant?).Pairwise (· ≤ ·))
    (distinct : (after { timeout, draw } (calls.filter (!·.isSweep))).ids.Nodup)
    (distinctSwept : (after { timeout, draw := draw' } calls).ids.Nodup)
    (unknown : ∀ text ∈ calls.filterMap Call.unknown?,
      text ∉ (after { timeout, draw } (calls.filter (!·.isSweep))).ids ∧
        text ∉ (after { timeout, draw := draw' } calls).ids) :
    answers { timeout, draw } (calls.filter (!·.isSweep)) = answers { timeout, draw := draw' } calls ∧
      ∀ last, (∀ time ∈ calls.filterMap Call.instant?, time ≤ last) → ∀ number,
        ((sweep (after { timeout, draw } (calls.filter (!·.isSweep))) last).2.held? number).map
            Session.withoutId =
          ((sweep (after { timeout, draw := draw' } calls) last).2.held? number).map
            Session.withoutId := by
  have started : (0 :: calls.filterMap Call.instant?).Pairwise (· ≤ ·) :=
    List.pairwise_cons.mpr ⟨fun time _ => Nat.zero_le time, ordered⟩
  obtain ⟨same, related⟩ := (unswept_empty timeout draw draw').answers_eq calls started distinct
    distinctSwept unknown
  refine ⟨same, fun last bound number => (related last ?_).held_sweep number⟩
  exact List.forall_mem_cons.mpr ⟨Nat.zero_le last, bound⟩

/-- A session that is swept before its client comes back, and one that is not. -/
theorem sweeps_unnoticed_late :
    let calls : List Call :=
      [.create "a" 0, .resolve .nothing "b" 4, .write 0 fun _ => ∅, .sweep 5, .resolve (.issued 1) "b" 6,
        .sweep 10, .resolve (.issued 0) "a" 10, .resolve (.unknown "?") "a" 11, .read 1, .sweep 12]
    answers { timeout := 10, draw := drawnId 1 } (calls.filter (!·.isSweep)) =
      answers { timeout := 10, draw := drawnId 2 } calls :=
  (sweeps_unnoticed 10 (drawnId 1) (drawnId 2) _ (by decide) (by decide +kernel) (by decide +kernel)
    (by decide +kernel)).1

end SessionRegistry

end PageServer
