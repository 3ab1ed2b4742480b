import PageServer.Session.Id

/-! # The registry of sessions

A registry issues sessions and finds them by their ids until they expire. Sessions are numbered in
the order in which they were issued, and a number stays good after its session left the registry.
Resolving the id that a client presents either extends a live session of the same host or issues a
new one; it drops a session of the same host that has expired.
-/

namespace PageServer

structure SessionRegistry where
  /-- The milliseconds that a session lasts after its last use. -/
  timeout : Nat
  /-- Where ids are drawn from. A seed that others know makes ids that others can guess. -/
  draw : Nat → String := drawnId 0
  /-- The number of ids that were drawn. -/
  drawn : Nat := 0
  /-- Every session that was issued, by its number. -/
  issued : Array Session := #[]
  /-- The numbers of the sessions that can be found, by their ids. -/
  live : Std.ExtTreeMap String Nat := ∅

namespace SessionRegistry

/-- The number of sessions that can be found. -/
def size (r : SessionRegistry) : Nat :=
  r.live.size

/-- The number of the session with this id. -/
def lookup (r : SessionRegistry) (id : String) : Option Nat :=
  r.live[id]?

def session? (r : SessionRegistry) (number : Nat) : Option Session :=
  r.issued[number]?

def modify (r : SessionRegistry) (number : Nat) (change : Session → Session) : SessionRegistry :=
  { r with issued := r.issued.modify number change }

/-- When a session that is used now expires. -/
def deadline (r : SessionRegistry) (now : Nat) : Nat :=
  min Session.endOfTime (now + r.timeout)

/-- The first of the next draws that no live session has, and how many draws it took. So many draws
are tried that distinct ones cannot all be taken. -/
def freshDraw? (r : SessionRegistry) : Option (String × Nat) :=
  (List.range (r.live.size + 1)).findSome? fun k =>
    let id := r.draw (r.drawn + k)
    if r.live.contains id then none else some (id, k + 1)

/-- An id that no live session has, and how many draws it took. If the draws repeat ids that are
taken, it is the first numbered one that is free. -/
def freshId (r : SessionRegistry) : String × Nat :=
  r.freshDraw?.getD
    ((((List.range (r.live.size + 1)).map numberedId).find? (!r.live.contains ·)).getD "",
      r.live.size + 1)

def create (r : SessionRegistry) (host : String) (now : Nat) : Nat × SessionRegistry :=
  let (id, draws) := r.freshId
  let number := r.issued.size
  (number, { r with
    drawn := r.drawn + draws
    issued := r.issued.push { id, host, expiresAt := r.deadline now }
    live := r.live.insert id number })

/-- The number of the session that serves a client, whether it was issued for it, and the registry
afterwards. -/
def resolve (r : SessionRegistry) (presented : Option String) (host : String) (now : Nat) :
    Nat × Bool × SessionRegistry :=
  let issue (r : SessionRegistry) :=
    let (number, r) := r.create host now
    (number, true, r)
  match presented.bind fun id => (r.lookup id).bind fun number =>
      (r.session? number).map fun s => (id, number, s) with
  | none => issue r
  | some (id, number, s) =>
    if s.host ≠ host then issue r
    else if s.isExpired now then issue { r with live := r.live.erase id }
    else (number, false, r.modify number (·.extendTo (r.deadline now)))

def isExpired (r : SessionRegistry) (number : Nat) (now : Nat) : Bool :=
  (r.session? number).all (·.isExpired now)

def sweep (r : SessionRegistry) (now : Nat) : Nat × SessionRegistry :=
  let live := r.live.filter fun _ number => !r.isExpired number now
  (r.live.size - live.size, { r with live })

end SessionRegistry

end PageServer
