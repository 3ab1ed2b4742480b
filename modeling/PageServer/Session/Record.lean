import PageServer.Scope
import PageServer.Text.Quoted

/-! # Sessions

A session holds the attributes of one client of one host until it expires. Times are milliseconds
since the origin of the registry, and none is later than `Session.endOfTime`.
-/

namespace PageServer

structure Session where
  id : String
  host : String
  expiresAt : Nat
  attributes : Scope := ∅

namespace Session

def endOfTime : Nat := Nat.pow 2 64 - 1

def cookieName : String := "sid"

def idLength : Nat := 32

def isId (id : String) : Bool :=
  id.length == idLength && id.toList.all Char.isAlpha

/-- Whether the session is over. It is, from the moment of its expiry on. -/
def isExpired (s : Session) (now : Nat) : Bool :=
  s.expiresAt ≤ now

/-- The session with its expiry moved to a later time. An earlier time changes nothing. -/
def extendTo (s : Session) (deadline : Nat) : Session :=
  { s with expiresAt := max s.expiresAt deadline }

/-- A description that shows no more than the start of the id. -/
def describe (s : Session) : String :=
  "SessionRecord \x7b id: SessionId(" ++ String.ofList (s.id.toList.take 4) ++ "…), owner_host: " ++
    Text.quoted s.host ++ s!", expires_at: {s.expiresAt}, attributes: {s.attributes.size} " ++ "\x7d"

end Session

end PageServer
