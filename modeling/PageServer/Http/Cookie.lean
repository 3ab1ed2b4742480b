/-! # Cookies

A cookie that a response sets, and the line that sets it.
-/

namespace PageServer.Http

structure Cookie where
  name : String
  value : String
  domain : Option String := none
  path : Option String := none
  maxAge : Option Int := none
  httpOnly : Bool := false
deriving DecidableEq, Repr

namespace Cookie

/-- The part of the line that names the cookie. The value stands between quotes as it is. -/
def pair (c : Cookie) : String :=
  c.name ++ "=\"" ++ c.value ++ "\""

/-- The attributes in the order in which they are sent. -/
def attributes (c : Cookie) : List String :=
  (c.domain.map ("Domain=" ++ ·)).toList ++ (c.path.map ("Path=" ++ ·)).toList ++
    (c.maxAge.map fun age => s!"Max-Age={age}").toList ++ (if c.httpOnly then ["HttpOnly"] else [])

/-- The line that sets the cookie. -/
def render (c : Cookie) : String :=
  c.pair ++ String.join (c.attributes.map ("; " ++ ·))

end Cookie

end PageServer.Http
