import PageServer.Http.Query
import PageServer.Text.Blank
import PageServer.Text.Bytes
import PageServer.Text.Case
import PageServer.Error

/-! # Request heads

A head is a request line, header lines and a blank line. Lines end with a line feed, before which one
carriage return is dropped. Empty lines before the request line are skipped. A header line that
starts with a blank or a tab continues the value of the header before it.

Only `GET` requests of HTTP/1.0 and 1.1 with a path as their target are accepted.
-/

namespace PageServer.Http

/-- The parts of a head. The headers stand in order of arrival. -/
structure RequestHead where
  method : String
  target : String
  version : String
  headers : List (String × String)
deriving DecidableEq, Repr

namespace RequestHead

/-- A line without the carriage return at its end. -/
def stripReturn (line : List Char) : List Char :=
  if line.getLast? = some '\r' then line.dropLast else line

def lines (text : List Char) : List (List Char) :=
  ((Text.divide (· == '\n') text).map stripReturn).dropWhile (· = [])

/-- Whether a line continues the header before it. -/
def continues : List Char → Bool
  | c :: _ => c == ' ' || c == '\t'
  | [] => false

/-- Reads header lines up to an empty one. `done` holds the headers that were read before, the last
one first. -/
def readHeaders (done : List (String × String)) :
    List (List Char) → Except HeadError (List (String × String))
  | [] => .ok done.reverse
  | line :: rest =>
    if line = [] then .ok done.reverse
    else if continues line then
      match done with
      | [] => .error (.malformed "continuation before first header")
      | (name, value) :: earlier =>
        readHeaders ((name, value ++ " " ++ String.ofList (Text.trim line)) :: earlier) rest
    else
      match Text.cut ':' line with
      | none => .error (.malformed s!"bad header line '{String.ofList line}'")
      | some (name, value) =>
        readHeaders ((String.ofList (Text.trim name), String.ofList (Text.trim value)) :: done) rest

def readRequestLine (line : List Char) : Except HeadError (String × String × String) :=
  match Text.divide (· == ' ') line with
  | [method, target, version] =>
    let method := String.ofList method
    let version := String.ofList version
    if method ≠ "GET" then .error (.unsupported s!"method {method}")
    else if version ≠ "HTTP/1.0" ∧ version ≠ "HTTP/1.1" then
      .error (.unsupported s!"version {version}")
    else if target.head? ≠ some '/' then
      .error (.malformed s!"bad request target '{String.ofList target}'")
    else .ok (method, String.ofList target, version)
  | _ => .error (.malformed s!"bad request line '{String.ofList line}'")

def ofLines : List (List Char) → Except HeadError RequestHead
  | [] => .error (.malformed "missing request line")
  | line :: rest => do
    let (method, target, version) ← readRequestLine line
    let headers ← readHeaders [] rest
    .ok ⟨method, target, version, headers⟩

def parse (bytes : Bytes) : Except HeadError RequestHead :=
  match Text.decode? bytes with
  | none => .error (.malformed "request head is not valid UTF-8")
  | some text => ofLines (lines text.toList)

/-- The value of the first header with this name, in any case. -/
def header? (head : RequestHead) (name : String) : Option String :=
  (head.headers.find? fun h => Text.sameIgnoringCase h.1.toList name.toList).map (·.2)

def path (head : RequestHead) : String :=
  (splitTarget head.target).1

def query? (head : RequestHead) : Option String :=
  (splitTarget head.target).2

def parameters (head : RequestHead) : Scope :=
  (head.query?.map parseQuery).getD ∅

/-- A host without its port. An address in brackets ends with its first closing bracket. -/
def stripPort (host : List Char) : List Char :=
  if host.head? = some '[' then
    match Text.cut ']' host with
    | some (address, _) => address ++ [']']
    | none => host
  else
    match Text.cutLast ':' host with
    | some (name, port) => if port.all Char.isDigit then name else host
    | none => host

/-- The host that a request names, in lower case and without its port, or else the default. -/
def host (head : RequestHead) (default : String) : String :=
  match ((head.header? "Host").map fun h => Text.trim h.toList).filter (· ≠ []) with
  | some raw => String.ofList (Text.lower (stripPort raw))
  | none => String.ofList (Text.lower default.toList)

/-- The value in one item of a cookie line, if the item has this name. -/
def cookieValue? (name : String) (item : List Char) : Option String :=
  (Text.cut '=' item).bind fun (key, value) =>
    if Text.sameIgnoringCase (Text.trim key) name.toList then
      some (String.ofList (Text.unquote (Text.trim value)))
    else none

/-- The value of the first cookie with this name on the first cookie line. Names are compared without
regard to case, and quotes around the value are taken off. -/
def cookie? (head : RequestHead) (name : String) : Option String :=
  (head.header? "Cookie").bind fun line =>
    (Text.divide (· == ';') line.toList).findSome? (cookieValue? name)

end RequestHead

end PageServer.Http
