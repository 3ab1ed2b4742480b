import PageServer.Text.Split
import PageServer.Scope

/-! # Targets and parameters

A request target is a path and, after its first question mark, a query. A query is a sequence of
`key=value` pairs between ampersands, taken as they are: nothing is decoded, empty parts are skipped,
a part without an equals sign is a key with an empty value, and a later pair replaces an earlier one.
-/

namespace PageServer.Http

def splitTarget (target : String) : String × Option String :=
  match Text.cut '?' target.toList with
  | some (path, query) => (String.ofList path, some (String.ofList query))
  | none => (target, none)

/-- The key and the value of one part of a query. -/
def pairOf (part : List Char) : String × String :=
  let (key, value) := (Text.cut '=' part).getD (part, [])
  (String.ofList key, String.ofList value)

def queryPairs (query : String) : List (String × String) :=
  ((Text.divide (· == '&') query.toList).filter (· ≠ [])).map pairOf

def parseQuery (query : String) : Scope :=
  Scope.ofPairs (queryPairs query)

end PageServer.Http
