import PageServer.Text.Split
import PageServer.Text.Case
import PageServer.Scope

/-! # File paths

A path is a text of names between slashes. Empty names and `.` mean nothing, except for a `.` that
begins a relative path, and `..` is the directory above.
-/

namespace PageServer.Path

/-- What stands between the slashes of a path. -/
inductive Component
  /-- The slash that begins an absolute path. -/
  | root
  /-- The `.` that begins a relative path. -/
  | current
  /-- The directory above. -/
  | parent
  | name (name : List Char)
deriving DecidableEq, Repr

/-- The names between the slashes, empty ones included. -/
def segments (path : String) : List (List Char) :=
  Text.divide (· == '/') path.toList

/-- The names of a path: its segments without those that mean nothing. -/
def names (path : String) : List (List Char) :=
  (segments path).filter fun s => s ≠ [] ∧ s ≠ ['.']

def endsWithSlash (path : String) : Bool :=
  path.toList.getLast? == some '/'

/-- What a segment means behind another one. -/
def Component.ofSegment? (segment : List Char) : Option Component :=
  if segment = [] ∨ segment = ['.'] then none
  else if segment = ['.', '.'] then some .parent
  else some (.name segment)

def components (path : String) : List Component :=
  match segments path with
  | [] => []
  | first :: rest =>
    let start :=
      if first = [] then (if rest = [] then [] else [Component.root])
      else if first = ['.'] then [.current]
      else (Component.ofSegment? first).toList
    start ++ rest.filterMap Component.ofSegment?

/-- The name of the file that a path leads to. -/
def fileName? (path : String) : Option (List Char) :=
  match (components path).getLast? with
  | some (.name name) => some name
  | _ => none

/-- What stands behind the last dot of the file name, in lower case. A dot that begins the name does
not count. -/
def extension? (path : String) : Option String :=
  ((fileName? path).bind (Text.cutLast '.')).bind fun (stem, suffix) =>
    if stem = [] then none else some (String.ofList (Text.lower suffix))

/-- A path continued by another one. An absolute path stands for itself. -/
def join (base path : String) : String :=
  if path.toList.head? = some '/' then path
  else if base = "" ∨ endsWithSlash base then base ++ path
  else base ++ "/" ++ path

/-- The media type of a path by its extension, or else the default. -/
def mediaType (table : Scope) (path default : String) : String :=
  ((extension? path).bind (table[·]?)).getD default

end PageServer.Path
