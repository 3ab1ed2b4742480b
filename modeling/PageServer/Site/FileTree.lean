import PageServer.Path
import PageServer.Text.Bytes

/-! # File trees

The files of a system, as a program finds them by their paths from the directory that it works in. A path is
followed name by name, and each name but the last, as well as everything before a slash, has to be a
directory. Names and paths have a greatest length, and no path holds the character NUL, which ends a path
where it is handed to the system.
-/

namespace PageServer

/-- Why a file cannot be read. -/
inductive FileError
  /-- The path holds the character NUL, and so it is not even tried. -/
  | unexpectedNul
  | nameTooLong
  | notFound
  | notADirectory
  | isADirectory
  | denied
deriving DecidableEq, Repr

/-- The description of the failure, with the number that the system gives it, if it came so far. -/
def FileError.message : FileError → String
  | .unexpectedNul => "file name contained an unexpected NUL byte"
  | .nameTooLong => "File name too long (os error 36)"
  | .notFound => "No such file or directory (os error 2)"
  | .notADirectory => "Not a directory (os error 20)"
  | .isADirectory => "Is a directory (os error 21)"
  | .denied => "Permission denied (os error 13)"

namespace FileTree

inductive Entry
  | file (content : Bytes)
  /-- A device that can be read like an empty file, but is none. -/
  | emptyDevice
  | directory (entries : List (List Char × Entry))

def nameLimit : Nat := 255

def isTooLong (name : List Char) : Bool :=
  nameLimit < (Text.encode (String.ofList name)).length

namespace Entry

def empty : Entry := .directory []

def entries : Entry → List (List Char × Entry)
  | .directory entries => entries
  | _ => []

def child? (tree : Entry) (name : List Char) : Option Entry :=
  tree.entries.lookup name

def setChild (tree : Entry) (name : List Char) (child : Entry) : Entry :=
  .directory ((name, child) :: tree.entries.filter (·.1 ≠ name))

/-- The tree after an entry was put at the end of a path of names. -/
def insert (entry : Entry) : List (List Char) → Entry → Entry
  | [], _ => entry
  | name :: rest, tree => tree.setChild name (insert entry rest ((tree.child? name).getD empty))

def at? (tree : Entry) (names : List (List Char)) : Option Entry :=
  names.foldl (fun t name => t.bind (child? · name)) (some tree)

/-- Where making the directories on a path has come to: the tree, and the names of the directory that
was entered last. There is none after the path met a file, a name that is too long or the directory
above the tree. -/
structure Entered where
  tree : Entry
  here? : Option (List (List Char)) := some []

/-- Enters a directory, which is added if it is not there. `..` goes back to the one before. -/
def Entered.enter (e : Entered) (name : List Char) : Entered :=
  match e.here? with
  | none => e
  | some here =>
    if name = ['.', '.'] then { e with here? := if here = [] then none else some here.dropLast }
    else
      let inside := here ++ [name]
      match e.tree.at? inside with
      | some (.directory _) => { e with here? := some inside }
      | some _ => { e with here? := none }
      | none =>
        if isTooLong name then { e with here? := none }
        else ⟨insert empty inside e.tree, some inside⟩

/-- Puts a file into the directory that was entered last, unless a directory has its name. -/
def Entered.write (e : Entered) (name : List Char) (content : Bytes) : Entry :=
  match e.here? with
  | none => e.tree
  | some here =>
    match e.tree.at? (here ++ [name]) with
    | some (.directory _) => e.tree
    | _ => if isTooLong name then e.tree else insert (.file content) (here ++ [name]) e.tree

/-- The tree after a path was added: a directory if the path ends with a slash, and else a file. The
directories on the way are added as well. -/
def addPath (tree : Entry) (path : String) (content : Bytes) : Entry :=
  let names := Path.names path
  match if Path.endsWithSlash path then none else names.getLast? with
  | none => (names.foldl Entered.enter ⟨tree, some []⟩).tree
  | some name =>
    let entered := names.dropLast.foldl Entered.enter ⟨tree, some []⟩
    if name = ['.', '.'] then entered.tree else entered.write name content

/-- Follows the segments of a path. `above` holds the directories that were passed, the nearest one
first; above the first directory of all, there is none but itself. The length of a name matters only where
the name is looked for. -/
def follow (above : List Entry) (tree : Entry) : List (List Char) → Except FileError Entry
  | [] => .ok tree
  | segment :: rest =>
    match tree with
    | .file _ | .emptyDevice => .error .notADirectory
    | .directory entries =>
      if segment = [] ∨ segment = ['.'] then follow above tree rest
      else if segment = ['.', '.'] then
        match above with
        | [] => follow [] tree rest
        | outer :: farther => follow farther outer rest
      else if isTooLong segment then .error .nameTooLong
      else
        match entries.lookup segment with
        | none => .error .notFound
        | some child => follow (tree :: above) child rest

/-- A segment is followed only from a directory. It leads to what it names there, or it means that directory or
the one above. -/
theorem follow_cons_cases {tree entry : Entry} {above : List Entry} {segment : List Char}
    {rest : List (List Char)} (found : tree.follow above (segment :: rest) = .ok entry) :
    ∃ entries, tree = .directory entries ∧ ∃ farther next, next.follow farther rest = .ok entry ∧
      ((next ∈ tree :: above ∧ farther ⊆ above) ∨
        (segment ≠ [] ∧ segment ≠ ['.'] ∧ segment ≠ ['.', '.']) ∧
          entries.lookup segment = some next ∧ farther = tree :: above) := by
  cases tree with
  | file | emptyDevice => contradiction
  | directory entries =>
    refine ⟨entries, rfl, ?_⟩
    simp only [follow] at found
    split at found
    · exact ⟨above, _, found, .inl ⟨List.mem_cons_self, List.Subset.refl above⟩⟩
    · next named =>
      split at found
      · cases above with
        | nil => exact ⟨[], _, found, .inl ⟨List.mem_cons_self, List.Subset.refl []⟩⟩
        | cons outer farther =>
          exact ⟨farther, outer, found, .inl ⟨List.mem_cons_of_mem _ List.mem_cons_self,
            List.subset_cons_self outer farther⟩⟩
      · next inside =>
        split at found
        · contradiction
        · cases looked : entries.lookup segment with
          | none =>
            rw [looked] at found
            contradiction
          | some child =>
            rw [looked] at found
            obtain ⟨filled, notCurrent⟩ := not_or.mp named
            exact ⟨_, child, found, .inr ⟨⟨filled, notCurrent, inside⟩, rfl, rfl⟩⟩

end Entry

end FileTree

/-- All that lies below the root directory of a system, and the names that lead from there to the directory
in which relative paths begin. -/
structure FileTree where
  root : FileTree.Entry
  workingDirectory : List (List Char)

namespace FileTree

/-- An empty working directory in a system that holds nothing but the directories which systems have at the
root, and the empty device. -/
def empty : FileTree where
  root :=
    let names := ["bin", "boot", "dev", "etc", "home", "lib", "media", "mnt", "opt", "proc", "root", "run",
      "sbin", "srv", "sys", "tmp", "usr", "var"]
    .insert .empty ["srv".toList, "site".toList] (.insert .emptyDevice ["dev".toList, "null".toList]
      (.directory (names.map fun name => (name.toList, .empty))))
  workingDirectory := ["srv".toList, "site".toList]

/-- The files after a path was added below the working directory. -/
def addPath (files : FileTree) (path : String) (content : Bytes) : FileTree :=
  let here := (files.root.at? files.workingDirectory).getD .empty
  { files with root := .insert (here.addPath path content) files.workingDirectory files.root }

/-- The files at these paths in an empty working directory. -/
def ofList (paths : List (String × Bytes)) : FileTree :=
  paths.foldl (fun files (path, content) => files.addPath path content) empty

def pathLimit : Nat := 4095

/-- The segments that lead from the root directory to where a path leads. -/
def segments (files : FileTree) (path : String) : List (List Char) :=
  if path.toList.head? = some '/' then Path.segments path
  else files.workingDirectory ++ Path.segments path

/-- The entry that a path leads to. -/
def find (files : FileTree) (path : String) : Except FileError Entry :=
  if path.toList.contains '\x00' then .error .unexpectedNul
  else if path = "" then .error .notFound
  else if pathLimit < (Text.encode path).length then .error .nameTooLong
  else files.root.follow [] (files.segments path)

/-- What a path leads to is found by its segments, and nothing is found for a path that is empty, too long or
holds the character NUL. -/
theorem find_eq_ok_iff {files : FileTree} {path : String} {entry : Entry} : files.find path = .ok entry ↔
    ('\x00' ∉ path.toList ∧ path ≠ "" ∧ (Text.encode path).length ≤ pathLimit) ∧
      files.root.follow [] (files.segments path) = .ok entry := by
  rw [find]
  split
  · next ended => simp_all
  · split
    · next empty => simp_all
    · split
      · next long => simp [Nat.not_le_of_lt long]
      · next short => simp_all

/-- The content of the file that a path leads to. An empty device gives nothing. -/
def read (files : FileTree) (path : String) : Except FileError Bytes := do
  match ← files.find path with
  | .file content => .ok content
  | .emptyDevice => .ok []
  | .directory _ => .error .isADirectory

def isDirectory (files : FileTree) (path : String) : Bool :=
  match files.find path with
  | .ok (.directory _) => true
  | _ => false

def isFile (files : FileTree) (path : String) : Bool :=
  match files.find path with
  | .ok (.file _) => true
  | _ => false

end FileTree

end PageServer
