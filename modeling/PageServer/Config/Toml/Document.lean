import PageServer.Config.Toml.Value

/-! # TOML documents

A document is a sequence of sections, each a header and the pairs below it; the pairs before the first
header belong to a section without a name. The sections are put together into one table: those with a
common start of their names share a table, a header may not be repeated, and a header in double
brackets starts a new item of an array.
-/

namespace PageServer.Toml

structure Section where
  name : List String
  isItem : Bool
  entries : Entries

/-- Reads the header of a section up to the end of its line. -/
def readHeader? (fuel : Nat) (tokens : List Token) : Option (Section × List Token) := do
  let (isItem, rest) ← match tokens with
    | .leftBracket :: .leftBracket :: rest => some (true, rest)
    | .leftBracket :: rest => some (false, rest)
    | _ => none
  let (name, rest) ← readKeys? fuel (skipBlanks rest)
  let rest ← match isItem, rest with
    | true, .rightBracket :: .rightBracket :: rest => some rest
    | false, .rightBracket :: rest => some rest
    | _, _ => none
  let rest ← skipLineEnd (skipBlanks rest)
  some (⟨name, isItem, []⟩, rest)

/-- Reads sections. `current` is the section that is being read, with the entries below it so far in
`entries`, and `done` holds the sections before it; of both the last one comes first. `fuel` is more
than the number of tokens. -/
def readSections? : Nat → List Section → Section → Entries → List Token → Option (List Section)
  | 0, _, _, _, _ => none
  | fuel + 1, done, current, entries, tokens => do
    match ← skipLines tokens with
    | [] => some ({ current with entries := entries.settle } :: done).reverse
    | .leftBracket :: rest =>
      let (next, rest) ← readHeader? fuel (.leftBracket :: rest)
      readSections? fuel ({ current with entries := entries.settle } :: done) next [] rest
    | tokens =>
      let ((keys, value), rest) ← readPair? fuel (readValue? fuel) tokens
      let entries ← Entries.put keys value entries
      let rest ← skipLineEnd rest
      readSections? fuel done current entries rest

def sections? (document : String) : Option (List Section) := do
  let tokens ← tokens? document.toList
  readSections? (tokens.length + 2) [] ⟨[], false, []⟩ [] tokens

/-- The sections up to the next item with this name, and those from it on. -/
def splitItems (name : List String) (sections : List Section) : List Section × List Section :=
  sections.span fun s => !(s.isItem && s.name == name)

mutual

/-- The entries of the table in which the sections stand. All of their names agree up to `depth`, and
`parent` is the section whose header may not be repeated. -/
def assemble : Nat → Nat → Section → List Section → Option Entries
  | 0, _, _, _ => none
  | _, _, _, [] => some []
  | fuel + 1, depth, parent, s :: rest =>
    if s.name = parent.name then none
    else assembleFrom fuel depth (if s.name.length < parent.name.length then s else parent) s rest

/-- The entries of the table that starts with a section. -/
def assembleFrom : Nat → Nat → Section → Section → List Section → Option Entries
  | 0, _, _, _, _ => none
  | fuel + 1, depth, parent, s, rest =>
    match s.name.drop depth with
    | [] =>
      if s.isItem then none
      else (assemble fuel depth parent rest).map (s.entries ++ ·)
    | key :: deeper => do
      let (mine, others) := rest.partition fun t => t.name[depth]? = some key
      let value ←
        if s.isItem && deeper.isEmpty then (assembleItems fuel (depth + 1) s mine).map .array
        else (assembleFrom fuel (depth + 1) s s mine).map (.table false)
      let entries ← assemble fuel depth parent others
      some ((key, value) :: entries)

/-- The items of an array whose first one is a section. -/
def assembleItems : Nat → Nat → Section → List Section → Option (List Value)
  | 0, _, _, _ => none
  | fuel + 1, depth, s, rest => do
    let (mine, others) := splitItems s.name rest
    let entries ← assemble fuel depth s mine
    let item := Value.table false (s.entries ++ entries)
    match others with
    | [] => some [item]
    | next :: others =>
      let items ← assembleItems fuel depth next others
      some (item :: items)

end

def parse? (document : String) : Option Entries := do
  match ← sections? document with
  | [] => some []
  | top :: rest =>
    let fuel := 2 * rest.foldl (fun total s => total + s.name.length + 2) 0 + 2
    match rest with
    | [] => some top.entries
    | first :: others =>
      if top.entries.isEmpty then assembleFrom fuel 0 first first others
      else assembleFrom fuel 0 top top rest

end PageServer.Toml
