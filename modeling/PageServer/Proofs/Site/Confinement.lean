import Mathlib.Data.List.Basic
import PageServer.Proofs.Site.Spelling

/-! # Files stay below the document root

The names of a path are followed below the document root one by one, and none of them leads elsewhere.
Put behind the root as one text, a path leads to the same place (`place_cases`), up to a slash at the
end. That slash asks for a directory, so a file never has it (`isFile_slash`), and a directory is found
without it as well (`isDirectory_of_slash`). `filesStayBelow` puts this together.
-/

namespace PageServer

namespace FileTree

/-- An empty segment at the end is passed by a directory only. -/
theorem Entry.follow_concat {tree entry : Entry} {above : List Entry} {segments : List (List Char)}
    (found : tree.follow above (segments ++ [[]]) = .ok entry) :
    tree.follow above segments = .ok entry ∧ ∃ entries, entry = .directory entries := by
  induction segments generalizing above tree with
  | nil =>
    cases tree with
    | file content => contradiction
    | emptyDevice => contradiction
    | directory entries =>
      cases found
      exact ⟨rfl, entries, rfl⟩
  | cons segment segments ih =>
    cases tree with
    | file content => contradiction
    | emptyDevice => contradiction
    | directory entries =>
      simp only [List.cons_append, follow] at found ⊢
      -- both runs take the same step, and go on with the same rest
      split at found
      · next idle => exact if_pos idle ▸ ih found
      · next named =>
        rw [if_neg named]
        split at found
        · next up =>
          rw [if_pos up]
          cases above with
          | nil => exact ih found
          | cons outer farther => exact ih found
        · next down =>
          rw [if_neg down]
          split at found
          · contradiction
          · next short =>
            rw [if_neg short]
            cases looked : entries.lookup segment with
            | none =>
              rw [looked] at found
              contradiction
            | some child =>
              rw [looked] at found
              exact ih found

variable {files : FileTree} {entry : Entry} {path : String}

theorem segments_slash (filled : path ≠ "") :
    files.segments (path ++ "/") = files.segments path ++ [[]] := by
  have behind : Path.segments (path ++ "/") = Path.segments path ++ [[]] := by
    rw [Path.segments, String.toList_append]
    exact Text.divide_concat rfl path.toList
  have starts : (path ++ "/").toList.head? = path.toList.head? := by
    have nonempty : path.toList ≠ [] := by simpa using filled
    rw [String.toList_append, List.head?_append_of_ne_nil _ nonempty]
  rw [segments, segments, starts, behind]
  split
  · rfl
  · rw [List.append_assoc]

/-- With a slash behind it, a path leads to a directory only. -/
theorem find_slash (found : files.find (path ++ "/") = .ok entry) :
    (path ≠ "" → files.find path = .ok entry) ∧ ∃ entries, entry = .directory entries := by
  obtain ⟨⟨clean, -, short⟩, followed⟩ := find_eq_ok_iff.mp found
  by_cases empty : path = ""
  · subst empty
    have fromRoot : files.root.follow [] ([[]] ++ [[]]) = .ok entry := followed
    exact ⟨fun filled => absurd rfl filled, (Entry.follow_concat fromRoot).2⟩
  · rw [segments_slash empty] at followed
    rw [String.toList_append, List.mem_append, not_or] at clean
    rw [Text.encode_append, List.length_append] at short
    obtain ⟨same, directory⟩ := Entry.follow_concat followed
    exact ⟨fun _ => find_eq_ok_iff.mpr ⟨⟨clean.1, empty, by omega⟩, same⟩, directory⟩

/-- No file is found with a slash behind its path. -/
theorem isFile_slash (files : FileTree) (path : String) : files.isFile (path ++ "/") = false := by
  rw [isFile]
  split
  · next found =>
    obtain ⟨_, entries, same⟩ := find_slash found
    contradiction
  · rfl

/-- A directory that is found with a slash behind its path is found without it. -/
theorem isDirectory_of_slash (filled : path ≠ "") (found : files.isDirectory (path ++ "/") = true) :
    files.isDirectory path = true := by
  rw [isDirectory] at found
  split at found
  · next entries slashed => simp only [isDirectory, (find_slash slashed).1 filled]
  · contradiction

end FileTree

namespace Path

/-- The path that names lead to from a directory, one after the other. -/
def below (base : String) (names : List (List Char)) : String :=
  names.foldl (fun path name => join path (String.ofList name)) base

/-- A path that another one goes on behind a slash. -/
def IsBare (path : String) : Prop :=
  path ≠ "" ∧ endsWithSlash path = false

variable {base : String} {name : List Char} {names : List (List Char)}

/-- Behind a path that does not end with a slash, a slash comes first. -/
theorem join_of_isBare {path : String} (bare : IsBare base) (relative : path.toList.head? ≠ some '/') :
    join base path = base ++ "/" ++ path := by
  rw [join, if_neg relative, if_neg]
  simp [bare.1, bare.2]

/-- A slash behind a path does not change what stands below it. -/
theorem join_slash (bare : IsBare base) (path : String) : join (base ++ "/") path = join base path := by
  by_cases absolute : path.toList.head? = some '/'
  · rw [join, join, if_pos absolute, if_pos absolute]
  · have slashed : endsWithSlash (base ++ "/") = true := by
      simp [endsWithSlash, String.toList_append]
    rw [join_of_isBare bare absolute, join, if_neg absolute, if_pos (.inr slashed)]

/-- What goes on behind a name goes on behind the path that ends with it. -/
theorem join_append {first : String} (relative : first.toList.head? ≠ some '/') (filled : first ≠ "")
    (rest : String) : join base (first ++ rest) = join base first ++ rest := by
  have starts : (first ++ rest).toList.head? = first.toList.head? := by
    have nonempty : first.toList ≠ [] := by simpa using filled
    rw [String.toList_append, List.head?_append_of_ne_nil _ nonempty]
  simp only [join, starts, relative, ↓reduceIte]
  split
  · rw [String.append_assoc]
  · rw [← String.append_assoc]

/-- A path that ends with a name does not end with a slash. -/
theorem isBare_join (base : String) (filled : name ≠ []) (unslashed : '/' ∉ name) :
    IsBare (join base (String.ofList name)) := by
  have relative : (String.ofList name).toList.head? ≠ some '/' := by
    rw [String.toList_ofList]
    exact fun first => unslashed (List.mem_of_head? first)
  have last : ∀ front : List Char, (front ++ name).getLast? ≠ some '/' := by
    intro front ends
    rw [List.getLast?_append_of_ne_nil _ filled] at ends
    exact unslashed (List.mem_of_getLast? ends)
  have ends : ∃ front : List Char, (join base (String.ofList name)).toList = front ++ name := by
    rw [join, if_neg relative]
    split
    · exact ⟨base.toList, by rw [String.toList_append, String.toList_ofList]⟩
    · exact ⟨(base ++ "/").toList, by rw [String.toList_append, String.toList_ofList]⟩
  obtain ⟨front, whole⟩ := ends
  constructor
  · intro empty
    rw [empty] at whole
    exact filled (List.append_eq_nil_iff.mp whole.symm).2
  · rw [endsWithSlash, whole, beq_eq_false_iff_ne]
    exact last front

end Path

/-- The file of a target, if it is no handler. -/
def Target.file? : Target → Option String
  | .handler _ => none
  | .template path => some path
  | .file path _ => some path

namespace Site

open PageServer.Path

variable {base : String} {names : List (List Char)}

/-- Below a path that does not end with a slash, each name comes behind a slash. -/
theorem below_of_isBare (bare : IsBare base) (plain : ArePlain names) :
    below base names = base ++ String.ofList (opened names) ∧ IsBare (below base names) := by
  induction names generalizing base with
  | nil => simpa [below, opened] using bare
  | cons name names ih =>
    obtain ⟨⟨filled, unslashed⟩, others⟩ := List.forall_mem_cons.mp plain
    have relative : (String.ofList name).toList.head? ≠ some '/' := by
      rw [String.toList_ofList]
      exact fun first => unslashed (List.mem_of_head? first)
    obtain ⟨later, closed⟩ := ih (isBare_join base filled unslashed) others
    refine ⟨?_, closed⟩
    calc below base (name :: names)
        = join base (String.ofList name) ++ String.ofList (opened names) := later
      _ = base ++ String.ofList (opened (name :: names)) := by
        rw [join_of_isBare bare relative, opened, opened, List.flatMap_cons, List.cons_append,
          String.ofList_cons, String.ofList_append]
        simp only [String.append_assoc]
        rfl

example : below "www" ["docs".toList, "a.css".toList] = "www/docs/a.css" := by decide

/-- What stands behind the slashes that begin the spelling of names. -/
theorem dropWhile_spell (name : List Char) (names : List (List Char)) (slash : Bool)
    (plain : ArePlain (name :: names)) :
    (spell (name :: names) slash).toList.dropWhile (· == '/') =
      name ++ opened names ++ if slash then ['/'] else [] := by
  obtain ⟨filled, unslashed⟩ := (List.forall_mem_cons.mp plain).1
  obtain ⟨first, rest, rfl⟩ := List.exists_cons_of_ne_nil filled
  have other : (first == '/') = false :=
    beq_eq_false_iff_ne.mpr fun same => unslashed (same ▸ List.mem_cons_self)
  rw [spell, String.toList_ofList, List.flatMap_cons, List.append_assoc, List.cons_append,
    List.dropWhile_cons_of_pos (by rfl), List.cons_append,
    List.dropWhile_cons_of_neg (by simp [other]), List.cons_append, List.cons_append, opened,
    List.append_assoc]
  simp

/-- A path behind its first slashes has no components but its names. -/
theorem components_spell (solid : AreSolid names) (slash : Bool) :
    Path.components (String.ofList ((spell names slash).toList.dropWhile (· == '/'))) =
      names.map .name := by
  obtain ⟨plain, notCurrent, notAbove⟩ := solid
  have named : ∀ name ∈ names, Component.ofSegment? name = some (.name name) := by
    intro name member
    have other : name ≠ ['.'] := fun same => notCurrent (same ▸ member)
    have inside : name ≠ ['.', '.'] := fun same => notAbove (same ▸ member)
    simp [Component.ofSegment?, (plain name member).1, other, inside]
  cases names with
  | nil => cases slash <;> rfl
  | cons name names =>
    obtain ⟨⟨filled, unslashed⟩, others⟩ := List.forall_mem_cons.mp plain
    obtain ⟨first, rest⟩ := List.forall_mem_cons.mp named
    have current : name ≠ ['.'] := fun same => notCurrent (same ▸ List.mem_cons_self)
    have segments : Path.segments (String.ofList ((spell (name :: names) slash).toList.dropWhile
        (· == '/'))) = name :: (names ++ if slash then [[]] else []) := by
      have behind : opened names ++ (if slash then ['/'] else []) =
          opened (names ++ if slash then [[]] else []) := by
        rw [opened, opened, List.flatMap_append]
        cases slash <;> rfl
      rw [dropWhile_spell name names slash plain, Path.segments, String.toList_ofList,
        List.append_assoc, behind, divide_append_opened unslashed]
      refine List.forall_mem_append.mpr ⟨fun name member => (others name member).2, ?_⟩
      cases slash <;> simp
    have kept : names.filterMap Component.ofSegment? = names.map .name := by
      rw [← List.filterMap_eq_map]
      exact List.filterMap_congr rest
    have closing : (if slash then [[]] else []).filterMap Component.ofSegment? = [] := by
      cases slash <;> rfl
    simp only [Path.components, segments, filled, current, first, List.filterMap_append, kept, closing,
      ↓reduceIte, Option.toList_some, List.map_cons, List.append_nil, List.singleton_append]

/-- Behind the document root, the spelling of names leads to the place that the names lead to, but may
ask for a directory there. -/
theorem place_cases (root : String) (plain : ArePlain names) (slash : Bool) :
    let place := join root (String.ofList ((spell names slash).toList.dropWhile (· == '/')))
    place = below root names ∨ (place = below root names ++ "/" ∧ IsBare (below root names)) := by
  intro place
  cases names with
  | nil =>
    have nothing : place = join root "" := by
      cases slash <;> rfl
    by_cases bare : IsBare root
    · exact .inr ⟨nothing.trans ((join_of_isBare bare (by simp)).trans String.append_empty), bare⟩
    · refine .inl (nothing.trans ?_)
      have closed : root = "" ∨ endsWithSlash root = true := by
        rwa [IsBare, not_and_or, not_not, Bool.not_eq_false] at bare
      rw [join, if_neg (by simp), if_pos closed, String.append_empty]
      rfl
  | cons name names =>
    obtain ⟨⟨filled, unslashed⟩, others⟩ := List.forall_mem_cons.mp plain
    obtain ⟨later, bare⟩ := below_of_isBare (isBare_join root filled unslashed) others
    have whole : place = below root (name :: names) ++ if slash then "/" else "" := by
      have relative : (String.ofList name).toList.head? ≠ some '/' := by
        rw [String.toList_ofList]
        exact fun first => unslashed (List.mem_of_head? first)
      have solid : String.ofList name ≠ "" := mt String.ofList_eq_empty_iff.mp filled
      calc place
          = join root (String.ofList name ++ (String.ofList (opened names) ++
              if slash then "/" else "")) := by
            simp only [place, dropWhile_spell name names slash plain, String.ofList_append,
              String.append_assoc]
            cases slash <;> rfl
        _ = below root (name :: names) ++ if slash then "/" else "" := by
            rw [join_append relative solid, ← String.append_assoc, ← later]
            rfl
    cases slash with
    | false => exact .inl (whole.trans String.append_empty)
    | true => exact .inr ⟨whole, bare⟩

variable {site : Site}

/-- A file has the place that a path names below the document root, or it is the index file of the
directory there. -/
structure IsConfined (site : Site) (path file : String) : Prop where
  /-- It is a file, and no directory. -/
  regular : site.files.isFile file = true
  /-- The names of the path lead neither to the directory above nor through several directories. -/
  plain : ∀ name ∈ Path.names path, name ≠ [] ∧ name ≠ ['.'] ∧ name ≠ ['.', '.'] ∧ '/' ∉ name
  /-- The names are followed in order, all of them and nothing else. -/
  place : file = below site.settings.documentRoot (Path.names path) ∨
    (site.files.isDirectory (below site.settings.documentRoot (Path.names path)) = true ∧
      file = join (below site.settings.documentRoot (Path.names path)) site.settings.indexFile)

/-- What is located is a file: the index file of the place, or the place itself. -/
theorem locate_cases {text file : String} (located : site.locate text = .ok file) :
    let place := join site.settings.documentRoot (String.ofList (text.toList.dropWhile (· == '/')))
    site.files.isFile file = true ∧
      ((site.files.isDirectory place = true ∧ file = join place site.settings.indexFile) ∨
        file = place) := by
  intro place
  have found : ∀ candidate, (if site.files.isFile candidate then Except.ok candidate
      else .error (ServerError.notFound text)) = .ok file →
      site.files.isFile file = true ∧ file = candidate := by
    intro candidate found
    by_cases regular : site.files.isFile candidate = true
    · rw [if_pos regular, Except.ok.injEq] at found
      exact ⟨found ▸ regular, found.symm⟩
    · rw [if_neg regular] at found
      contradiction
  rw [locate] at located
  split at located
  · obtain ⟨regular, same⟩ := found _ located
    refine ⟨regular, ?_⟩
    by_cases directory : site.files.isDirectory place = true
    · exact .inl ⟨directory, same.trans (if_pos directory)⟩
    · exact .inr (same.trans (if_neg directory))
  · contradiction

/-- What is located for a spelling is confined to the place of its names. -/
theorem isConfined_of_locate {path file : String} {slash : Bool}
    (inside : ['.', '.'] ∉ Path.segments path)
    (located : site.locate (spell (Path.names path) slash) = .ok file) : site.IsConfined path file := by
  obtain ⟨plain, notCurrent, notAbove⟩ := areSolid_names inside
  obtain ⟨regular, found⟩ := locate_cases located
  constructor
  case regular => exact regular
  case plain =>
    intro name member
    exact ⟨(plain name member).1, fun same => notCurrent (same ▸ member),
      fun same => notAbove (same ▸ member), (plain name member).2⟩
  case place =>
    rcases place_cases site.settings.documentRoot plain slash with same | ⟨slashed, bare⟩
    · rw [same] at found
      exact found.symm
    · rw [slashed] at found
      rcases found with ⟨directory, indexed⟩ | itself
      · rw [join_slash bare] at indexed
        exact .inr ⟨FileTree.isDirectory_of_slash bare.1 directory, indexed⟩
      · rw [itself, FileTree.isFile_slash] at regular
        exact absurd regular Bool.false_ne_true

theorem file?_fileTarget (site : Site) (file : String) : (site.fileTarget file).file? = some file := by
  rw [fileTarget]
  split <;> rfl

/-- A path that leads to a file is spelled, and the file is located there. Its own path decides its target. -/
theorem located_of_resolve {path file : String} {goal : Target} {direct : Bool}
    (leads : site.resolve path direct = .ok goal) (holds : goal.file? = some file) :
    goal = site.fileTarget file ∧ ['.', '.'] ∉ segments path ∧
      site.locate (spell (Path.names path) (endsWithSlash path)) = .ok file := by
  obtain ⟨text, spelled, leads⟩ := target_of_resolve leads
  obtain ⟨inside, rfl⟩ := normalize_eq_ok_iff.mp spelled
  rcases target_cases leads with ⟨handler, rfl, -⟩ | ⟨found, rfl, located⟩
  · contradiction
  · rw [file?_fileTarget, Option.some.injEq] at holds
    subst holds
    exact ⟨rfl, inside, located⟩

/-- What holds of the files that a path leads to. -/
structure Confines (site : Site) (path : String) (direct : Bool) : Prop where
  /-- A path leads to no file but the one that it names. -/
  inside : ∀ goal file, site.resolve path direct = .ok goal → goal.file? = some file →
    site.IsConfined path file
  /-- A path that leads to a directory above is not found. -/
  above : ['.', '.'] ∈ Path.segments path → site.resolve path direct = .error (.notFound path)
  /-- A path that has a spelling is never refused because of its components. -/
  checked : ∀ text, normalize path = .ok text →
    (Path.components (String.ofList (text.toList.dropWhile (· == '/')))).all (· matches .name _) = true

/-- Every path leads to a file at its own place below the document root, if to any. -/
theorem filesStayBelow (site : Site) (path : String) (direct : Bool) : site.Confines path direct := by
  constructor
  case inside =>
    intro goal file leads holds
    obtain ⟨-, inside, located⟩ := located_of_resolve leads holds
    exact isConfined_of_locate inside located
  case above => exact fun above => resolve_eq_error above direct
  case checked =>
    intro text spelled
    have inside : ['.', '.'] ∉ Path.segments path := by
      intro above
      rw [normalize_eq_error above] at spelled
      contradiction
    rw [normalize_eq_ok inside, Except.ok.injEq] at spelled
    rw [← spelled, components_spell (areSolid_names inside)]
    simp

theorem exists_of_file? {path file : String} {direct : Bool}
    (found : (site.resolve path direct).toOption.bind Target.file? = some file) :
    ∃ goal, site.resolve path direct = .ok goal ∧ goal.file? = some file := by
  obtain ⟨goal, leads, holds⟩ := Option.bind_eq_some_iff.mp found
  refine ⟨goal, ?_, holds⟩
  cases resolved : site.resolve path direct with
  | error e =>
    rw [resolved] at leads
    contradiction
  | ok target =>
    rw [resolved] at leads
    cases leads
    rfl

/-- The index file of a directory below a document root that is given from the root directory on. A path that
leads above is not found, even if it comes back to the directory. -/
theorem filesStayBelow_index :
    let site : Site := {
      settings := { documentRoot := "/srv/site/www" }
      files := .ofList [("www/docs/index.html", Text.encode "x")] }
    (∃ goal, site.resolve "//docs/./" true = .ok goal ∧
      goal.file? = some "/srv/site/www/docs/index.html") ∧
      site.IsConfined "//docs/./" "/srv/site/www/docs/index.html" ∧
      ['.', '.'] ∈ Path.segments "/docs/../docs/" ∧
      site.resolve "/docs/../docs/" true = .error (.notFound "/docs/../docs/") ∧
      normalize "//docs/./" = .ok "/docs/" ∧
      (Path.components "docs/").all (· matches .name _) = true := by
  intro site
  obtain ⟨goal, leads, holds⟩ : ∃ goal, site.resolve "//docs/./" true = .ok goal ∧
      goal.file? = some "/srv/site/www/docs/index.html" := exists_of_file? (by decide +kernel)
  have above : ['.', '.'] ∈ Path.segments "/docs/../docs/" := by decide
  have spelled : normalize "//docs/./" = .ok "/docs/" := by decide
  have here := filesStayBelow site "//docs/./" true
  exact ⟨⟨goal, leads, holds⟩, here.inside goal _ leads holds, above,
    (filesStayBelow site "/docs/../docs/" true).above above, spelled, here.checked "/docs/" spelled⟩

end Site

end PageServer
