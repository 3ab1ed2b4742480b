import PageServer.Proofs.Exchange.Reaching
import PageServer.Proofs.Site.Confinement
import PageServer.Site.Connection

/-! # Which files are templates

A file is run or sent by what stands behind the last dot of its name. A path ends with that name
(`isProper_of_isFile`), whether it was asked for by name or as the index file of a directory. The extension of
the file is taken in lower case, and that of the settings as it was written. So if the settings have it in
lower case, the case of file names does not matter and no template is ever sent; if they have a capital in
it, no file has it and every template is sent as it is (`sortsFiles`).
-/

namespace PageServer

namespace Path

/-- What stands behind the last slash of a path. -/
def lastSegment (path : String) : List Char :=
  (segments path).getLast?.getD []

/-- A name that has this suffix: it begins with something else, and a dot stands before the suffix. -/
def HasSuffix (name suffix : List Char) : Prop :=
  ∃ stem, stem ≠ [] ∧ '.' ∉ suffix ∧ name = stem ++ '.' :: suffix

def IsProper (segment : List Char) : Prop :=
  segment ≠ [] ∧ segment ≠ ['.'] ∧ segment ≠ ['.', '.']

theorem getLast?_segments (path : String) : (segments path).getLast? = some (lastSegment path) := by
  rw [lastSegment, segments, List.getLast?_eq_some_getLast (Text.divide_ne_nil _ _), Option.getD_some]

/-- A path that ends with a name leads to a file of that name. -/
theorem fileName?_of_isProper {path : String} (proper : IsProper (lastSegment path)) :
    fileName? path = some (lastSegment path) := by
  have last := getLast?_segments path
  obtain ⟨filled, notCurrent, notAbove⟩ := proper
  have named : Component.ofSegment? (lastSegment path) = some (.name (lastSegment path)) := by
    simp [Component.ofSegment?, filled, notCurrent, notAbove]
  have ends : (components path).getLast? = some (.name (lastSegment path)) := by
    rw [components]
    cases divided : segments path with
    | nil => exact absurd divided (Text.divide_ne_nil _ _)
    | cons first rest =>
      rw [divided] at last
      obtain rfl | ⟨front, segment, rfl⟩ := rest.eq_nil_or_concat
      · obtain rfl : first = lastSegment path := by simpa using last
        simp [filled, notCurrent, named]
      · obtain rfl : segment = lastSegment path := by simpa [List.getLast?_cons] using last
        simp [List.filterMap_append, named]
  rw [fileName?, ends]

/-- Of a path that ends with a name, the extension is the suffix of that name in lower case. -/
theorem extension?_eq_some_iff {path extension : String} (proper : IsProper (lastSegment path)) :
    extension? path = some extension ↔
      ∃ suffix, HasSuffix (lastSegment path) suffix ∧ Text.lower suffix = extension.toList := by
  rw [extension?, fileName?_of_isProper proper, Option.bind_some, Option.bind_eq_some_iff]
  constructor
  · rintro ⟨⟨stem, suffix⟩, divided, kept⟩
    obtain ⟨whole, undotted⟩ := Text.cutLast_eq_some_iff.mp divided
    obtain ⟨filled, same⟩ := Option.ite_none_left_eq_some.mp kept
    refine ⟨suffix, ⟨stem, filled, undotted, whole⟩, ?_⟩
    rw [← Option.some.inj same, String.toList_ofList]
  · rintro ⟨suffix, ⟨stem, filled, undotted, whole⟩, same⟩
    refine ⟨(stem, suffix), Text.cutLast_eq_some_iff.mpr ⟨whole, undotted⟩, ?_⟩
    exact Option.ite_none_left_eq_some.mpr ⟨filled, by rw [same, String.ofList_toList]⟩

/-- A path ends as it does behind another one. -/
theorem lastSegment_join (base path : String) : lastSegment (join base path) = lastSegment path := by
  have behind (front : List Char) :
      lastSegment (String.ofList (front ++ '/' :: path.toList)) = lastSegment path := by
    rw [lastSegment, segments, String.toList_ofList, Text.divide_append_mark rfl,
      List.getLast?_append_of_ne_nil _ (Text.divide_ne_nil _ _)]
    rfl
  rw [join]
  split
  · rfl
  · split
    · next closed =>
      rcases closed with rfl | slashed
      · rw [String.empty_append]
      · obtain ⟨front, whole⟩ := List.getLast?_eq_some_iff.mp (beq_iff_eq.mp slashed)
        rw [← behind front, ← String.ofList_toList (s := base ++ path), String.toList_append, whole,
          List.append_assoc]
        rfl
    · rw [← behind base.toList, ← String.ofList_toList (s := base ++ "/" ++ path), String.toList_append,
        String.toList_append, List.append_assoc]
      rfl

/-- Names that are followed from a directory lead to a path that ends with the last of them. -/
theorem lastSegment_below {name : List Char} (unslashed : '/' ∉ name) (base : String)
    (names : List (List Char)) : lastSegment (below base (names ++ [name])) = name := by
  rw [below, List.foldl_concat, lastSegment_join, lastSegment, segments, String.toList_ofList,
    Text.divide_eq_singleton (Text.unmarked_of_not_mem unslashed)]
  rfl

end Path

namespace FileTree

namespace Entry

/-- What segments lead to is a directory, unless the last of them is a name. -/
theorem follow_cases {tree entry : Entry} {above : List Entry} {segments : List (List Char)}
    (found : tree.follow above segments = .ok entry)
    (areAbove : ∀ outer ∈ above, ∃ entries, outer = .directory entries) :
    segments = [] ∨ (∃ entries, entry = .directory entries) ∨
      ∃ segment, segments.getLast? = some segment ∧ Path.IsProper segment := by
  induction segments generalizing above tree with
  | nil => exact .inl rfl
  | cons segment rest ih =>
    refine .inr ?_
    obtain ⟨entries, isTree, farther, next, later, step⟩ := follow_cons_cases found
    have arePassed : ∀ outer ∈ tree :: above, ∃ entries, outer = .directory entries :=
      List.forall_mem_cons.mpr ⟨⟨entries, isTree⟩, areAbove⟩
    have areFarther : ∀ outer ∈ farther, ∃ entries, outer = .directory entries := by
      rcases step with ⟨-, fewer⟩ | ⟨-, -, rfl⟩
      · exact fun outer member => areAbove outer (fewer member)
      · exact arePassed
    rcases ih later areFarther with rfl | directory | ⟨last, ends, proper⟩
    · cases later
      rcases step with ⟨passed, -⟩ | ⟨proper, -⟩
      · exact .inl (arePassed entry passed)
      · exact .inr ⟨segment, rfl, proper⟩
    · exact .inl directory
    · exact .inr ⟨last, by rw [List.getLast?_cons, ends]; rfl, proper⟩

end Entry

variable {files : FileTree} {path : String}

theorem find_of_isFile (regular : files.isFile path = true) :
    ∃ content, files.find path = .ok (.file content) := by
  rw [isFile] at regular
  split at regular
  · next content found => exact ⟨content, found⟩
  · contradiction

theorem getLast?_segments (files : FileTree) (path : String) :
    (files.segments path).getLast? = some (Path.lastSegment path) := by
  rw [segments]
  split
  · exact Path.getLast?_segments path
  · have filled : Path.segments path ≠ [] := Text.divide_ne_nil _ _
    rw [List.getLast?_append_of_ne_nil _ filled, Path.getLast?_segments]

/-- The path of a file ends with a name. -/
theorem isProper_of_isFile (regular : files.isFile path = true) : Path.IsProper (Path.lastSegment path) := by
  obtain ⟨content, found⟩ := find_of_isFile regular
  have last := files.getLast?_segments path
  rcases Entry.follow_cases (find_eq_ok_iff.mp found).2 (List.forall_mem_nil _) with
    none | ⟨_, directory⟩ | ⟨segment, ends, proper⟩
  · rw [none] at last
    contradiction
  · contradiction
  · rw [last, Option.some.injEq] at ends
    exact ends ▸ proper

/-- What is a file can be read. -/
theorem exists_read_of_isFile (regular : files.isFile path = true) :
    ∃ content, files.read path = .ok content := by
  obtain ⟨content, found⟩ := find_of_isFile regular
  exact ⟨content, by rw [read, found]; rfl⟩

end FileTree

namespace Site

open PageServer.Path

section Targets

variable {site : Site} {path file : String} {goal : Target} {direct slash : Bool}

/-- The name of a located file is the last name of the path, or that of the index file of the directory there. -/
theorem named_of_locate (plain : ArePlain (names path))
    (located : site.locate (spell (names path) slash) = .ok file) :
    (names path).getLast? = some (lastSegment file) ∨
      (site.files.isDirectory (below site.settings.documentRoot (names path)) = true ∧
        lastSegment file = lastSegment site.settings.indexFile) := by
  obtain ⟨regular, found⟩ := locate_cases located
  have places := place_cases site.settings.documentRoot plain slash
  rcases found with ⟨directory, indexed⟩ | itself
  · refine .inr ⟨?_, by rw [indexed, lastSegment_join]⟩
    rcases places with same | ⟨slashed, bare⟩
    · exact same ▸ directory
    · exact FileTree.isDirectory_of_slash bare.1 (slashed ▸ directory)
  · refine .inl ?_
    obtain none | ⟨front, name, whole⟩ := (names path).eq_nil_or_concat
    · -- the document root itself has no name behind its slash
      have rootless : lastSegment file = [] := by
        rw [itself, lastSegment_join, none]
        cases slash <;> rfl
      exact absurd rootless (FileTree.isProper_of_isFile regular).1
    · rcases places with same | ⟨slashed, -⟩
      · have unslashed : '/' ∉ name := (plain name (by simp [whole])).2
        rw [itself, same, whole, List.concat_eq_append, lastSegment_below unslashed, List.getLast?_concat]
      · rw [itself, slashed, FileTree.isFile_slash] at regular
        exact absurd regular Bool.false_ne_true

/-- A file is a template exactly if its suffix in lower case is the extension of templates as it is written. -/
theorem fileTarget_eq_template_iff (proper : IsProper (lastSegment file)) :
    site.fileTarget file = .template file ↔ ∃ suffix, HasSuffix (lastSegment file) suffix ∧
      Text.lower suffix = site.settings.scriptExtension.toList := by
  rw [← extension?_eq_some_iff proper, fileTarget]
  split
  · next same => exact iff_of_true rfl same
  · next other => exact iff_of_false (fun same => by contradiction) other

theorem isFile_of_resolve (leads : site.resolve path direct = .ok goal) (holds : goal.file? = some file) :
    site.files.isFile file = true :=
  (locate_cases (located_of_resolve leads holds).2.2).1

/-- What a path leads to is a template exactly if the suffix of the file in lower case is the extension of
templates as it is written. -/
theorem eq_template_iff_of_resolve (leads : site.resolve path direct = .ok goal)
    (holds : goal.file? = some file) :
    goal = .template file ↔ ∃ suffix, HasSuffix (lastSegment file) suffix ∧
      Text.lower suffix = site.settings.scriptExtension.toList := by
  obtain ⟨rfl, -⟩ := located_of_resolve leads holds
  exact fileTarget_eq_template_iff (FileTree.isProper_of_isFile (isFile_of_resolve leads holds))

/-- A file is sent whole, behind the header block if that was not sent. -/
theorem sendFile_of_reliable {x : Exchange} {content : Bytes} (read : site.files.read file = .ok content)
    (reliable : x.sink.Reliable) (direct : Bool) (mediaType : String) :
    ∃ y, site.sendFile direct file mediaType x = .ok () y ∧
      y.sink.bytes = x.sink.bytes ++ ((if x.headerSent then [] else Text.encode y.head.render) ++ content) := by
  obtain ⟨head, sends⟩ : ∃ head, site.sendFile direct file mediaType x =
      (Exchange.write content).run { x with head } := by
    simp only [sendFile, read]
    obtain ⟨sink, head, phase⟩ := x
    cases phase with
    | sent => exact ⟨head, by cases direct <;> rfl⟩
    | pending =>
      cases direct with
      | false => exact ⟨head, rfl⟩
      | true => exact ⟨_, rfl⟩
  obtain ⟨sink, wrote, -, stored⟩ := Exchange.write_of_reliable (x := { x with head }) reliable content
  refine ⟨_, sends.trans (by rw [Exchange.Step.run, wrote]), stored.trans ?_⟩
  cases sent : x.phase <;> simp only [Exchange.owed, Exchange.headerSent, sent] <;> rfl

end Targets

/-- The extension of templates is written in lower case. -/
def HasLowerExtension (site : Site) : Prop :=
  Text.lower site.settings.scriptExtension.toList = site.settings.scriptExtension.toList

example : HasLowerExtension {} := rfl

/-- What becomes of the files that a path leads to. -/
structure SortsFiles (site : Site) (path : String) (direct : Bool) : Prop where
  /-- The path of a file ends with a name: the last name of the path, or that of the index file of the directory
  there. -/
  named : ∀ goal file, site.resolve path direct = .ok goal → goal.file? = some file →
    IsProper (lastSegment file) ∧ ((names path).getLast? = some (lastSegment file) ∨
      (site.files.isDirectory (below site.settings.documentRoot (names path)) = true ∧
        lastSegment file = lastSegment site.settings.indexFile))
  /-- It is a template exactly if the suffix of that name in lower case is the extension as it is written. -/
  sorted : ∀ goal file, site.resolve path direct = .ok goal → goal.file? = some file →
    (goal = .template file ↔ ∃ suffix, HasSuffix (lastSegment file) suffix ∧
      Text.lower suffix = site.settings.scriptExtension.toList)
  /-- If the extension is written in lower case, no file is sent that has it in whatever case. -/
  kept : site.HasLowerExtension → ∀ file mediaType, site.resolve path direct = .ok (.file file mediaType) →
    ∀ suffix, HasSuffix (lastSegment file) suffix →
      Text.sameIgnoringCase suffix site.settings.scriptExtension.toList = false
  /-- Each of these files is run. -/
  run : site.HasLowerExtension → ∀ goal file suffix, site.resolve path direct = .ok goal →
    goal.file? = some file → HasSuffix (lastSegment file) suffix →
    Text.sameIgnoringCase suffix site.settings.scriptExtension.toList = true →
    ∀ includePath, site.dispatchWith includePath path direct = site.runTemplate includePath file
  /-- If the extension is written with a capital, every file is sent, and whole: no file is a template. -/
  disclosed : ¬ site.HasLowerExtension → ∀ goal file, site.resolve path direct = .ok goal →
    goal.file? = some file → ∃ content, site.files.read file = .ok content ∧
      ∀ (includePath : Include) (x : Exchange), x.sink.Reliable →
        ∃ y, site.dispatchWith includePath path direct x = .ok () y ∧ y.sink.bytes =
          x.sink.bytes ++ ((if x.headerSent then [] else Text.encode y.head.render) ++ content)

/-- Every path leads to files that are run or sent by their suffix, which is compared in lower case with the
extension as it is written. -/
theorem sortsFiles (site : Site) (path : String) (direct : Bool) : site.SortsFiles path direct := by
  constructor
  case named =>
    intro goal file leads holds
    obtain ⟨-, inside, located⟩ := located_of_resolve leads holds
    exact ⟨FileTree.isProper_of_isFile (isFile_of_resolve leads holds),
      named_of_locate (areSolid_names inside).1 located⟩
  case sorted => exact fun _ _ leads holds => eq_template_iff_of_resolve leads holds
  case kept =>
    intro lower file mediaType leads suffix suffixed
    refine Bool.eq_false_iff.mpr fun alike => ?_
    have same := Text.sameIgnoringCase_iff.mp alike
    have template := (eq_template_iff_of_resolve leads rfl).mpr ⟨suffix, suffixed, same.trans lower⟩
    contradiction
  case run =>
    intro lower goal file suffix leads holds suffixed alike includePath
    have same := Text.sameIgnoringCase_iff.mp alike
    obtain rfl := (eq_template_iff_of_resolve leads holds).mpr ⟨suffix, suffixed, same.trans lower⟩
    simp only [dispatchWith, leads, runTarget]
  case disclosed =>
    intro capital goal file leads holds
    obtain ⟨content, read⟩ := FileTree.exists_read_of_isFile (isFile_of_resolve leads holds)
    refine ⟨content, read, fun includePath x reliable => ?_⟩
    have untemplated : goal ≠ .template file := by
      intro template
      obtain ⟨suffix, -, lowered⟩ := (eq_template_iff_of_resolve leads holds).mp template
      -- what was brought to lower case is in lower case
      exact capital (by rw [HasLowerExtension, ← lowered, Text.lower_lower])
    cases goal with
    | handler => contradiction
    | template place =>
      cases holds
      exact absurd rfl untemplated
    | file place mediaType =>
      cases holds
      simp only [dispatchWith, leads, runTarget]
      exact sendFile_of_reliable read reliable direct mediaType

/-- Under the default settings, a template whose extension is written with capitals is run, and a style sheet is
sent. If the settings have the extension with the very same capitals, the template is sent as well. -/
theorem sortsFiles_capitals :
    let files := FileTree.ofList [("www/a.TmPl", Text.encode "<%= 1 2 + %>"), ("www/b.css", Text.encode "b")]
    let site : Site := { files }
    let capital : Site := { files, settings := { scriptExtension := "TmPl" } }
    site.HasLowerExtension ∧ ¬ capital.HasLowerExtension ∧
      site.resolve "/a.TmPl" true = .ok (.template "www/a.TmPl") ∧
      (∃ goal, site.resolve "/b.css" true = .ok goal ∧ goal.file? = some "www/b.css" ∧
        goal ≠ .template "www/b.css") ∧
      ∃ y, capital.dispatch "/a.TmPl" true .blank = .ok () y ∧
        y.sink.bytes = Text.encode y.head.render ++ Text.encode "<%= 1 2 + %>" := by
  intro files site capital
  have lower : Text.lower "tmpl".toList = "tmpl".toList := by decide
  have upper : ¬ Text.lower "TmPl".toList = "TmPl".toList := by decide
  have suffixed : HasSuffix (lastSegment "www/a.TmPl") "TmPl".toList := ⟨['a'], by decide, by decide, by decide⟩
  obtain ⟨goal, leads, holds⟩ : ∃ goal, site.resolve "/a.TmPl" true = .ok goal ∧
      goal.file? = some "www/a.TmPl" := exists_of_file? (by decide +kernel)
  obtain rfl : goal = .template "www/a.TmPl" :=
    ((sortsFiles site "/a.TmPl" true).sorted goal _ leads holds).mpr ⟨_, suffixed, by decide⟩
  obtain ⟨sheet, leadsSheet, holdsSheet⟩ : ∃ goal, site.resolve "/b.css" true = .ok goal ∧
      goal.file? = some "www/b.css" := exists_of_file? (by decide +kernel)
  have unlike : sheet ≠ .template "www/b.css" := by
    intro same
    obtain ⟨suffix, ⟨stem, -, undotted, whole⟩, lowered⟩ :=
      ((sortsFiles site "/b.css" true).sorted sheet _ leadsSheet holdsSheet).mp same
    have cut := Text.cutLast_eq_some_iff.mpr ⟨whole, undotted⟩
    have found : Text.cutLast '.' (lastSegment "www/b.css") = some (['b'], ['c', 's', 's']) := by decide
    rw [found] at cut
    cases cut
    exact absurd lowered (by decide)
  obtain ⟨source, leadsSource, holdsSource⟩ : ∃ goal, capital.resolve "/a.TmPl" true = .ok goal ∧
      goal.file? = some "www/a.TmPl" := exists_of_file? (by decide +kernel)
  obtain ⟨content, read, sends⟩ :=
    (sortsFiles capital "/a.TmPl" true).disclosed upper source _ leadsSource holdsSource
  have written : capital.files.read "www/a.TmPl" = .ok (Text.encode "<%= 1 2 + %>") := by decide +kernel
  rw [written] at read
  cases read
  obtain ⟨y, sent, stored⟩ := sends (capital.runInclude includeLevels) .blank ⟨rfl, rfl⟩
  exact ⟨lower, upper, leads, ⟨sheet, leadsSheet, holdsSheet, unlike⟩, y, sent, stored⟩

/-- Settings with a capital in the extension of templates are accepted, and the source of a template is sent
although its name has the very same extension. -/
theorem accepted_extension_disclosed :
    let settings : Settings := { scriptExtension := "TMPL" }
    let site : Site := { settings, files := FileTree.ofList [("www/a.TMPL", Text.encode "<%= 1 2 + %>")] }
    let start : SessionRegistry := { timeout := 10, draw := fun _ => "x" }
    let stream : Http.Stream := [.bytes (Text.encode "GET /a.TMPL HTTP/1.1\r\n\r\n")]
    settings.validate = .ok () ∧ HasSuffix (lastSegment "www/a.TMPL") settings.scriptExtension.toList ∧
      (∃ mediaType, site.resolve "/a.TMPL" true = .ok (.file "www/a.TMPL" mediaType)) ∧
      (site.serve start 0 stream {}).sink.bytes = Text.encode ("HTTP/1.1 200 OK\r\n" ++
        "Content-Type: application/octet-stream\r\nContent-Length: 12\r\n" ++
        "Set-Cookie: sid=\"x\"; Domain=localhost; Path=/; HttpOnly\r\n\r\n<%= 1 2 + %>") := by
  intro settings site start stream
  have sent : ∃ mediaType, site.resolve "/a.TMPL" true = .ok (.file "www/a.TMPL" mediaType) := by
    have spelled : normalize "/a.TMPL" = .ok "/a.TMPL" := by decide
    have visible : site.isPrivate "/a.TMPL" = false := by decide
    have unrouted : site.routes["/a.TMPL"]? = none := Std.ExtTreeMap.getElem?_empty
    have unnamed : site.workerName? "/a.TMPL" = none := by decide
    have located : site.locate "/a.TMPL" = .ok "www/a.TMPL" := by decide +kernel
    have other : Path.extension? "www/a.TMPL" ≠ some site.settings.scriptExtension := by decide
    refine ⟨site.settings.defaultMediaType, ?_⟩
    rw [resolve_of_spelling spelled, visible]
    simp only [target, unrouted, unnamed, located]
    exact congrArg Except.ok (if_neg other)
  exact ⟨by decide +kernel, ⟨['a'], by decide, by decide, by decide⟩, sent, by decide +kernel⟩

end Site

end PageServer
