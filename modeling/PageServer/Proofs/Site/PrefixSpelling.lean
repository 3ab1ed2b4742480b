import PageServer.Proofs.Site.Confinement

/-! # Prefixes and the spelling of paths

The guard of private paths and the table of workers compare a prefix with request paths in their one
spelling. The settings may have any prefix between two slashes. So a prefix is met only if it is its own
spelling (`begins_spelling_iff`), which comes down to the segments between its slashes
(`normalize_directory_iff`). Another one is accepted just as well, but then the guard is open and the workers
are out of reach (`prefixEffect_of_validate`).
-/

namespace PageServer.Site

/-- The segments between the first and the last slash of a text. -/
def innerSegments (text : String) : List (List Char) :=
  ((Path.segments text).drop 1).dropLast

/-- The segments of a text between two slashes stand between two empty ones. -/
theorem innerSegments_closed {segments : List (List Char)} (unslashed : ∀ s ∈ segments, '/' ∉ s) :
    innerSegments (String.ofList ('/' :: closed segments)) = segments := by
  have ends : ∀ s ∈ segments ++ [[]], '/' ∉ s :=
    List.forall_mem_append.mpr ⟨unslashed, List.forall_mem_singleton.mpr List.not_mem_nil⟩
  have spelled : '/' :: closed segments = opened (segments ++ [[]]) := by
    rw [← opened_append_slash, opened, opened, List.flatMap_append]
    rfl
  rw [innerSegments, spelled, segments_opened ends, List.drop_one, List.tail_cons, List.dropLast_concat]

/-- A directory path is a slash and segments with a slash behind each. -/
theorem exists_segments_of_isDirectoryPath {place : String}
    (directory : Settings.isDirectoryPath place = true) :
    ∃ segments, (∀ s ∈ segments, '/' ∉ s) ∧ place = String.ofList ('/' :: closed segments) := by
  simp only [Settings.isDirectoryPath, Bool.and_eq_true, beq_iff_eq] at directory
  obtain ⟨first, last⟩ := directory
  obtain ⟨rest, whole⟩ := List.head?_eq_some_iff.mp first
  obtain rfl | ⟨text, c, rfl⟩ := rest.eq_nil_or_concat
  · exact ⟨[], List.forall_mem_nil _, by rw [← String.ofList_toList (s := place), whole]; rfl⟩
  · obtain rfl : c = '/' := by simpa [whole, List.getLast?_cons] using last
    refine ⟨Text.divide (· == '/') text, fun s member slashed => ?_, ?_⟩
    · have unmarked := Text.unmarked_of_mem_divide member '/' slashed
      contradiction
    · rw [closed, Text.flatMap_divide, ← List.concat_eq_append, ← whole, String.ofList_toList]

/-- What begins a spelling and ends with a slash consists of the first names of the spelling. -/
theorem segments_prefix_of_begins {segments names : List (List Char)} {slash : Bool}
    (unslashed : ∀ s ∈ segments, '/' ∉ s) (plain : ArePlain names)
    (begins : '/' :: closed segments <+: (spell names slash).toList) : segments <+: names := by
  have short : (spell names slash).toList <+: '/' :: closed names := by
    rw [← opened_append_slash, spell, String.toList_ofList]
    split
    · exact List.prefix_rfl
    · rw [List.append_nil]
      exact List.prefix_append _ _
  have longer := begins.trans short
  rw [List.cons_prefix_cons] at longer
  exact (closed_prefix_iff unslashed fun s member => (plain s member).2).mp longer.2

theorem AreSolid.of_prefix {segments names : List (List Char)} (solid : AreSolid names)
    (first : segments <+: names) : AreSolid segments :=
  ⟨fun s member => solid.1 s (first.subset member), fun member => solid.2.1 (first.subset member),
    fun member => solid.2.2 (first.subset member)⟩

/-- Names with a slash behind each are the spelling of a directory. -/
theorem spell_directory (names : List (List Char)) :
    spell names true = String.ofList ('/' :: closed names) := by
  rw [← opened_append_slash, spell, if_pos (.inr rfl)]
  rfl

variable {place : String}

/-- A directory path begins the spelling of some path exactly if its segments can stand in one. -/
theorem begins_closed_iff {segments : List (List Char)} (unslashed : ∀ s ∈ segments, '/' ∉ s) :
    (∃ path text, normalize path = .ok text ∧ '/' :: closed segments <+: text.toList) ↔
      AreSolid segments := by
  constructor
  · rintro ⟨path, text, spelled, begins⟩
    obtain ⟨inside, rfl⟩ := normalize_eq_ok_iff.mp spelled
    have solid := areSolid_names inside
    exact solid.of_prefix (segments_prefix_of_begins unslashed solid.1 begins)
  · intro solid
    refine ⟨_, _, normalize_spell solid true, [], ?_⟩
    rw [spell_directory, String.toList_ofList, List.append_nil]

theorem normalize_closed_iff {segments : List (List Char)} (unslashed : ∀ s ∈ segments, '/' ∉ s) :
    normalize (String.ofList ('/' :: closed segments)) = .ok (String.ofList ('/' :: closed segments)) ↔
      AreSolid segments := by
  constructor
  · intro same
    refine (begins_closed_iff unslashed).mp ⟨_, _, same, [], ?_⟩
    rw [String.toList_ofList, List.append_nil]
  · intro solid
    rw [← spell_directory]
    exact normalize_spell solid true

/-- A directory path begins the spelling of some path exactly if it is its own spelling. -/
theorem begins_spelling_iff (directory : Settings.isDirectoryPath place = true) :
    (∃ path text, normalize path = .ok text ∧ place.toList <+: text.toList) ↔
      normalize place = .ok place := by
  obtain ⟨segments, unslashed, rfl⟩ := exists_segments_of_isDirectoryPath directory
  rw [String.toList_ofList, begins_closed_iff unslashed, normalize_closed_iff unslashed]

/-- A directory path is its own spelling exactly if each segment between its slashes means a name. -/
theorem normalize_directory_iff (directory : Settings.isDirectoryPath place = true) :
    normalize place = .ok place ↔ ∀ s ∈ innerSegments place, s ≠ [] ∧ s ≠ ['.'] ∧ s ≠ ['.', '.'] := by
  obtain ⟨segments, unslashed, rfl⟩ := exists_segments_of_isDirectoryPath directory
  rw [normalize_closed_iff unslashed, innerSegments_closed unslashed]
  constructor
  · rintro ⟨plain, notCurrent, notParent⟩ s member
    exact ⟨(plain s member).1, fun same => notCurrent (same ▸ member), fun same => notParent (same ▸ member)⟩
  · intro named
    exact ⟨fun s member => ⟨(named s member).1, unslashed s member⟩,
      fun member => (named _ member).2.1 rfl, fun member => (named _ member).2.2 rfl⟩

variable {site : Site}

/-- Behind a prefix that is its own spelling, the guard hides every path with its names. -/
theorem resolve_below_private (directory : Settings.isDirectoryPath site.settings.privatePrefix = true)
    (own : normalize site.settings.privatePrefix = .ok site.settings.privatePrefix) {path : String}
    (below : Path.names site.settings.privatePrefix <+: Path.names path) :
    ∃ shown, site.resolve path true = .error (.notFound shown) := by
  obtain ⟨segments, unslashed, spelled⟩ := exists_segments_of_isDirectoryPath directory
  rw [spelled, normalize_closed_iff unslashed] at own
  rw [spelled, ← spell_directory, names_spell own] at below
  by_cases above : ['.', '.'] ∈ Path.segments path
  · exact ⟨path, resolve_eq_error above true⟩
  · have guarded : site.isPrivate (spell (Path.names path) (Path.endsWithSlash path)) = true :=
      (isPrivate_spell ⟨own.1, spelled⟩ (areSolid_names above).1 _).mpr below
    refine ⟨spell (Path.names path) (Path.endsWithSlash path), ?_⟩
    rw [resolve_of_spelling (normalize_eq_ok above), guarded]
    rfl

/-- A prefix that begins no spelling hides no path but, at most, its own directory. -/
theorem resolve_beside_private
    (unmet : ¬ ∃ path text, normalize path = .ok text ∧ site.settings.privatePrefix.toList <+: text.toList)
    {path : String} (other : normalize path ≠ .ok (String.ofList (trimSlashes site.settings.privatePrefix.toList))) :
    site.resolve path true = site.resolve path false := by
  cases spelled : normalize path with
  | error e => rw [resolve, resolve, spelled]; rfl
  | ok text =>
    have visible : site.isPrivate text = false := by
      rw [isPrivate, Bool.or_eq_false_iff, Bool.eq_false_iff, beq_eq_false_iff_ne]
      refine ⟨fun begins => unmet ⟨path, text, spelled, List.isPrefixOf_iff_prefix.mp begins⟩, fun same => ?_⟩
      rw [spelled, ← same, String.ofList_toList] at other
      exact other rfl
    rw [resolve_of_spelling spelled, resolve_of_spelling spelled, visible]
    rfl

/-- A worker is the target of its path, unless a route has taken the path. -/
theorem target_of_worker {name : String} {handler : Handler} (found : site.workers[name]? = some handler)
    (free : site.routes[site.settings.workerPrefix ++ name]? = none) :
    site.target (site.settings.workerPrefix ++ name) = .ok (.handler handler) := by
  have named : site.workerName? (site.settings.workerPrefix ++ name) = some name := by
    have begins : site.settings.workerPrefix.toList.isPrefixOf
        (site.settings.workerPrefix ++ name).toList = true := by
      rw [String.toList_append, List.isPrefixOf_iff_prefix]
      exact List.prefix_append _ _
    rw [workerName?, if_pos begins, String.toList_append, List.drop_left, String.ofList_toList]
  simp only [target, free, named, found]

/-- No path leads to a worker below a prefix that begins no spelling. -/
theorem resolve_beside_workers
    (unmet : ¬ ∃ path text, normalize path = .ok text ∧ site.settings.workerPrefix.toList <+: text.toList)
    (workers : HandlerTable) (path : String) (direct : Bool) :
    ({ site with workers } : Site).resolve path direct = site.resolve path direct := by
  cases spelled : normalize path with
  | error e => rw [resolve, resolve, spelled]; rfl
  | ok text =>
    have unnamed : site.workerName? text = none := by
      refine if_neg fun begins => unmet ⟨path, text, spelled, List.isPrefixOf_iff_prefix.mp begins⟩
    have same : ({ site with workers } : Site).target text = site.target text := by
      have unnamedToo : ({ site with workers } : Site).workerName? text = none := unnamed
      simp only [target, unnamed, unnamedToo]
      rfl
    rw [resolve_of_spelling spelled, resolve_of_spelling spelled, same]
    rfl

/-- What the two prefixes of a site come to. -/
structure PrefixEffect (site : Site) : Prop where
  /-- A prefix is its own spelling exactly if none of its inner segments is empty, `.` or `..`. -/
  unchanged : ∀ start ∈ [site.settings.privatePrefix, site.settings.workerPrefix],
    normalize start = .ok start ↔
      ∀ s ∈ innerSegments start, s ≠ [] ∧ s ≠ ['.'] ∧ s ≠ ['.', '.']
  /-- It begins the spelling of some path exactly if it is its own. -/
  met : ∀ start ∈ [site.settings.privatePrefix, site.settings.workerPrefix],
    (∃ path text, normalize path = .ok text ∧ start.toList <+: text.toList) ↔ normalize start = .ok start
  /-- Then a client finds nothing below the private prefix. -/
  hidden : normalize site.settings.privatePrefix = .ok site.settings.privatePrefix →
    ∀ path, Path.names site.settings.privatePrefix <+: Path.names path →
      ∃ shown, site.resolve path true = .error (.notFound shown)
  /-- Otherwise every path leads a client where it leads from inside, but for the directory that the prefix
  names without the slashes at its end, if there is one. -/
  bare : normalize site.settings.privatePrefix ≠ .ok site.settings.privatePrefix →
    ∀ path, normalize path ≠ .ok (String.ofList (trimSlashes site.settings.privatePrefix.toList)) →
      site.resolve path true = site.resolve path false
  /-- Below a prefix that is its own spelling, a worker is reached if its whole path is its own spelling too,
  provided that no route takes the path and that it is not private. -/
  reached : normalize site.settings.workerPrefix = .ok site.settings.workerPrefix →
    ∀ (name : String) (handler : Handler) (direct : Bool), site.workers[name]? = some handler →
      normalize (site.settings.workerPrefix ++ name) = .ok (site.settings.workerPrefix ++ name) →
      site.routes[site.settings.workerPrefix ++ name]? = none →
      (direct = true → site.isPrivate (site.settings.workerPrefix ++ name) = false) →
      site.resolve (site.settings.workerPrefix ++ name) direct = .ok (.handler handler)
  /-- Otherwise no path leads to a worker, whichever there are. -/
  unreachable : normalize site.settings.workerPrefix ≠ .ok site.settings.workerPrefix →
    ∀ (workers : HandlerTable) (path : String) (direct : Bool),
      ({ site with workers } : Site).resolve path direct = site.resolve path direct

theorem isDirectoryPath_of_validate {settings : Settings} (accepted : settings.validate = .ok ()) :
    ∀ start ∈ [settings.privatePrefix, settings.workerPrefix], Settings.isDirectoryPath start = true := by
  simp only [Settings.validate] at accepted
  split at accepted
  · contradiction
  · split at accepted
    · contradiction
    · next first =>
      split at accepted
      · contradiction
      · next second =>
        simp only [Bool.not_eq_true, Bool.not_eq_false'] at first second
        simp only [List.forall_mem_cons, first, second, List.not_mem_nil, false_imp_iff, implies_true, and_self]

/-- Accepted prefixes do what they are for exactly if no segment inside them is empty, `.` or `..`. -/
theorem prefixEffect_of_validate (site : Site) (accepted : site.settings.validate = .ok ()) :
    site.PrefixEffect := by
  have directories := isDirectoryPath_of_validate accepted
  have isPrivate := directories _ List.mem_cons_self
  have isWorker := directories _ (List.mem_cons_of_mem _ List.mem_cons_self)
  constructor
  case unchanged => exact fun start member => normalize_directory_iff (directories start member)
  case met => exact fun start member => begins_spelling_iff (directories start member)
  case hidden => exact fun own path below => resolve_below_private isPrivate own below
  case bare =>
    exact fun rewritten path other =>
      resolve_beside_private (mt (begins_spelling_iff isPrivate).mp rewritten) other
  case reached =>
    intro _ name handler direct found spelled free visible
    rw [resolve_of_spelling spelled, target_of_worker found free]
    refine if_neg fun guarded => ?_
    obtain ⟨client, hidden⟩ := Bool.and_eq_true_iff.mp guarded
    exact Bool.false_ne_true ((visible client).symm.trans hidden)
  case unreachable =>
    exact fun rewritten => resolve_beside_workers (mt (begins_spelling_iff isWorker).mp rewritten)

/-- A private prefix of two names, and a worker whose name spans two segments. -/
theorem prefixEffect_of_validate_nested :
    let worker : Handler := .ofActions [.writeText "x"]
    let site := ({ settings := { privatePrefix := "/a/b/" } } : Site).worker "x/y" worker
    site.settings.validate = .ok () ∧
      (∃ shown, site.resolve "//a/./b/c" true = .error (.notFound shown)) ∧
      site.resolve "/workers/x/y" true = .ok (.handler worker) := by
  intro worker site
  have accepted : site.settings.validate = .ok () := by decide +kernel
  have effect : site.PrefixEffect := prefixEffect_of_validate site accepted
  have found : site.workers["x/y"]? = some worker := Std.ExtTreeMap.getElem?_insert_self
  have free : site.routes["/workers/x/y"]? = none := Std.ExtTreeMap.getElem?_empty
  refine ⟨accepted, effect.hidden (by decide) _ (by decide), ?_⟩
  exact effect.reached (by decide) "x/y" worker true found (by decide) free fun _ => by decide

/-- Prefixes with an empty segment and with a `.` are accepted, and each is spelled otherwise. A client gets a
file below the first one, and the worker below the second one is not found. -/
theorem accepted_prefixes_unmet :
    let settings : Settings := { privatePrefix := "/a//b/", workerPrefix := "/w/./" }
    let files := FileTree.ofList [("www/a/b/s.txt", Text.encode "secret")]
    let site := ({ settings, files } : Site).worker "x" (.ofActions [.writeText "x"])
    settings.validate = .ok () ∧
      normalize settings.privatePrefix = .ok "/a/b/" ∧ normalize settings.workerPrefix = .ok "/w/" ∧
      (site.resolve "/a//b/s.txt" true).map Target.file? = .ok (some "www/a/b/s.txt") ∧
      (site.resolve "/w/./x" true).map Target.file? = .error (.notFound "/w/x") := by
  intro settings files site
  exact ⟨by decide +kernel, by decide, by decide, by decide +kernel, by decide +kernel⟩

end PageServer.Site
