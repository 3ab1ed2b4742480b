import PageServer.Proofs.Site.PrivatePrefix

/-! # One spelling for each path

A request path has one spelling, which its names and a slash at its end decide: `spell_eq`. Divided at
its slashes, a spelling gives these names back (`segments_opened`), so that it is its own spelling
(`normalize_spell`). Guard, handlers and files see no other text, and so they cannot tell two paths of
one spelling apart. `hasOneSpelling` puts this together.
-/

namespace PageServer

namespace Path

/-- The names of a path are neither of the two segments that mean nothing. -/
theorem ne_current_of_mem_names {path : String} {name : List Char} (member : name ∈ names path) :
    name ≠ ['.'] :=
  (of_decide_eq_true (List.mem_filter.mp member).2).2

/-- A name of a path is one of its segments. -/
theorem mem_segments_of_mem_names {path : String} {name : List Char} (member : name ∈ names path) :
    name ∈ segments path :=
  (List.mem_filter.mp member).1

end Path

namespace Site

variable {names : List (List Char)}

/-- Names that can stand between slashes and mean nothing else there. -/
def AreSolid (names : List (List Char)) : Prop :=
  ArePlain names ∧ ['.'] ∉ names ∧ ['.', '.'] ∉ names

theorem areSolid_names {path : String} (inside : ['.', '.'] ∉ Path.segments path) :
    AreSolid (Path.names path) :=
  ⟨fun _ member => Path.name_of_mem_names member,
    fun member => Path.ne_current_of_mem_names member rfl,
    fun member => inside (Path.mem_segments_of_mem_names member)⟩

/-- The parts of a text that goes on with names behind slashes. -/
theorem divide_append_opened {part : List Char} (unslashed : '/' ∉ part)
    (others : ∀ name ∈ names, '/' ∉ name) :
    Text.divide (· == '/') (part ++ opened names) = part :: names := by
  induction names generalizing part with
  | nil =>
    rw [opened, List.flatMap_nil, List.append_nil,
      Text.divide_eq_singleton (Text.unmarked_of_not_mem unslashed)]
  | cons name names ih =>
    obtain ⟨first, rest⟩ := List.forall_mem_cons.mp others
    rw [opened, List.flatMap_cons, List.cons_append,
      Text.divide_append_cons (Text.unmarked_of_not_mem unslashed) rfl]
    exact congrArg (part :: ·) (ih first rest)

/-- Between the slashes of names behind slashes stand these names, behind an empty segment. -/
theorem segments_opened (unslashed : ∀ name ∈ names, '/' ∉ name) :
    Path.segments (String.ofList (opened names)) = [] :: names := by
  rw [Path.segments, String.toList_ofList]
  exact divide_append_opened List.not_mem_nil unslashed

/-- A slash at the end of a spelling opens an empty name. -/
theorem spell_eq_opened (names : List (List Char)) (slash : Bool) :
    spell names slash = String.ofList (opened (names ++ if names = [] ∨ slash then [[]] else [])) := by
  rw [spell, opened, List.flatMap_append]
  split <;> rfl

/-- The spelling of names: a slash, the names joined by slashes, and a slash behind the last name if the
path ends with one. -/
theorem spell_eq (names : List (List Char)) (slash : Bool) :
    spell names slash = String.ofList ('/' :: ['/'].intercalate names ++
      if names ≠ [] ∧ slash then ['/'] else []) := by
  have joined : names ≠ [] → names.flatMap ('/' :: ·) = '/' :: ['/'].intercalate names := by
    induction names with
    | nil => exact fun none => absurd rfl none
    | cons name names ih =>
      intro _
      cases names with
      | nil => simp
      | cons other names => simpa [List.intercalate_cons_cons] using ih
  rw [spell]
  by_cases none : names = []
  · simp [none, List.intercalate]
  · simp only [none, joined none, false_or, ne_eq, not_false_eq_true, true_and]

theorem names_spell (solid : AreSolid names) (slash : Bool) : Path.names (spell names slash) = names := by
  obtain ⟨plain, notCurrent, -⟩ := solid
  have kept : names.filter (fun s => decide (s ≠ [] ∧ s ≠ ['.'])) = names := by
    refine List.filter_eq_self.mpr fun name member => decide_eq_true ⟨(plain name member).1, ?_⟩
    exact fun same => notCurrent (same ▸ member)
  have unslashed : ∀ name ∈ names ++ (if names = [] ∨ slash then [[]] else []), '/' ∉ name := by
    refine List.forall_mem_append.mpr ⟨fun name member => (plain name member).2, ?_⟩
    split <;> simp
  rw [spell_eq_opened, Path.names, segments_opened unslashed, List.filter_cons_of_neg (by simp),
    List.filter_append, kept]
  split <;> simp

theorem endsWithSlash_spell (solid : AreSolid names) (slash : Bool) :
    Path.endsWithSlash (spell names slash) = decide (names = [] ∨ slash) := by
  rw [spell_eq_opened, Path.endsWithSlash, String.toList_ofList]
  split
  · next closed =>
    rw [opened, List.flatMap_append]
    simp [closed]
  · next bare =>
    have last := getLast?_opened solid.1
    simp [bare, last]

/-- A spelling is its own spelling. -/
theorem normalize_spell (solid : AreSolid names) (slash : Bool) :
    normalize (spell names slash) = .ok (spell names slash) := by
  have inside : ['.', '.'] ∉ Path.segments (spell names slash) := by
    intro member
    have kept : ['.', '.'] ∈ Path.names (spell names slash) :=
      List.mem_filter.mpr ⟨member, by decide⟩
    rw [names_spell solid] at kept
    exact solid.2.2 kept
  have same : spell names (decide (names = [] ∨ slash)) = spell names slash := by
    simp only [spell, decide_eq_true_eq, or_self_left]
  rw [normalize, if_neg (by simpa using inside), names_spell solid, endsWithSlash_spell solid, same]

/-- A path without a segment that leads above has a spelling. -/
theorem normalize_eq_ok {path : String} (inside : ['.', '.'] ∉ Path.segments path) :
    normalize path = .ok (spell (Path.names path) (Path.endsWithSlash path)) := by
  rw [normalize, if_neg (by simpa using inside)]

theorem normalize_eq_ok_iff {path text : String} : normalize path = .ok text ↔
    ['.', '.'] ∉ Path.segments path ∧ text = spell (Path.names path) (Path.endsWithSlash path) := by
  rw [normalize]
  split
  · next above => simpa using fun outside => absurd (List.contains_iff_mem.mp above) outside
  · next inside => simpa [eq_comm] using fun _ => inside

/-- A path with a segment that leads above is not found. -/
theorem normalize_eq_error {path : String} (above : ['.', '.'] ∈ Path.segments path) :
    normalize path = .error (.notFound path) := by
  rw [normalize, if_pos (by simpa using above)]

example : normalize ".//a/./b.c/" = .ok "/a/b.c/" := by decide

variable {site : Site}

theorem resolve_of_spelling {path text : String} (spelled : normalize path = .ok text) (direct : Bool) :
    site.resolve path direct =
      if direct && site.isPrivate text then .error (.notFound text) else site.target text := by
  rw [resolve, spelled]
  rfl

theorem resolve_eq_error {path : String} (above : ['.', '.'] ∈ Path.segments path) (direct : Bool) :
    site.resolve path direct = .error (.notFound path) := by
  rw [resolve, normalize_eq_error above]
  rfl

/-- What a path leads to is the target of its spelling. -/
theorem target_of_resolve {path : String} {goal : Target} {direct : Bool}
    (resolved : site.resolve path direct = .ok goal) :
    ∃ text, normalize path = .ok text ∧ site.target text = .ok goal := by
  cases spelled : normalize path with
  | error e =>
    rw [resolve, spelled] at resolved
    contradiction
  | ok text =>
    rw [resolve_of_spelling spelled] at resolved
    split at resolved
    · contradiction
    · exact ⟨text, rfl, resolved⟩

/-- A route that is registered catches exactly its own spelling. -/
theorem target_route (site : Site) (route : String) (handler : Handler) (text : String) :
    (site.route route handler).target text =
      if text = route then .ok (.handler handler) else site.target text := by
  simp only [target, Site.route, Std.ExtTreeMap.getElem?_insert, Std.LawfulEqCmp.compare_eq_iff_eq]
  by_cases same : route = text
  · simp only [same, ↓reduceIte]
  · simp only [same, Ne.symm same, ↓reduceIte]
    rfl

theorem target_of_route {route : String} {handler : Handler} (found : site.routes[route]? = some handler) :
    site.target route = .ok (.handler handler) := by
  simp only [target, found]

theorem fileTarget_ne_handler (site : Site) (file : String) (handler : Handler) :
    site.fileTarget file ≠ .handler handler := by
  rw [fileTarget]
  split <;> exact nofun

/-- A target is a handler that is registered, or a file that was located. -/
theorem target_cases {text : String} {goal : Target} (leads : site.target text = .ok goal) :
    (∃ handler, goal = .handler handler ∧ (site.routes[text]? = some handler ∨
      ∃ name : String, site.workers[name]? = some handler)) ∨
    ∃ file, goal = site.fileTarget file ∧ site.locate text = .ok file := by
  simp only [target] at leads
  split at leads
  · next handler found =>
    cases leads
    exact .inl ⟨handler, rfl, .inl found⟩
  · split at leads
    · next name _ =>
      split at leads
      · next handler found =>
        cases leads
        exact .inl ⟨handler, rfl, .inr ⟨name, found⟩⟩
      · contradiction
    · cases located : site.locate text with
      | error e =>
        rw [located] at leads
        contradiction
      | ok file =>
        rw [located] at leads
        cases leads
        exact .inr ⟨file, rfl, rfl⟩

/-- A handler is the target of nothing but the routes and names that it is registered for. -/
theorem registered_of_target {text : String} {handler : Handler}
    (leads : site.target text = .ok (.handler handler)) :
    site.routes[text]? = some handler ∨ ∃ name : String, site.workers[name]? = some handler := by
  rcases target_cases leads with ⟨_, same, registered⟩ | ⟨file, same, _⟩
  · cases same
    exact registered
  · exact absurd same.symm (fileTarget_ne_handler site file handler)

/-- What a path and its spelling have to do with each other at a site. -/
structure HasOneSpelling (site : Site) (path : String) : Prop where
  /-- The path is not found exactly if one of its segments leads above. -/
  above : normalize path = .error (.notFound path) ↔ ['.', '.'] ∈ Path.segments path
  /-- Any other path has one spelling: its names, joined by slashes behind a slash, and a last slash exactly
  if the path has one and there are names. A spelling is its own spelling. -/
  spelled : ['.', '.'] ∉ Path.segments path → ∃ text, normalize path = .ok text ∧
    text = String.ofList ('/' :: ['/'].intercalate (Path.names path) ++
      if Path.names path ≠ [] ∧ Path.endsWithSlash path then ['/'] else []) ∧
    normalize text = .ok text
  /-- Paths of the same names that end alike lead to the same target, or fail alike. -/
  alike : ∀ (other : String) (direct : Bool), ['.', '.'] ∉ Path.segments path →
    ['.', '.'] ∉ Path.segments other → Path.names path = Path.names other →
    Path.endsWithSlash path = Path.endsWithSlash other →
    site.resolve path direct = site.resolve other direct
  /-- A handler that is registered for a route is the target if the route is the spelling of the path, and
  else it does not matter. -/
  routed : ∀ (route : String) (handler : Handler),
    (normalize path = .ok route →
      (site.route route handler).resolve path false = .ok (.handler handler)) ∧
    (normalize path ≠ .ok route →
      (site.route route handler).resolve path false = site.resolve path false)
  /-- A handler that is registered for one route and nowhere else is the target exactly if the route is the
  spelling of the path. -/
  routedOnly : ∀ (route : String) (handler : Handler), site.routes[route]? = some handler →
    (∀ other : String, site.routes[other]? = some handler → other = route) →
    (∀ name : String, site.workers[name]? ≠ some handler) →
    (site.resolve path false = .ok (.handler handler) ↔ normalize path = .ok route)

/-- Every path has at most one spelling, and what it leads to depends on nothing else. -/
theorem hasOneSpelling (site : Site) (path : String) : site.HasOneSpelling path := by
  constructor
  case above =>
    refine ⟨fun refused => ?_, normalize_eq_error⟩
    by_contra inside
    rw [normalize_eq_ok inside] at refused
    contradiction
  case spelled =>
    intro inside
    exact ⟨_, normalize_eq_ok inside, spell_eq _ _, normalize_spell (areSolid_names inside) _⟩
  case alike =>
    intro other direct inside insideToo sameNames sameEnd
    rw [resolve_of_spelling (normalize_eq_ok inside), resolve_of_spelling (normalize_eq_ok insideToo),
      sameNames, sameEnd]
  case routed =>
    intro route handler
    cases spelled : normalize path with
    | error e => exact ⟨nofun, fun _ => by simp only [resolve, spelled]; rfl⟩
    | ok text =>
      simp only [resolve_of_spelling spelled, Bool.false_and, Bool.false_eq_true, ↓reduceIte,
        target_route]
      exact ⟨fun same => if_pos (Except.ok.inj same), fun other => if_neg (mt (congrArg Except.ok) other)⟩
  case routedOnly =>
    intro route handler found only unnamed
    cases spelled : normalize path with
    | error e =>
      have failed : site.resolve path false = .error e := by
        rw [resolve, spelled]
        rfl
      simp only [failed, reduceCtorEq]
    | ok text =>
      rw [resolve_of_spelling spelled, Bool.false_and, if_neg Bool.false_ne_true, Except.ok.injEq]
      constructor
      · intro leads
        rcases registered_of_target leads with routed | ⟨name, named⟩
        · exact only text routed
        · exact absurd named (unnamed name)
      · rintro rfl
        exact target_of_route found

/-- A handler whose route is the one spelling of two paths. -/
theorem hasOneSpelling_route :
    let handler : Handler := .ofActions [.writeText "x"]
    let site := ({} : Site).route "/a/b/" handler
    normalize ".//a/./b/" = .ok "/a/b/" ∧ normalize "/a/b/" = .ok "/a/b/" ∧
      site.resolve ".//a/./b/" true = site.resolve "a//b/" true ∧
      site.resolve ".//a/./b/" false = .ok (.handler handler) ∧
      site.resolve "/a/b" false ≠ .ok (.handler handler) ∧
      normalize "/a/../b" = .error (.notFound "/a/../b") := by
  intro handler site
  have dotted := hasOneSpelling site ".//a/./b/"
  have bare := hasOneSpelling site "/a/b"
  have found : site.routes["/a/b/"]? = some handler := Std.ExtTreeMap.getElem?_insert_self
  have only : ∀ other : String, site.routes[other]? = some handler → other = "/a/b/" := by
    intro other registered
    by_contra distinct
    have none : site.routes[other]? = none := by
      simp only [site, Site.route, Std.ExtTreeMap.getElem?_insert, Std.LawfulEqCmp.compare_eq_iff_eq,
        Ne.symm distinct, ↓reduceIte, Std.ExtTreeMap.getElem?_empty]
    rw [none] at registered
    contradiction
  have unnamed : ∀ name : String, site.workers[name]? ≠ some handler := by
    intro name
    have none : site.workers[name]? = none := Std.ExtTreeMap.getElem?_empty
    rw [none]
    exact nofun
  obtain ⟨text, spelled, rfl, again⟩ := dotted.spelled (by decide)
  have whole : normalize ".//a/./b/" = .ok "/a/b/" := by decide
  rw [whole, Except.ok.injEq] at spelled
  exact ⟨whole, spelled ▸ again, dotted.alike "a//b/" true (by decide) (by decide) (by decide) (by decide),
    (dotted.routedOnly "/a/b/" handler found only unnamed).mpr whole,
    fun leads => absurd ((bare.routedOnly "/a/b/" handler found only unnamed).mp leads) (by decide),
    (hasOneSpelling site "/a/../b").above.mpr (by decide)⟩

end Site

end PageServer
