import PageServer.Site.Basic
import PageServer.Proofs.Text.Parts

/-! # What the private prefix hides

A request path is compared with the private prefix as a text, after it was brought to its one spelling.
Names hold no slash, so both spellings can be read back name by name, and the comparison comes down to
one of names: `isPrivate_spell` for the spelling with and without a slash at its end, and
`resolve_guards_hidden` for every path that a client can send.
-/

namespace PageServer

namespace Path

/-- The names of a path are not empty and hold no slash. -/
theorem name_of_mem_names {path : String} {name : List Char} (member : name ∈ names path) :
    name ≠ [] ∧ '/' ∉ name := by
  obtain ⟨segment, kept⟩ := List.mem_filter.mp member
  have filled : name ≠ [] := (of_decide_eq_true kept).1
  refine ⟨filled, fun slash => ?_⟩
  have unmarked := Text.unmarked_of_mem_divide segment '/' slash
  simp at unmarked

end Path

namespace Site

/-- Names that can stand between slashes. -/
def ArePlain (names : List (List Char)) : Prop :=
  ∀ name ∈ names, name ≠ [] ∧ '/' ∉ name

instance (names : List (List Char)) : Decidable (ArePlain names) :=
  inferInstanceAs (Decidable (∀ name ∈ names, name ≠ [] ∧ '/' ∉ name))

def closed (names : List (List Char)) : List Char :=
  names.flatMap (· ++ ['/'])

def opened (names : List (List Char)) : List Char :=
  names.flatMap ('/' :: ·)

theorem opened_append_slash (names : List (List Char)) :
    opened names ++ ['/'] = '/' :: closed names := by
  induction names with
  | nil => rfl
  | cons name names ih =>
    calc opened (name :: names) ++ ['/']
        = '/' :: (name ++ (opened names ++ ['/'])) := by
          simp only [opened, List.flatMap_cons, List.cons_append, List.append_assoc]
      _ = '/' :: closed (name :: names) := by
          simp only [ih, closed, List.flatMap_cons, List.append_assoc, List.singleton_append]

/-- Two texts that go on behind a slash begin alike exactly if the names before it are the same. -/
theorem append_slash_prefix_iff {first second : List Char} (plainFirst : '/' ∉ first)
    (plainSecond : '/' ∉ second) (rest more : List Char) :
    first ++ '/' :: rest <+: second ++ '/' :: more ↔ first = second ∧ rest <+: more := by
  induction first generalizing second with
  | nil =>
    cases second with
    | nil => simp
    | cons d second =>
      have other : '/' ≠ d := fun same => plainSecond (same ▸ List.mem_cons_self)
      simp [other]
  | cons c first ih =>
    have other : c ≠ '/' := fun same => plainFirst (same ▸ List.mem_cons_self)
    cases second with
    | nil => simp [other]
    | cons d second =>
      have both : first ++ '/' :: rest <+: second ++ '/' :: more ↔ first = second ∧ rest <+: more :=
        ih (fun member => plainFirst (List.mem_cons_of_mem c member))
          (fun member => plainSecond (List.mem_cons_of_mem d member))
      simp only [List.cons_append, List.cons_prefix_cons, both, List.cons.injEq, and_assoc]

/-- Read segment by segment, a text begins another one exactly if its segments do. -/
theorem closed_prefix_iff {hidden names : List (List Char)} (plainHidden : ∀ s ∈ hidden, '/' ∉ s)
    (plainNames : ∀ s ∈ names, '/' ∉ s) : closed hidden <+: closed names ↔ hidden <+: names := by
  induction hidden generalizing names with
  | nil => simp [closed]
  | cons name hidden ih =>
    obtain ⟨first, others⟩ := List.forall_mem_cons.mp plainHidden
    cases names with
    | nil => simp [closed]
    | cons other names =>
      obtain ⟨second, more⟩ := List.forall_mem_cons.mp plainNames
      have same := append_slash_prefix_iff first second (closed hidden) (closed names)
      rw [ih others more] at same
      simpa only [closed, List.flatMap_cons, List.append_assoc, List.singleton_append,
        List.cons_prefix_cons] using same

/-- A spelling that ends with a name does not end with a slash. -/
theorem getLast?_opened {names : List (List Char)} (plain : ArePlain names) :
    (opened names).getLast? ≠ some '/' := by
  intro last
  obtain rfl | ⟨front, name, rfl⟩ := names.eq_nil_or_concat
  · simp [opened] at last
  · obtain ⟨filled, unslashed⟩ := plain name (by simp)
    have ends : (opened (front ++ [name])).getLast? = name.getLast? := by
      simp [opened, List.getLast?_append, List.getLast?_cons, List.getLast?_eq_some_getLast filled]
    rw [List.concat_eq_append, ends] at last
    exact unslashed (List.mem_of_getLast? last)

theorem trimSlashes_append_slash {text : List Char} (last : text.getLast? ≠ some '/') :
    trimSlashes (text ++ ['/']) = text := by
  rw [trimSlashes, List.reverse_append, List.reverse_singleton, List.singleton_append,
    List.dropWhile_cons_of_pos (by rfl)]
  cases backward : text.reverse with
  | nil => simpa using backward.symm
  | cons c rest =>
    have other : (c == '/') = false := by
      rw [← List.head?_reverse, backward] at last
      simpa using last
    rw [List.dropWhile_cons_of_neg (by simp [other]), ← backward, List.reverse_reverse]

variable {site : Site} {hidden names : List (List Char)}

/-- The private prefix is spelled by plain names between slashes. -/
def IsHidden (site : Site) (hidden : List (List Char)) : Prop :=
  ArePlain hidden ∧ site.settings.privatePrefix = String.ofList ('/' :: closed hidden)

/-- As a text, a path below the private prefix starts with it or lacks no more than its last slash. -/
theorem isPrivate_iff (spelled : site.IsHidden hidden) (text : List Char) :
    site.isPrivate (String.ofList text) ↔ opened hidden ++ ['/'] <+: text ∨ text = opened hidden := by
  obtain ⟨plain, spelled⟩ := spelled
  have trimmed := trimSlashes_append_slash (getLast?_opened plain)
  simp only [isPrivate, spelled, String.toList_ofList, ← opened_append_slash, trimmed, Bool.or_eq_true,
    List.isPrefixOf_iff_prefix, beq_iff_eq]

/-- Exactly the paths whose names begin with those of the private prefix lie below it. -/
theorem isPrivate_spell (spelled : site.IsHidden hidden) (plain : ArePlain names) (slash : Bool) :
    site.isPrivate (spell names slash) ↔ hidden <+: names := by
  have begins : opened hidden ++ ['/'] <+: opened names ++ ['/'] ↔ hidden <+: names := by
    rw [opened_append_slash, opened_append_slash, List.cons_prefix_cons,
      closed_prefix_iff (fun s member => (spelled.1 s member).2) fun s member => (plain s member).2]
    simp
  rw [spell, isPrivate_iff spelled, ← begins]
  change opened hidden ++ ['/'] <+: opened names ++ _ ∨ opened names ++ _ = opened hidden ↔ _
  split
  · -- a spelling that ends with a slash is longer than the private directory without one
    refine or_iff_left fun bare => getLast?_opened spelled.1 ?_
    rw [← bare, List.getLast?_concat]
  · -- without a slash at its end, the spelling may be the private directory itself
    rw [List.append_nil, List.prefix_concat_iff, List.append_left_inj, or_comm, eq_comm]

/-- A path below the private prefix is not found by a client, whatever there is, and every other path
leads a client where it leads from inside. -/
theorem resolve_guards_hidden (site : Site) (hidden : List (List Char))
    (spelled : site.IsHidden hidden) (path : String) :
    (hidden <+: Path.names path → ∃ shown, site.resolve path true = .error (.notFound shown)) ∧
      (¬ hidden <+: Path.names path → site.resolve path true = site.resolve path false) := by
  have plain : ArePlain (Path.names path) := fun name member => Path.name_of_mem_names member
  have guarded := isPrivate_spell spelled plain (Path.endsWithSlash path)
  unfold resolve
  cases found : normalize path with
  | error e =>
    have outside : e = .notFound path := by
      simp only [normalize] at found
      split at found
      · cases found
        rfl
      · contradiction
    exact ⟨fun _ => ⟨path, by rw [outside]; rfl⟩, fun _ => rfl⟩
  | ok text =>
    have same : text = spell (Path.names path) (Path.endsWithSlash path) := by
      simp only [normalize] at found
      split at found
      · contradiction
      · cases found
        rfl
    rw [← same] at guarded
    constructor
    · intro below
      exact ⟨text, by simp [bind, Except.bind, guarded.mpr below]⟩
    · intro elsewhere
      have visible : site.isPrivate text = false := Bool.eq_false_iff.mpr (mt guarded.mp elsewhere)
      simp [bind, Except.bind, visible]

/-- Another spelling of a private directory of two levels stays hidden, and a directory whose name only
begins alike is open. -/
theorem resolve_guards_nested :
    let site : Site := { settings := { privatePrefix := "/a/b/" } }
    site.IsHidden [['a'], ['b']] ∧
      (∃ shown, site.resolve "//a/./b" true = .error (.notFound shown)) ∧
      site.resolve "/a/bc/" true = site.resolve "/a/bc/" false := by
  intro site
  have spelled : site.IsHidden [['a'], ['b']] := by
    constructor
    · decide
    · rfl
  have hidden : [['a'], ['b']] <+: Path.names "//a/./b" := by decide
  have visible : ¬ [['a'], ['b']] <+: Path.names "/a/bc/" := by decide
  exact ⟨spelled, (resolve_guards_hidden site _ spelled _).1 hidden,
    (resolve_guards_hidden site _ spelled _).2 visible⟩

end Site

end PageServer
