import PageServer.Http.Cookie
import PageServer.Proofs.Http.Returning

/-! # Cookies that are read back

A cookie is written with its value between quotes as it is, and read by taking a line apart at every
semicolon, each item at its first equals sign, and the quotes off. So a client that sends the pair back, with
blanks around it and behind items of other names, names the value again, whatever the value holds but a
semicolon (`cookie?_of_stored`). Only the first line of cookies counts.
-/

namespace PageServer.Http

open Text (trim cut isBlank sameIgnoringCase Blanks)

namespace Cookie

/-- A cookie that can be told from the items around it. -/
structure Storable (c : Cookie) : Prop where
  trimmed : trim c.name.toList = c.name.toList
  unmarked : '=' ∉ c.name.toList
  wholeName : ';' ∉ c.name.toList
  wholeValue : ';' ∉ c.value.toList

theorem toList_pair (c : Cookie) :
    c.pair.toList = c.name.toList ++ '=' :: ('"' :: c.value.toList ++ ['"']) := by
  simp [pair]

/-- The rendering up to its first semicolon is what names the cookie. -/
theorem takeWhile_render {c : Cookie} (storable : c.Storable) :
    c.render.toList.takeWhile (· != ';') = c.pair.toList := by
  have whole : ∀ d ∈ c.pair.toList, (d != ';') = true := by
    intro d member
    rw [bne_iff_ne]
    rintro rfl
    simp only [toList_pair, List.cons_append, List.mem_append, List.mem_cons, List.not_mem_nil,
      or_false, storable.wholeName, storable.wholeValue, false_or] at member
    revert member
    decide
  have ends : (String.join (c.attributes.map ("; " ++ ·))).toList.takeWhile (· != ';') = [] := by
    cases c.attributes with
    | nil => rfl
    | cons first rest => simp [String.join_cons]
  rw [render, String.toList_append, List.takeWhile_append_of_pos whole, ends, List.append_nil]

end Cookie

namespace RequestHead

/-- The first header line with this name. -/
def IsFirst (head : RequestHead) (name line : String) : Prop :=
  ∃ before key after, head.headers = before ++ (key, line) :: after ∧
    sameIgnoringCase key.toList name.toList = true ∧
    ∀ header ∈ before, sameIgnoringCase header.1.toList name.toList = false

theorem header?_of_isFirst {head : RequestHead} {name line : String} (first : head.IsFirst name line) :
    head.header? name = some line := by
  obtain ⟨before, key, after, headers, named, others⟩ := first
  have none : before.find? (fun h => sameIgnoringCase h.1.toList name.toList) = none :=
    List.find?_eq_none.mpr fun header member => Bool.eq_false_iff.mp (others header member)
  rw [header?, headers, List.find?_append, none, Option.none_or, List.find?_cons, named, Option.map_some]

/-- Names that are the same but for their case have the same value. -/
theorem cookieValue?_congr {asked name : String} (same : sameIgnoringCase asked.toList name.toList = true) :
    cookieValue? asked = cookieValue? name := by
  have alike (key : List Char) : sameIgnoringCase key asked.toList = sameIgnoringCase key name.toList := by
    rw [sameIgnoringCase, Text.sameIgnoringCase_iff.mp same, sameIgnoringCase]
  funext item
  simp only [cookieValue?, alike]

/-- The pair of a cookie names its value again. -/
theorem cookieValue?_pair {c : Cookie} (storable : c.Storable) {front back : List Char}
    (blankFront : Blanks front) (blankBack : Blanks back) :
    cookieValue? c.name (front ++ c.pair.toList ++ back) = some c.value := by
  have split : front ++ c.pair.toList ++ back =
      (front ++ c.name.toList) ++ '=' :: (('"' :: c.value.toList ++ ['"']) ++ back) := by
    simp [Cookie.toList_pair]
  have unmarked : '=' ∉ front ++ c.name.toList := by
    rw [List.mem_append, not_or]
    exact ⟨blankFront.not_mem (by decide), storable.unmarked⟩
  have key : trim (front ++ c.name.toList) = c.name.toList := by
    rw [Text.trim_append_of_blank blankFront, storable.trimmed]
  have value : trim (('"' :: c.value.toList ++ ['"']) ++ back) = '"' :: c.value.toList ++ ['"'] := by
    rw [Text.trim_append_of_blank_end _ blankBack, Text.trim_of_solid_ends (by decide) (by decide)]
  rw [cookieValue?, split, Text.cut_append_cons unmarked, Option.bind_some]
  simp only [key, Text.sameIgnoringCase_self, ↓reduceIte, value, Text.unquote_quotes,
    String.ofList_toList]

/-- An item that names no value has another name. -/
theorem isOther_of_cookieValue? {name : String} {item : List Char} (whole : ';' ∉ item)
    (nothing : cookieValue? name item = none) : IsOther name item := by
  refine ⟨whole, fun key value unmarked same => ?_⟩
  rw [cookieValue?, same, Text.cut_append_cons unmarked, Option.bind_some, ite_eq_right_iff] at nothing
  refine Bool.eq_false_iff.mpr fun named => ?_
  have value := nothing named
  contradiction

/-- The cookies of a line are looked for item by item. -/
theorem cookie?_of_isFirst {head : RequestHead} {line asked : String} (first : head.IsFirst "Cookie" line)
    {items : List (List Char)} (whole : ∀ item ∈ items, ';' ∉ item)
    (joined : line.toList = [';'].intercalate items) :
    head.cookie? asked = items.findSome? (cookieValue? asked) := by
  rw [cookie?, header?_of_isFirst first, Option.bind_some, joined]
  by_cases empty : items = []
  · rw [empty]
    rfl
  · rw [Text.divide_intercalate empty whole]

/-- A stored cookie is read back from the first line of cookies, if the items before it have other names,
and it is not found if all items have other names. -/
theorem cookie?_of_stored {c : Cookie} (storable : c.Storable) {head : RequestHead}
    {line asked : String} (first : head.IsFirst "Cookie" line)
    (same : sameIgnoringCase asked.toList c.name.toList = true) {items : List (List Char)}
    (whole : ∀ item ∈ items, ';' ∉ item) (joined : line.toList = [';'].intercalate items) :
    (∀ earlier front back later,
      items = earlier ++ (front ++ c.render.toList.takeWhile (· != ';') ++ back) :: later →
      (∀ item ∈ earlier, IsOther c.name item) → Blanks front → Blanks back →
      head.cookie? asked = some c.value) ∧
    ((∀ item ∈ items, IsOther c.name item) → head.cookie? asked = none) := by
  have found : head.cookie? asked = items.findSome? (cookieValue? c.name) := by
    rw [cookie?_of_isFirst first whole joined, cookieValue?_congr same]
  have passed {others : List (List Char)} (other : ∀ item ∈ others, IsOther c.name item) :
      others.findSome? (cookieValue? c.name) = none :=
    List.findSome?_eq_none_iff.mpr fun item member => cookieValue?_of_isOther (other item member)
  constructor
  · rintro earlier front back later rfl other blankFront blankBack
    rw [found, Cookie.takeWhile_render storable, List.findSome?_append, passed other, Option.none_or,
      List.findSome?_cons, cookieValue?_pair storable blankFront blankBack]
  · intro other
    rw [found, passed other]

/-- A value with quotes, an equals sign and outer blanks is read back from between items with another name
and one with the same name, and a line without the name hides the line behind it. -/
theorem cookie?_of_stored_quotes :
    let c : Cookie := { name := "Sid", value := " a=\"b\" ", path := some "/" }
    let others : List (List Char) := ["theme".toList, " side = 1 ".toList]
    let later : List (List Char) := ["sid=\"late\"".toList]
    let head (line : String) : RequestHead :=
      ⟨"GET", "/", "HTTP/1.1", [("Host", "a"), ("cookie", line), ("Cookie", "sid=later")]⟩
    let full := "theme; side = 1 ; Sid=\" a=\"b\" \"\t;sid=\"late\""
    c.render = "Sid=\" a=\"b\" \"; Path=/" ∧ c.Storable ∧
      full.toList = [';'].intercalate (others ++ (" ".toList ++ c.pair.toList ++ "\t".toList) :: later) ∧
      (∀ item ∈ others, IsOther c.name item) ∧ (head full).cookie? "sID" = some " a=\"b\" " ∧
      (head "theme; side = 1 ").cookie? "sID" = none := by
  intro c others later head full
  have storable : c.Storable := ⟨by decide, by decide, by decide, by decide⟩
  have same : sameIgnoringCase "sID".toList c.name.toList = true := by decide
  have first (line : String) : (head line).IsFirst "Cookie" line :=
    ⟨[("Host", "a")], "cookie", [("Cookie", "sid=later")], rfl, by decide, by decide⟩
  have nothing : ∀ item ∈ others, ';' ∉ item ∧ cookieValue? c.name item = none := by decide
  have other : ∀ item ∈ others, IsOther c.name item := fun item member =>
    isOther_of_cookieValue? (nothing item member).1 (nothing item member).2
  have joined : full.toList =
      [';'].intercalate (others ++ (" ".toList ++ c.pair.toList ++ "\t".toList) :: later) := by
    decide
  refine ⟨by decide, storable, joined, other, ?_, ?_⟩
  · refine (cookie?_of_stored storable (first full) same ?_ joined).1 others " ".toList "\t".toList later
      ?_ other (List.all_eq_true.mp (by decide)) (List.all_eq_true.mp (by decide))
    · decide
    · rw [Cookie.takeWhile_render storable]
  · refine (cookie?_of_stored storable (first _) same (fun item member => (nothing item member).1) ?_).2
      other
    decide

end RequestHead

end PageServer.Http
