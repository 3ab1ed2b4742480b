import PageServer.Http.Request
import PageServer.Proofs.Text.Parts

/-! # What a client may make of a host and of a cookie

A client that comes back names the host again, in any case and with or without a port, and sends its
cookies again, in one line and with blanks and quotes as it likes. The host and the value that are read
off its head are still the ones that it was given (`host_of_spells`, `cookie?_of_carries`).
-/

namespace PageServer.Http.RequestHead

open Text (lower trim cut isBlank sameIgnoringCase Blanks IsWord)

/-- The host is a name or an address in brackets, so that a port can be told from it. -/
def Plain (host : List Char) : Prop :=
  host ≠ [] ∧ (':' ∉ host ∧ host.head? ≠ some '[' ∨
    ∃ address, ']' ∉ address ∧ host = '[' :: address ++ [']'])

/-- A numeric port, or none. -/
def IsPort (port : List Char) : Prop :=
  port = [] ∨ ∃ digits : List Char, digits.all Char.isDigit = true ∧ port = ':' :: digits

/-- The text names the host, in any case and perhaps with a port. -/
def Spells (host text : List Char) : Prop :=
  ∃ name port, sameIgnoringCase name host = true ∧ IsPort port ∧ text = name ++ port

theorem stripPort_of_name {name port : List Char} (nonempty : name ≠ []) (noMark : ':' ∉ name)
    (noBracket : name.head? ≠ some '[') (isPort : IsPort port) : stripPort (name ++ port) = name := by
  have start : (name ++ port).head? ≠ some '[' := by
    cases name with
    | nil => contradiction
    | cons c rest => exact noBracket
  rw [stripPort, if_neg start]
  rcases isPort with rfl | ⟨digits, numeric, rfl⟩
  · rw [List.append_nil, Text.cutLast_eq_none noMark]
  · have noMarkBehind : ':' ∉ digits := fun member =>
      absurd (List.all_eq_true.mp numeric ':' member) (by decide)
    rw [Text.cutLast_append_cons noMarkBehind]
    exact if_pos numeric

theorem stripPort_of_brackets {address : List Char} (closed : ']' ∉ address) (port : List Char) :
    stripPort ('[' :: address ++ [']'] ++ port) = '[' :: address ++ [']'] := by
  have apart : ']' ∉ '[' :: address := by
    rw [List.mem_cons, not_or]
    exact ⟨by decide, closed⟩
  have whole : '[' :: address ++ [']'] ++ port = '[' :: address ++ ']' :: port := by simp
  have found := Text.cut_append_cons apart port
  have start : ('[' :: address ++ ']' :: port).head? = some '[' := rfl
  rw [whole, stripPort, if_pos start, found]

/-- In another case, brackets are still brackets. -/
theorem brackets_of_lower_eq {name address : List Char} (closed : ']' ∉ address)
    (same : lower name = '[' :: address ++ [']']) :
    ∃ inner, ']' ∉ inner ∧ name = '[' :: inner ++ [']'] := by
  obtain ⟨front, back, rfl, left, right⟩ := List.map_eq_append_iff.mp same
  obtain ⟨first, inner, rfl, opens, rest⟩ := List.map_eq_cons_iff.mp left
  obtain ⟨last, none, rfl, closes, empty⟩ := List.map_eq_cons_iff.mp right
  obtain rfl := List.map_eq_nil_iff.mp empty
  obtain rfl := Text.eq_of_toLower_eq opens (by decide)
  obtain rfl := Text.eq_of_toLower_eq closes (by decide)
  refine ⟨inner, ?_, rfl⟩
  rw [← rest] at closed
  exact fun member => closed ((Text.mem_lower_iff (by decide) (by decide)).mpr member)

/-- However a plain host in lower case is spelled, it is the same host. -/
theorem lower_stripPort_of_spells {host text : List Char} (plain : Plain host)
    (lowered : lower host = host) (spells : Spells host text) : lower (stripPort text) = host := by
  obtain ⟨name, port, same, isPort, rfl⟩ := spells
  have spelled : lower name = host := (Text.sameIgnoringCase_iff.mp same).trans lowered
  obtain ⟨nonempty, ⟨noMark, noBracket⟩ | ⟨address, closed, rfl⟩⟩ := plain
  · have present : name ≠ [] := by
      rintro rfl
      exact nonempty spelled.symm
    have noMarkToo : ':' ∉ name := by
      rwa [← spelled, Text.mem_lower_iff (by decide) (by decide)] at noMark
    have noBracketToo : name.head? ≠ some '[' := by
      intro opens
      rw [← spelled, lower, List.head?_map, opens] at noBracket
      exact noBracket rfl
    rw [stripPort_of_name present noMarkToo noBracketToo isPort, spelled]
  · obtain ⟨inner, closedToo, rfl⟩ := brackets_of_lower_eq closed spelled
    rw [stripPort_of_brackets closedToo, spelled]

/-- The host of a head whose header names a plain host. -/
theorem host_of_spells {head : RequestHead} {host value : String} (plain : Plain host.toList)
    (lowered : lower host.toList = host.toList) (header : head.header? "Host" = some value)
    (spells : Spells host.toList (trim value.toList)) (default : String) : head.host default = host := by
  have present : trim value.toList ≠ [] := by
    intro empty
    have stripped := lower_stripPort_of_spells plain lowered spells
    rw [empty] at stripped
    exact plain.1 stripped.symm
  have same := lower_stripPort_of_spells plain lowered spells
  have kept : ((head.header? "Host").map fun h => trim h.toList).filter (· ≠ []) =
      some (trim value.toList) := by
    rw [header, Option.map_some, Option.filter_some, if_pos (decide_eq_true present)]
  rw [RequestHead.host, kept]
  dsimp only
  rw [same, String.ofList_toList]

/-- The item is no pair with this name. -/
def IsOther (name : String) (item : List Char) : Prop :=
  ';' ∉ item ∧ ∀ key value, '=' ∉ key → item = key ++ '=' :: value →
    sameIgnoringCase (trim key) name.toList = false

/-- The item is a pair of this name and value, with blanks around them and perhaps with quotes. -/
def IsPair (name value : String) (item : List Char) : Prop :=
  ∃ a b c d written, Blanks a ∧ Blanks b ∧ Blanks c ∧ Blanks d ∧
    (written = value.toList ∨ written = '"' :: value.toList ++ ['"']) ∧
    item = a ++ name.toList ++ b ++ '=' :: (c ++ written ++ d)

/-- The line has such a pair, and before it no other pair with the name. -/
def Carries (name value : String) (line : List Char) : Prop :=
  ∃ (earlier : List (List Char)) (pair rest : List Char), (∀ item ∈ earlier, IsOther name item) ∧
    IsPair name value pair ∧ (rest = [] ∨ ∃ more, rest = ';' :: more) ∧
    line = earlier.flatMap (· ++ [';']) ++ (pair ++ rest)

theorem isOther_of_cut {name : String} {item key value : List Char} (whole : ';' ∉ item)
    (found : cut '=' item = some (key, value))
    (other : sameIgnoringCase (trim key) name.toList = false) : IsOther name item := by
  refine ⟨whole, fun key' value' unmarked same => ?_⟩
  have again := Text.cut_append_cons unmarked value'
  rw [← same, found] at again
  cases again
  exact other

theorem unquote_of_word {text : List Char} (word : IsWord text) : Text.unquote text = text := by
  unfold Text.unquote
  split
  · exact absurd (word '"' List.mem_cons_self) (by decide)
  · rfl

theorem cookieValue?_of_isOther {name : String} {item : List Char} (other : IsOther name item) :
    cookieValue? name item = none := by
  rw [cookieValue?]
  cases found : cut '=' item with
  | none => rfl
  | some parts =>
    obtain ⟨key, value⟩ := parts
    have unmarked : '=' ∉ key := by
      intro member
      obtain ⟨front, back, whole⟩ := List.append_of_mem member
      refine Text.not_infix_of_breakOn (List.cons_ne_nil _ _) found ⟨front, back, ?_⟩
      rw [whole, List.append_assoc, List.singleton_append]
    have different := other.2 key value unmarked (Text.cut_eq_some found)
    simp only [Option.bind_some, different, Bool.false_eq_true, ↓reduceIte]

theorem IsPair.not_mem {name value : String} {item : List Char} (pair : IsPair name value item)
    (wordName : IsWord name.toList) (wordValue : IsWord value.toList) : ';' ∉ item := by
  obtain ⟨a, b, c, d, written, blankA, blankB, blankC, blankD, quotes, rfl⟩ := pair
  have noMark : ';' ∉ written := by
    rcases quotes with rfl | rfl
    · exact wordValue.not_mem (by decide)
    · simp only [List.cons_append, List.mem_cons, List.mem_append, List.mem_nil_iff, or_false, not_or]
      exact ⟨by decide, wordValue.not_mem (by decide), by decide⟩
  simp only [List.mem_append, List.mem_cons, not_or]
  exact ⟨⟨⟨blankA.not_mem (by decide), wordName.not_mem (by decide)⟩, blankB.not_mem (by decide)⟩,
    by decide, ⟨blankC.not_mem (by decide), noMark⟩, blankD.not_mem (by decide)⟩

theorem cookieValue?_of_isPair {name value : String} {item : List Char} (wordName : IsWord name.toList)
    (wordValue : IsWord value.toList) (pair : IsPair name value item) :
    cookieValue? name item = some value := by
  obtain ⟨a, b, c, d, written, blankA, blankB, blankC, blankD, quotes, rfl⟩ := pair
  have unmarked : '=' ∉ a ++ name.toList ++ b := by
    simp only [List.mem_append, not_or]
    exact ⟨⟨blankA.not_mem (by decide), wordName.not_mem (by decide)⟩, blankB.not_mem (by decide)⟩
  have key : trim (a ++ name.toList ++ b) = name.toList := Text.trim_between blankA blankB wordName.solid
  have solid : ∀ c ∈ written, isBlank c = false := by
    rcases quotes with rfl | rfl
    · exact wordValue.solid
    · intro c member
      simp only [List.cons_append, List.mem_cons, List.mem_append, List.mem_nil_iff, or_false] at member
      rcases member with rfl | inside | rfl
      · decide
      · exact wordValue.solid c inside
      · decide
  have text : trim (c ++ written ++ d) = written := Text.trim_between blankC blankD solid
  have bare : Text.unquote written = value.toList := by
    rcases quotes with rfl | rfl
    · exact unquote_of_word wordValue
    · exact Text.unquote_quotes value.toList
  rw [cookieValue?, Text.cut_append_cons unmarked, Option.bind_some]
  simp only [key, Text.sameIgnoringCase_self, ↓reduceIte, text, bare, String.ofList_toList]

/-- Items of other names before a line are passed over. -/
theorem findSome?_divide_of_isOther {name : String} {earlier : List (List Char)}
    (other : ∀ item ∈ earlier, IsOther name item) (line : List Char) :
    (Text.divide (· == ';') (earlier.flatMap (· ++ [';']) ++ line)).findSome? (cookieValue? name) =
      (Text.divide (· == ';') line).findSome? (cookieValue? name) := by
  induction earlier with
  | nil => rfl
  | cons item earlier ih =>
    obtain ⟨first, others⟩ := List.forall_mem_cons.mp other
    have unmarked : ∀ c ∈ item, (c == ';') = false := Text.unmarked_of_not_mem first.1
    have whole : (item :: earlier).flatMap (· ++ [';']) ++ line =
        item ++ ';' :: (earlier.flatMap (· ++ [';']) ++ line) := by simp
    rw [whole, Text.divide_append_cons unmarked rfl, List.findSome?_cons_of_isNone]
    · exact ih others
    · rw [cookieValue?_of_isOther first]
      rfl

/-- The value of a cookie on a line that carries it. -/
theorem cookie?_of_carries {head : RequestHead} {name value line : String} (wordName : IsWord name.toList)
    (wordValue : IsWord value.toList) (header : head.header? "Cookie" = some line)
    (carries : Carries name value line.toList) : head.cookie? name = some value := by
  obtain ⟨earlier, pair, rest, other, isPair, ends, same⟩ := carries
  have found := cookieValue?_of_isPair wordName wordValue isPair
  have unmarked : ∀ c ∈ pair, (c == ';') = false :=
    Text.unmarked_of_not_mem (isPair.not_mem wordName wordValue)
  rw [cookie?, header, Option.bind_some, same, findSome?_divide_of_isOther other]
  rcases ends with rfl | ⟨more, rfl⟩
  · rw [List.append_nil, Text.divide_eq_singleton unmarked, List.findSome?_cons, found]
  · rw [Text.divide_append_cons unmarked rfl, List.findSome?_cons, found]

end PageServer.Http.RequestHead
