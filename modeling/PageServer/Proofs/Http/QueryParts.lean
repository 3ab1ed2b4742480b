import PageServer.Http.Request
import PageServer.Proofs.Text.Parts

/-! # The parameters of a query

Storing pairs leaves each key with the value of its last pair (`Scope.getElem?_store`), and the pairs of two
queries between which an ampersand stands are those of the first and then those of the second. So the second
overwrites the first, and a query that was written from pairs says what they say.
-/

namespace PageServer

/-- A key has the value of its last pair, or else the value that it had before. -/
theorem Scope.getElem?_store (scope : Scope) (pairs : List (String × String)) (key : String) :
    (scope.store pairs)[key]? = (pairs.reverse.lookup key).or scope[key]? := by
  induction pairs generalizing scope with
  | nil => rfl
  | cons pair pairs ih =>
    have stored : scope.store (pair :: pairs) = Scope.store (scope.insert pair.1 pair.2) pairs := rfl
    rw [stored, ih, List.reverse_cons, List.lookup_append, Option.or_assoc,
      Std.ExtTreeMap.getElem?_insert, List.lookup_cons, List.lookup_nil]
    by_cases same : pair.1 = key
    · simp [same]
    · have differ : (key == pair.1) = false := beq_eq_false_iff_ne.mpr (Ne.symm same)
      simp [same, differ]

namespace Http

theorem getElem?_parseQuery (query key : String) :
    (parseQuery query)[key]? = (queryPairs query).reverse.lookup key := by
  rw [parseQuery, Scope.ofPairs, Scope.getElem?_store, Std.ExtTreeMap.getElem?_empty, Option.or_none]

theorem queryPairs_append (a b : String) :
    queryPairs (a ++ "&" ++ b) = queryPairs a ++ queryPairs b := by
  have chars : (a ++ "&" ++ b).toList = a.toList ++ '&' :: b.toList := by
    simp
  rw [queryPairs, chars, Text.divide_append_mark (p := (· == '&')) (beq_self_eq_true '&'),
    List.filter_append, List.map_append, queryPairs, queryPairs]

/-- A query behind another overwrites what that one says. -/
theorem getElem?_parseQuery_append (a b key : String) :
    (parseQuery (a ++ "&" ++ b))[key]? = (parseQuery b)[key]?.or (parseQuery a)[key]? := by
  simp only [getElem?_parseQuery, queryPairs_append, List.reverse_append, List.lookup_append]

def pairText (pair : String × String) : String :=
  pair.1 ++ "=" ++ pair.2

def queryText (pairs : List (String × String)) : String :=
  "&".intercalate (pairs.map pairText)

/-- A pair that can be told from its text: the key ends at the first equals sign and the value at the next
ampersand. -/
structure IsWritable (pair : String × String) : Prop where
  key : '&' ∉ pair.1.toList ∧ '=' ∉ pair.1.toList
  value : '&' ∉ pair.2.toList

theorem toList_pairText (pair : String × String) :
    (pairText pair).toList = pair.1.toList ++ '=' :: pair.2.toList := by
  simp [pairText]

theorem pairOf_pairText {pair : String × String} (writable : IsWritable pair) :
    pairOf (pairText pair).toList = pair := by
  rw [pairOf, toList_pairText, Text.cut_append_cons writable.key.2, Option.getD_some]
  dsimp only
  rw [String.ofList_toList, String.ofList_toList]

theorem queryPairs_queryText {pairs : List (String × String)} (writable : ∀ pair ∈ pairs, IsWritable pair) :
    queryPairs (queryText pairs) = pairs := by
  by_cases empty : pairs = []
  · subst empty
    rfl
  · have parts : Text.divide (· == '&') (queryText pairs).toList =
        pairs.map fun pair => (pairText pair).toList := by
      have chars : (queryText pairs).toList = ['&'].intercalate (pairs.map fun pair => (pairText pair).toList) := by
        rw [queryText, String.toList_intercalate, List.map_map]
        rfl
      rw [chars]
      refine Text.divide_intercalate (by simpa using empty) (List.forall_mem_map.mpr fun pair member => ?_)
      obtain ⟨key, value⟩ := writable pair member
      simp [toList_pairText, key.1, value]
    have filled : ∀ part ∈ pairs.map fun pair => (pairText pair).toList, part ≠ [] :=
      List.forall_mem_map.mpr fun pair _ => by simp [toList_pairText]
    rw [queryPairs, parts, List.filter_eq_self.mpr (by simpa using filled), List.map_map]
    calc pairs.map (pairOf ∘ fun pair => (pairText pair).toList)
        = pairs.map id := List.map_congr_left fun pair member => pairOf_pairText (writable pair member)
      _ = pairs := List.map_id pairs

/-- A written query gives each key the value of its last pair, and has no other key. -/
theorem getElem?_parseQuery_queryText {pairs : List (String × String)}
    (writable : ∀ pair ∈ pairs, IsWritable pair) (key : String) :
    (parseQuery (queryText pairs))[key]? = pairs.reverse.lookup key := by
  rw [getElem?_parseQuery, queryPairs_queryText writable]

example : parseQuery "b=2&&a&b=1=?" = Scope.ofPairs [("a", ""), ("b", "1=?")] := by decide +kernel

theorem splitTarget_question {path : String} (plain : '?' ∉ path.toList) (text : String) :
    splitTarget (path ++ "?" ++ text) = (path, some text) := by
  have chars : (path ++ "?" ++ text).toList = path.toList ++ '?' :: text.toList := by
    simp
  rw [splitTarget, chars, Text.cut_append_cons plain]
  dsimp only
  rw [String.ofList_toList, String.ofList_toList]

namespace RequestHead

variable {head : RequestHead} {path text : String}

/-- Behind a path and a question mark stands the query. -/
theorem path_and_parameters (plain : '?' ∉ path.toList) (target : head.target = path ++ "?" ++ text) :
    head.path = path ∧ head.parameters = parseQuery text := by
  have parts := splitTarget_question plain text
  rw [RequestHead.path, RequestHead.parameters, RequestHead.query?, target, parts]
  exact ⟨rfl, rfl⟩

end RequestHead

end Http

end PageServer
