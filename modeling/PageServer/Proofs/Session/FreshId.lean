import PageServer.Session.Registry
import PageServer.Proofs.Text.Parts
import Mathlib.Data.List.Nodup
import Mathlib.Data.List.Perm.Subperm

/-! # New ids are free

An id for a new session is looked for among the draws, and if these only repeat ids that are taken,
among the numbered ids. The digits of a numbered id give its number back, so that no registry can hold
all of the ids that are tried: whatever is drawn, the id that is found is free.
-/

namespace PageServer

def idValue : List Char → Nat
  | [] => 0
  | letter :: rest => idLetters.idxOf letter + 52 * idValue rest

theorem idxOf_idLetter (n : Nat) : idLetters.idxOf (idLetter n) = n % 52 := by
  have all : ∀ k : Fin 52, idLetters.idxOf (idLetters.getD k.val 'A') = k.val := by decide
  exact all ⟨n % 52, Nat.mod_lt n (by decide)⟩

theorem idValue_idDigits (n : Nat) : idValue (idDigits n) = n := by
  fun_induction idDigits n with
  | case1 n small =>
    rw [idValue, idValue, idxOf_idLetter]
    omega
  | case2 n large ih =>
    rw [idValue, ih, idxOf_idLetter]
    omega

theorem idValue_replicate (count : Nat) : idValue (List.replicate count 'A') = 0 := by
  induction count with
  | zero => rfl
  | succ count ih =>
    have zero : idLetters.idxOf 'A' = 0 := by decide
    simp only [List.replicate_succ, idValue, zero, ih]

/-- The letters that fill up an id count for nothing. -/
theorem idValue_append_replicate (letters : List Char) (count : Nat) :
    idValue (letters ++ List.replicate count 'A') = idValue letters := by
  induction letters with
  | nil => exact idValue_replicate count
  | cons letter letters ih => rw [List.cons_append, idValue, ih, idValue]

theorem numberedId_injective : Function.Injective numberedId := by
  intro m n same
  have letters := List.reverse_injective (String.ofList_injective same)
  have value := congrArg idValue letters
  rwa [idValue_append_replicate, idValue_append_replicate, idValue_idDigits, idValue_idDigits] at value

/-- What has the form of an id consists of letters. -/
theorem isWord_of_isId {id : String} (form : Session.isId id = true) : Text.IsWord id.toList := by
  rw [Session.isId, Bool.and_eq_true] at form
  exact List.all_eq_true.mp form.2

theorem isWord_idDigits (n : Nat) : Text.IsWord (idDigits n) := by
  fun_induction idDigits n with
  | case1 n small => exact List.forall_mem_singleton.mpr (isAlpha_idLetter n)
  | case2 n large ih => exact List.forall_mem_cons.mpr ⟨isAlpha_idLetter n, ih⟩

theorem isWord_numberedId (n : Nat) : Text.IsWord (numberedId n).toList := by
  intro c member
  simp only [numberedId, String.toList_ofList, List.mem_reverse, List.mem_append, List.mem_replicate] at member
  rcases member with digit | ⟨-, rfl⟩
  · exact isWord_idDigits n c digit
  · decide

namespace SessionRegistry

/-- More ids than there are sessions are not all taken. -/
theorem exists_numberedId_free (r : SessionRegistry) :
    ∃ n < r.live.size + 1, r.live.contains (numberedId n) = false := by
  by_contra taken
  have inside : (List.range (r.live.size + 1)).map numberedId ⊆ r.live.keys := by
    intro id member
    obtain ⟨n, bound, rfl⟩ := List.mem_map.mp member
    rw [Std.ExtTreeMap.mem_keys, ← Std.ExtTreeMap.contains_iff_mem]
    by_contra free
    exact taken ⟨n, List.mem_range.mp bound, Bool.eq_false_iff.mpr free⟩
  have distinct : ((List.range (r.live.size + 1)).map numberedId).Nodup :=
    List.Nodup.map numberedId_injective List.nodup_range
  have bound := (distinct.subperm inside).length_le
  rw [List.length_map, List.length_range, Std.ExtTreeMap.length_keys] at bound
  omega

theorem freshDraw?_free {r : SessionRegistry} {id : String} {draws : Nat}
    (found : r.freshDraw? = some (id, draws)) : r.live.contains id = false := by
  obtain ⟨k, -, drawn⟩ := List.exists_of_findSome?_eq_some found
  dsimp only at drawn
  split at drawn
  · contradiction
  · next free =>
    cases drawn
    exact Bool.eq_false_iff.mpr free

/-- No session has the id that is found for a new one, whatever is drawn. -/
theorem freshId_free (r : SessionRegistry) : r.live.contains r.freshId.1 = false := by
  rw [freshId]
  cases drawn : r.freshDraw? with
  | some found => exact freshDraw?_free drawn
  | none =>
    obtain ⟨n, bound, free⟩ := r.exists_numberedId_free
    rw [Option.getD_none]
    cases found : ((List.range (r.live.size + 1)).map numberedId).find? (!r.live.contains ·) with
    | some id => simpa using List.find?_some found
    | none =>
      have member : numberedId n ∈ (List.range (r.live.size + 1)).map numberedId :=
        List.mem_map_of_mem (List.mem_range.mpr bound)
      have taken := List.find?_eq_none.mp found _ member
      simp [free] at taken

/-- A new id consists of letters if all draws do. -/
theorem isWord_freshId {r : SessionRegistry} (words : ∀ n, Text.IsWord (r.draw n).toList) :
    Text.IsWord r.freshId.1.toList := by
  rw [freshId]
  cases drawn : r.freshDraw? with
  | some found =>
    obtain ⟨k, -, same⟩ := List.exists_of_findSome?_eq_some drawn
    dsimp only at same
    split at same
    · contradiction
    · cases same
      exact words _
  | none =>
    rw [Option.getD_none]
    cases found : ((List.range (r.live.size + 1)).map numberedId).find? (!r.live.contains ·) with
    | none => exact List.forall_mem_nil _
    | some id =>
      obtain ⟨n, -, rfl⟩ := List.mem_map.mp (List.mem_of_find?_eq_some found)
      exact isWord_numberedId n

end SessionRegistry

end PageServer
