import PageServer.Session.Record

/-! # Session ids

Whoever holds the id of a session can use it, so ids are drawn such that nobody can guess them: the
letters of the draws follow from a seed, and look unrelated to each other to those who do not know the
seed. The numbered ids are all different, and serve where draws repeat themselves.
-/

namespace PageServer

/-- The letters of an id, in the order of their value as digits. -/
def idLetters : List Char :=
  "ABCDEFGHIJKLMNOPQRSTUVWXYZabcdefghijklmnopqrstuvwxyz".toList

/-- The letter for a number, which is reduced to the number of letters. -/
def idLetter (n : Nat) : Char :=
  idLetters.getD (n % 52) 'A'

theorem isAlpha_idLetter (n : Nat) : (idLetter n).isAlpha = true := by
  have all : ∀ k : Fin 52, (idLetters.getD k.val 'A').isAlpha = true := by decide
  exact all ⟨n % 52, Nat.mod_lt n (by decide)⟩

/-- The digits of a number to the base 52, the last one first. -/
def idDigits (n : Nat) : List Char :=
  if n < 52 then [idLetter n] else idLetter n :: idDigits (n / 52)
termination_by n
decreasing_by omega

def numberedId (n : Nat) : String :=
  let ds := idDigits n
  String.ofList (ds ++ List.replicate (Session.idLength - ds.length) 'A').reverse

/-- Mixes the bits of a word, so that words next to each other end up far apart. -/
def scramble (word : UInt64) : UInt64 :=
  let word := (word ^^^ (word >>> 30)) * 0xBF58476D1CE4E5B9
  let word := (word ^^^ (word >>> 27)) * 0x94D049BB133111EB
  word ^^^ (word >>> 31)

/-- The word at a place of the sequence that a seed starts. -/
def wordAt (seed : UInt64) (place : Nat) : UInt64 :=
  scramble (seed + UInt64.ofNat place * 0x9E3779B97F4A7C15)

/-- An id of the sequence that a seed starts. -/
def drawnId (seed : UInt64) (n : Nat) : String :=
  String.ofList <| (List.range Session.idLength).map fun k =>
    idLetter (wordAt seed (Session.idLength * n + k + 1)).toNat

/-- What is drawn has the form of an id. -/
theorem isId_drawnId (seed : UInt64) (n : Nat) : Session.isId (drawnId seed n) = true := by
  simp [Session.isId, drawnId, isAlpha_idLetter, Function.comp_def]

end PageServer
