import PageServer.Http.HeadScanner
import PageServer.Error

/-! # Reading a head from a stream

A stream is what arrives on a connection: portions of bytes, or a failure to read. One read takes at
most `bufferSize` bytes of the next portion and never joins two. A read of no bytes, like the end of
the stream, means that the client has stopped sending.
-/

namespace PageServer.Http

inductive Arrival
  | bytes (portion : Bytes)
  | failure (reason : String)
deriving DecidableEq, Repr

/-- Everything that arrives on a connection, in order. -/
abbrev Stream := List Arrival

/-- The largest number of bytes that one read takes. -/
def bufferSize : Nat := 1024

/-- A portion in the pieces in which it is read. Only a portion without bytes has an empty piece. -/
def pieces (size : Nat) (portion : Bytes) : List Bytes :=
  if 0 < size ∧ !(portion.drop size).isEmpty then
    portion.take size :: pieces size (portion.drop size)
  else [portion]
termination_by portion.length
decreasing_by
  have more := List.drop_eq_nil_iff (l := portion) (i := size)
  simp_all
  omega

/-- Reading a portion in pieces loses nothing. -/
@[simp] theorem flatten_pieces (size : Nat) (portion : Bytes) :
    (pieces size portion).flatten = portion := by
  fun_induction pieces size portion with
  | case1 portion more ih => simp [ih]
  | case2 portion last => simp

def Stream.reads (stream : Stream) : List Arrival :=
  stream.flatMap fun
    | .bytes portion => (pieces bufferSize portion).map .bytes
    | .failure reason => [.failure reason]

/-- What was read of a head so far: the bytes, the last one first, and how many they are. -/
structure Received where
  backwards : Bytes := []
  size : Nat := 0
deriving Repr

namespace Received

/-- The bytes in the order in which they arrived. -/
def bytes (r : Received) : Bytes :=
  r.backwards.reverse

def add (r : Received) (portion : Bytes) : Received :=
  ⟨portion.reverse ++ r.backwards, r.size + portion.length⟩

@[simp] theorem bytes_empty : ({} : Received).bytes = [] := rfl

@[simp] theorem bytes_add (r : Received) (portion : Bytes) :
    (r.add portion).bytes = r.bytes ++ portion := by
  simp [add, bytes]

end Received

/-- What was received, if it is not longer than the limit. -/
def checkLimit (limit : Nat) (r : Received) : Except HeadError Received :=
  if limit < r.size then .error (.tooLarge limit) else .ok r

/-- Reads on until the head ends. `seen` holds what was read before. -/
def collectHead (limit : Nat) : HeadScanner → Received → List Arrival → Except HeadError Received
  | _, _, [] => .error .truncated
  | _, _, .failure reason :: _ => .error (.io reason)
  | _, _, .bytes [] :: _ => .error .truncated
  | scanner, seen, .bytes portion :: rest =>
    match scanner.feed portion with
    | (_, some offset) => checkLimit limit (seen.add (portion.take offset))
    | (next, none) => do
      let seen ← checkLimit limit (seen.add portion)
      collectHead limit next seen rest

/-- The bytes of the head that a stream starts with. What follows the head is dropped. -/
def readHead (limit : Nat) (stream : Stream) : Except HeadError Bytes :=
  (collectHead limit {} {} stream.reads).map Received.bytes

end PageServer.Http
