import PageServer.Text.Bytes
import PageServer.Error

/-! # Where a response goes

A sink stores the bytes of a response. It may be full after a number of bytes, and it may fail to
flush. A write that does not fit stores what still fits and fails.
-/

namespace PageServer

/-- The bytes that were stored, how often they were flushed, and what the sink can take. -/
structure Sink where
  stored : Array UInt8 := #[]
  flushes : Nat := 0
  limit : Option Nat := none
  flushFails : Bool := false
deriving DecidableEq, Repr

namespace Sink

/-- The bytes of the sink, in order. -/
def bytes (sink : Sink) : Bytes :=
  sink.stored.toList

/-- The part of the bytes for which there is room. -/
def fitting (sink : Sink) (bytes : Bytes) : Bytes :=
  match sink.limit with
  | none => bytes
  | some limit => bytes.take (limit - sink.stored.size)

def store (sink : Sink) (bytes : Bytes) : Sink :=
  { sink with stored := sink.stored ++ sink.fitting bytes }

def hasRoom (sink : Sink) (bytes : Bytes) : Bool :=
  match sink.limit with
  | none => true
  | some limit => bytes.length ≤ limit - sink.stored.size

def write (bytes : Bytes) : EStateM ServerError Sink Unit := fun sink =>
  if sink.hasRoom bytes then .ok () (sink.store bytes)
  else .error (.io "sink full") (sink.store bytes)

/-- Counts a flush, which may fail. -/
def flush : EStateM ServerError Sink Unit := fun sink =>
  let sink := { sink with flushes := sink.flushes + 1 }
  if sink.flushFails then .error (.io "flush failed") sink else .ok () sink

@[simp] theorem bytes_store (sink : Sink) (bytes : Bytes) :
    (sink.store bytes).bytes = sink.bytes ++ sink.fitting bytes := by
  simp [store, Sink.bytes]

end Sink

end PageServer
