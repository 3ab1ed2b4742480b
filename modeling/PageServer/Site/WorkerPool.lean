import PageServer.Error

/-! # Worker pools

The threads that serve connections. Each serves one connection at a time, so a pool without any would
serve none.
-/

namespace PageServer

/-- A number of threads that serve connections. -/
structure WorkerPool where
  size : Nat
  positive : 0 < size

namespace WorkerPool

def ofSize (size : Nat) : Except ServerError WorkerPool :=
  if positive : 0 < size then .ok ⟨size, positive⟩
  else .error (.config "worker pool needs at least one thread")

end WorkerPool

end PageServer
