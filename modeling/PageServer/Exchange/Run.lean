import PageServer.Exchange.Basic

/-! # Runs on an exchange

A run does a whole piece of work on an exchange: a handler, a template or a file. It ends well, or it
halts: for a failure that can be reported, because a handler crashed, or because the work did not end
within the bound that was set for it.
-/

namespace PageServer

inductive Halt (ε : Type)
  | failed (error : ε)
  | crashed
  | unfinished
deriving DecidableEq, Repr

/-- The same halt with its failure seen in another way. -/
def Halt.map {ε δ : Type} (f : ε → δ) : Halt ε → Halt δ
  | .failed error => .failed (f error)
  | .crashed => .crashed
  | .unfinished => .unfinished

/-- A piece of work on an exchange. -/
abbrev Run := EStateM (Halt ServerError) Exchange

/-- Runs another path inside an exchange. -/
abbrev Include := String → Run Unit

def Exchange.Step.run {α : Type} (step : Exchange.Step α) : Run α := fun x =>
  match step x with
  | .ok a x => .ok a x
  | .error e x => .error (.failed e) x

end PageServer
