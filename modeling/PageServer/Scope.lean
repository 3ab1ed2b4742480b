import Std.Data.ExtTreeMap

/-! # Scopes

A scope finds texts by names. Names are kept in order, and storing a name again replaces its text.
-/

namespace PageServer

/-- Texts found by names. -/
abbrev Scope := Std.ExtTreeMap String String

def Scope.store (scope : Scope) (pairs : List (String × String)) : Scope :=
  pairs.foldl (fun scope pair => scope.insert pair.1 pair.2) scope

/-- The scope of the pairs, of which later ones replace earlier ones. -/
def Scope.ofPairs (pairs : List (String × String)) : Scope :=
  Scope.store ∅ pairs

end PageServer
