/-
Scopes: which name has which type. An inner binding hides an outer one of the same name.
-/
import InferTrace.Ty.Basic

namespace InferTrace

/-- Names and their types, innermost first. -/
abbrev Scope := List (String × Ty)

namespace Scope

/-- The type of a name. -/
def lookup (scope : Scope) (x : String) : Option Ty := List.lookup x scope

/-- The scope with one more name. -/
def extend (scope : Scope) (x : String) (t : Ty) : Scope := (x, t) :: scope

/-- The names of a scope, each once, in ascending order. -/
def names (scope : Scope) : List String :=
  (scope.map Prod.fst).eraseDups.mergeSort (· ≤ ·)

end Scope

end InferTrace
