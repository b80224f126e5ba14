/-!
# Limits

How far a validation may go before it gives up: how deep declarations may be nested, how many ways
of sharing out arcs may be tried, and how many bytes a pattern may have.
-/

set_option autoImplicit false

namespace ShEx

/-- The limits of a validation. -/
structure Limits where
  maxRecursionDepth : Nat
  maxSearchSpace : Nat
  maxRegexLength : Nat
deriving DecidableEq, Inhabited

namespace Limits

/-- The limits that hold if none are given. -/
def standard : Limits := ⟨100, 1024, 1000⟩

/-- Limits for schemas and data that are trusted. -/
def permissive : Limits := ⟨500, 1048576, 10000⟩

/-- Limits for schemas and data that are not. -/
def strict : Limits := ⟨50, 256, 500⟩

end Limits

end ShEx
