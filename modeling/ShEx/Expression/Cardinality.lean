/-!
# Cardinalities

How many arcs a triple constraint accepts: at least `min`, and at most `max` if that is given.
-/

set_option autoImplicit false

namespace ShEx

/-- An interval of natural numbers, open above if there is no maximum. -/
structure Cardinality where
  min : Nat
  max : Option Nat
deriving DecidableEq, Inhabited

namespace Cardinality

/-- The interval between two numbers; there is none if the maximum is below the minimum. -/
def between? (min : Nat) (max : Option Nat) : Option Cardinality :=
  if max.all (min ≤ ·) then some ⟨min, max⟩ else none

/-- Exactly so many. -/
def exactly (n : Nat) : Cardinality := ⟨n, some n⟩

/-- Exactly one, the cardinality of a constraint that does not give any. -/
def one : Cardinality := exactly 1

/-- None or one. -/
def optional : Cardinality := ⟨0, some 1⟩

/-- Any number. -/
def zeroOrMore : Cardinality := ⟨0, none⟩

/-- Any number but none. -/
def oneOrMore : Cardinality := ⟨1, none⟩

/-- Does the interval contain the number? -/
def allows (c : Cardinality) (n : Nat) : Bool := c.min ≤ n && c.max.all (n ≤ ·)

/-- The written form: `*`, `+` and `?` for the common ones, else the bounds in braces. -/
def text (c : Cardinality) : String :=
  match c.min, c.max with
  | 0, none => "*"
  | 1, none => "+"
  | 0, some 1 => "?"
  | m, none => "\x7b" ++ toString m ++ ",\x7d"
  | m, some n =>
    if m = n then "\x7b" ++ toString m ++ "\x7d"
    else "\x7b" ++ toString m ++ "," ++ toString n ++ "\x7d"

end Cardinality

end ShEx
