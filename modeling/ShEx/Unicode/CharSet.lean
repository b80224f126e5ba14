import ShEx.Unicode.Table

/-!
# Sets of characters

A set of characters is a list of ranges of code points, in increasing order and with gaps between
them once it has gone through `ofRanges`.  The set operations work on the ranges.
-/

set_option autoImplicit false

namespace ShEx.Unicode

/-- A set of characters, as ranges of code points with both ends included. -/
structure CharSet where
  ranges : List (Nat × Nat)
deriving DecidableEq, Inhabited

namespace CharSet

/-- Is a code point in the set? -/
def containsCode (s : CharSet) (n : Nat) : Bool := s.ranges.any fun r => r.1 ≤ n && n ≤ r.2

/-- Is a character in the set? -/
def contains (s : CharSet) (c : Char) : Bool := s.containsCode c.toNat

/-- Joins a range with those behind it that overlap or touch it, in a list ordered by first code
points. -/
def joinedFrom (r : Nat × Nat) : List (Nat × Nat) → List (Nat × Nat)
  | [] => [r]
  | q :: rest =>
    if q.1 ≤ r.2 + 1 then joinedFrom (r.1, max r.2 q.2) rest else r :: joinedFrom q rest

/-- Joins all ranges of an ordered list that overlap or touch. -/
def joined : List (Nat × Nat) → List (Nat × Nat)
  | [] => []
  | r :: rest => joinedFrom r rest

/-- The set of the code points in some ranges. -/
def ofRanges (ranges : List (Nat × Nat)) : CharSet :=
  ⟨joined ((ranges.filter fun r => r.1 ≤ r.2).mergeSort fun a b => a.1 ≤ b.1)⟩

/-- The set without characters. -/
def empty : CharSet := ⟨[]⟩

/-- The set of all characters. -/
def all : CharSet := ⟨[(0, Table.lastCode)]⟩

/-- The set of one character. -/
def single (c : Char) : CharSet := ⟨[(c.toNat, c.toNat)]⟩

/-- The set of the characters from one to another. -/
def between (a b : Char) : CharSet := ofRanges [(a.toNat, b.toNat)]

/-- The set of the characters of a text. -/
def ofChars (chars : List Char) : CharSet := ofRanges (chars.map fun c => (c.toNat, c.toNat))

/-- The characters of one set or the other. -/
def union (s t : CharSet) : CharSet := ofRanges (s.ranges ++ t.ranges)

/-- The gaps between ordered ranges, from a code point on. -/
def gaps (next : Nat) : List (Nat × Nat) → List (Nat × Nat)
  | [] => if next ≤ Table.lastCode then [(next, Table.lastCode)] else []
  | r :: rest =>
    if next < r.1 then (next, r.1 - 1) :: gaps (r.2 + 1) rest else gaps (max next (r.2 + 1)) rest

/-- The characters outside a set. -/
def complement (s : CharSet) : CharSet := ⟨gaps 0 (ofRanges s.ranges).ranges⟩

/-- The characters of both sets. -/
def inter (s t : CharSet) : CharSet := (s.complement.union t.complement).complement

/-- The characters of one set that are not in the other. -/
def diff (s t : CharSet) : CharSet := s.inter t.complement

/-- The characters of exactly one of two sets. -/
def symmDiff (s t : CharSet) : CharSet := (s.union t).diff (s.inter t)

/-- The characters below code point 128. -/
def ascii : CharSet := ⟨[(0, 0x7F)]⟩

/-- Are all characters of the set ASCII? -/
def isAscii (s : CharSet) : Bool := s.ranges.all fun r => r.2 ≤ 0x7F

end CharSet

end ShEx.Unicode
