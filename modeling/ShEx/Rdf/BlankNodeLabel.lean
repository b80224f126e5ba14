/-!
# Blank node identifiers

Which texts name a blank node.  The first character is a digit, an underscore, a colon or a
letter; the others may also be a point, a hyphen or a combining sign; the last one is no point.
-/

set_option autoImplicit false

namespace ShEx.Rdf.BlankNodeLabel

/-- Is the code point inside one of the ranges, both ends included? -/
def inRanges (ranges : List (Nat × Nat)) (c : Char) : Bool :=
  ranges.any fun r => r.1 ≤ c.toNat && c.toNat ≤ r.2

/-- The letters beyond ASCII that a name may start with. -/
def letterRanges : List (Nat × Nat) :=
  [(0xC0, 0xD6), (0xD8, 0xF6), (0xF8, 0x2FF), (0x370, 0x37D), (0x37F, 0x1FFF),
    (0x200C, 0x200D), (0x2070, 0x218F), (0x2C00, 0x2FEF), (0x3001, 0xD7FF),
    (0xF900, 0xFDCF), (0xFDF0, 0xFFFD), (0x10000, 0xEFFFF)]

/-- A letter a name may start with. -/
def isLetter (c : Char) : Bool := c.isAlpha || inRanges letterRanges c

/-- A character an identifier may start with. -/
def isFirst (c : Char) : Bool := c.isDigit || c = '_' || c = ':' || isLetter c

/-- A character that may follow the first one. -/
def isLater (c : Char) : Bool :=
  isFirst c || c = '.' || c = '-' || inRanges [(0xB7, 0xB7), (0x300, 0x36F), (0x203F, 0x2040)] c

/-- Is the text an identifier of a blank node? -/
def isLabel (id : String) : Bool :=
  match id.toList with
  | [] => false
  | c :: rest => isFirst c && rest.all isLater && (c :: rest).getLast? != some '.'

end ShEx.Rdf.BlankNodeLabel
