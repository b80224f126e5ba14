/-!
# UTF-8

Bytes read as characters.  A byte that is part of no well-formed sequence of RFC 3629 stands for
itself: `decode` keeps its place in the text and marks it by `none`, so that a reader can pass over
it where it does not look at the characters.
-/

set_option autoImplicit false

namespace ShEx.Utf8

/-- Does the byte continue a sequence? -/
def isContinuation (b : UInt8) : Bool := 0x80 ≤ b && b ≤ 0xBF

/-- The code point of a sequence: the bits of the first byte, and six of each later one. -/
def codePoint (first : Nat) (later : List UInt8) : Nat :=
  later.foldl (fun n b => 64 * n + b.toNat % 64) first

/-- The character of a sequence of two bytes. -/
def pair? (a b : UInt8) : Option Char :=
  if 0xC2 ≤ a && a ≤ 0xDF && isContinuation b then
    some (Char.ofNat (codePoint (a.toNat % 32) [b]))
  else none

/-- The character of a sequence of three bytes.  Neither what two bytes can say nor a surrogate is
written in three. -/
def triple? (a b c : UInt8) : Option Char :=
  if 0xE0 ≤ a && a ≤ 0xEF && isContinuation b && isContinuation c &&
      !(a = 0xE0 && b < 0xA0) && !(a = 0xED && 0x9F < b) then
    some (Char.ofNat (codePoint (a.toNat % 16) [b, c]))
  else none

/-- The character of a sequence of four bytes.  Neither what three bytes can say nor a number above
the last code point is written in four. -/
def quadruple? (a b c d : UInt8) : Option Char :=
  if 0xF0 ≤ a && a ≤ 0xF4 && isContinuation b && isContinuation c && isContinuation d &&
      !(a = 0xF0 && b < 0x90) && !(a = 0xF4 && 0x8F < b) then
    some (Char.ofNat (codePoint (a.toNat % 8) [b, c, d]))
  else none

/-- The character that begins with a byte, and the number of later bytes that belong to it. -/
def sequence? (a : UInt8) (later : List UInt8) : Option (Char × Nat) :=
  if a < 0x80 then some (Char.ofNat a.toNat, 0)
  else
    match later with
    | b :: c :: d :: _ =>
      ((pair? a b).map (·, 1)).or <| ((triple? a b c).map (·, 2)).or <|
        (quadruple? a b c d).map (·, 3)
    | [b, c] => ((pair? a b).map (·, 1)).or ((triple? a b c).map (·, 2))
    | [b] => (pair? a b).map (·, 1)
    | [] => none

/-- The characters of a text; `none` marks a byte that belongs to no character. -/
def decode : List UInt8 → List (Option Char)
  | [] => []
  | a :: later =>
    match sequence? a later with
    | some (c, extra) => some c :: decode (later.drop extra)
    | none => none :: decode later
termination_by bytes => bytes.length
decreasing_by all_goals simp only [List.length_drop, List.length_cons]; omega

end ShEx.Utf8
