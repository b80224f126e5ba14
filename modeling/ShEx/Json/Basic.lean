import ShEx.Number.Binary

/-!
# JSON values

What a JSON text says.  An integer and a floating point number are different values, and the
members of an object are kept in the order in which they are written, a repeated name included:
what a repetition means is left to those who read objects.
-/

set_option autoImplicit false

namespace ShEx

open ShEx.Number

/-- A JSON value. -/
inductive Json where
  | null
  | bool (value : Bool)
  | integer (value : Int)
  | float (value : Binary)
  | string (text : String)
  | array (items : List Json)
  | object (members : List (String × Json))
deriving Inhabited

namespace Json

mutual

/-- How deep arrays and objects are nested in a value, itself included. -/
def height : Json → Nat
  | .array items => heightOfAll items + 1
  | .object members => heightOfMembers members + 1
  | _ => 1

/-- The height of the highest value of a list. -/
def heightOfAll : List Json → Nat
  | [] => 0
  | v :: rest => max v.height (heightOfAll rest)

/-- The height of the highest value of the members of an object. -/
def heightOfMembers : List (String × Json) → Nat
  | [] => 0
  | (_, v) :: rest => max v.height (heightOfMembers rest)

end

end Json

end ShEx
