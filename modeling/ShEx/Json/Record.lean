import ShEx.Json.Basic
import ShEx.Number.Digits

/-!
# Records in JSON

A record has named fields.  As an object it names them, in any order, each at most once, among
members that do not matter; as an array it lists them in their order, and only fields that have a
default may be left out at its end.  A tagged record says by a tag which of several records it is:
as an object in its member `type`, as an array in its first item.

`Record.of?` takes a value apart and the functions behind it read one field each, refusing what a
field cannot hold.
-/

set_option autoImplicit false

namespace ShEx.Json

/-! ## Single values -/

/-- The text of a string. -/
def string? : Json → Option String
  | .string s => some s
  | _ => none

/-- The value of a Boolean. -/
def bool? : Json → Option Bool
  | .bool b => some b
  | _ => none

/-- An integer of 64 bits with a sign. -/
def signed? : Json → Option Int
  | .integer i => if i < Number.twoTo 63 then some i else none
  | _ => none

/-- An integer that is not negative and below a bound. -/
def natBelow? (bound : Nat) : Json → Option Nat
  | .integer i => if 0 ≤ i && i < bound then some i.toNat else none
  | _ => none

/-- A list whose items all can be read. -/
def list? {α : Type} (read : Json → Option α) : Json → Option (List α)
  | .array items => items.mapM read
  | _ => none

/-! ## Records -/

/-- A field of a record: its name, and whether it has a default. -/
structure Field where
  name : String
  hasDefault : Bool

/-- A field that can be left out nowhere but in an object. -/
def Field.plain (name : String) : Field := ⟨name, false⟩

/-- A field that has a default. -/
def Field.defaulted (name : String) : Field := ⟨name, true⟩

/-- A record taken apart: its fields by name, each at most once. -/
structure Record where
  slots : List (String × Json)

namespace Record

/-- The members of an object that are fields, if none of them comes twice. -/
def ofMembers? (fields : List Field) (members : List (String × Json)) : Option Record :=
  let known := members.filter fun m => fields.any fun f => f.name = m.1
  if (known.map (·.1)).Nodup then some ⟨known⟩ else none

/-- The items of an array as fields, if they are not too many and those left out have defaults. -/
def ofItems? (fields : List Field) (items : List Json) : Option Record :=
  if items.length ≤ fields.length && (fields.drop items.length).all (·.hasDefault) then
    some ⟨(fields.map (·.name)).zip items⟩
  else none

/-- The record with the given fields that a value is. -/
def of? (fields : List Field) : Json → Option Record
  | .object members => ofMembers? fields members
  | .array items => ofItems? fields items
  | _ => none

/-- The value of a field that has to be there. -/
def required? {α : Type} (r : Record) (name : String) (read : Json → Option α) : Option α :=
  (r.slots.lookup name).bind read

/-- The value of a field that may be missing or null. -/
def optional? {α : Type} (r : Record) (name : String) (read : Json → Option α) :
    Option (Option α) :=
  match r.slots.lookup name with
  | none => some none
  | some .null => some none
  | some v => (read v).map some

/-- The value of a field that may be missing, but not null. -/
def orDefault? {α : Type} (r : Record) (name : String) (default : α) (read : Json → Option α) :
    Option α :=
  match r.slots.lookup name with
  | none => some default
  | some v => read v

end Record

/-! ## Tagged records -/

/-- The tag of a tagged record, and the record without it. -/
def tagged? : Json → Option (Json × Json)
  | .object members =>
    match members.partition fun m => m.1 = "type" with
    | ([tag], rest) => some (tag.2, .object rest)
    | _ => none
  | .array (tag :: rest) => some (tag, .array rest)
  | _ => none

/-- The name that a tag gives out of a list, by itself or by its place in the list. -/
def tagName? (names : List String) : Json → Option String
  | .string s => if s ∈ names then some s else none
  | .integer i => if 0 ≤ i then names[i.toNat]? else none
  | _ => none

/-- The name of the record out of a list that a tagged record is, and the record without its tag. -/
def variant? (names : List String) (v : Json) : Option (String × Json) := do
  let (tag, rest) ← tagged? v
  pure (← tagName? names tag, rest)

/-- The name of a choice without content: the name alone, or an object with the name as its only
member and nothing in it. -/
def unit? (names : List String) : Json → Option String
  | .string s => if s ∈ names then some s else none
  | .object [(name, .null)] => if name ∈ names then some name else none
  | .object [(name, .object [])] => if name ∈ names then some name else none
  | _ => none

end ShEx.Json
