import ShEx.Json.Written

/-!
# Reading JSON

What a written JSON value means.  A string has to consist of characters: every byte belongs to
one, and code units given by number are characters or pairs of surrogates.  A number has to be
finite.  Arrays and objects are nested at most `maxNesting` deep.

Not every part of a text needs to mean something.  A `Layout` says which parts are looked at: a
member of a record that the layout does not name may be anything that is written as JSON.
-/

set_option autoImplicit false

namespace ShEx.Json

/-- Which parts of a text are looked at. -/
inductive Layout where
  /-- All parts of a value. -/
  | value
  /-- A list, in each of its items the parts of a layout. -/
  | list (item : Layout)
  /-- A record with these fields, which may also be written as a list of its fields. -/
  | record (fields : List (String × Layout))

/-- How deep arrays and objects may be nested. -/
def maxNesting : Nat := 127

/-! ## Strings -/

/-- The character of a pair of surrogates. -/
def surrogatePair (high low : Nat) : Char :=
  Char.ofNat (0x10000 + (high - 0xD800) * 0x400 + (low - 0xDC00))

/-- The characters of a string. -/
def characters? : List Piece → Option (List Char)
  | [] => some []
  | .symbol s :: rest => do
    let c ← s
    pure (c :: (← characters? rest))
  | .codeUnit n :: rest =>
    if n < 0xD800 || 0xDFFF < n then (characters? rest).map (Char.ofNat n :: ·)
    else
      match rest with
      | .codeUnit m :: rest =>
        if n < 0xDC00 && 0xDC00 ≤ m && m ≤ 0xDFFF then
          (characters? rest).map (surrogatePair n m :: ·)
        else none
      | _ => none

/-- The text of a string. -/
def text? (pieces : List Piece) : Option String := (characters? pieces).map String.ofList

/-! ## Values -/

mutual

/-- The meaning of a value with all its parts, in which arrays and objects may be nested so deep. -/
def Written.meaning? (levels : Nat) : Written → Option Json
  | .null => some .null
  | .bool b => some (.bool b)
  | .number n => n.value?
  | .string pieces => (text? pieces).map .string
  | .array items => if levels = 0 then none else (meanings? (levels - 1) items).map .array
  | .object members =>
    if levels = 0 then none else (memberMeanings? (levels - 1) members).map .object

/-- The meanings of the items of an array. -/
def meanings? (levels : Nat) : List Written → Option (List Json)
  | [] => some []
  | v :: rest => do
    let first ← v.meaning? levels
    pure (first :: (← meanings? levels rest))

/-- The meanings of the members of an object. -/
def memberMeanings? (levels : Nat) :
    List (List Piece × Written) → Option (List (String × Json))
  | [] => some []
  | (name, v) :: rest => do
    let name ← text? name
    let first ← v.meaning? levels
    pure ((name, first) :: (← memberMeanings? levels rest))

end

mutual

/-- The meaning of the parts of a value that a layout looks at. -/
def Layout.meaning? (levels : Nat) : Layout → Written → Option Json
  | .value, v => v.meaning? levels
  | .list item, .array items =>
    if levels = 0 then none else (items.mapM (item.meaning? (levels - 1))).map .array
  | .record fields, .array items =>
    if levels = 0 then none else (Layout.positional? (levels - 1) fields items).map .array
  | .record fields, .object members =>
    if levels = 0 then none
    else
      (members.mapM fun (name, v) => do
        Layout.member? (levels - 1) fields (← text? name) v).map fun kept =>
          .object (List.reduceOption kept)
  | _, v => v.meaning? levels

/-- The meanings of the fields of a record that is written as a list; there are at most as many
items as fields. -/
def Layout.positional? (levels : Nat) :
    List (String × Layout) → List Written → Option (List Json)
  | _, [] => some []
  | [], _ :: _ => none
  | (_, layout) :: fields, v :: rest => do
    let first ← layout.meaning? levels v
    pure (first :: (← Layout.positional? levels fields rest))

/-- The meaning of a member of a record, if it is one of the fields. -/
def Layout.member? (levels : Nat) (fields : List (String × Layout)) (name : String)
    (v : Written) : Option (Option (String × Json)) :=
  match fields with
  | [] => some none
  | (field, layout) :: later =>
    if name = field then (layout.meaning? levels v).map fun v => some (name, v)
    else Layout.member? levels later name v

end

/-- Reads a text, looking at the parts of a layout. -/
def read? (layout : Layout) (text : List Symbol) : Option Json :=
  match Written.ofText? text with
  | some v => layout.meaning? maxNesting v
  | none => none

end ShEx.Json
