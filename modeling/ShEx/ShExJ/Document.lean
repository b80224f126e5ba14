import ShEx.Expression.Basic
import ShEx.ShExJ.Term

/-!
# Schema documents

A schema in JSON, read as far as its structure goes: which expressions there are, what they
contain and which of them carry an `id`.  Labels, IRIs and bounds are still the texts and numbers
that the document writes; `Load` says what they mean.
-/

set_option autoImplicit false

namespace ShEx.ShExJ

/-- A semantic action as it is written. -/
structure ActEntry where
  name : String
  code : Option String
deriving DecidableEq

/-- A value of a value set as it is written; the entries with stems and languages have no terms in
them. -/
inductive ValueEntry where
  | iri (text : String)
  | literal (literal : LiteralEntry)
  | stem (value : ValueSetValue)

/-- A node constraint as it is written, its numbers by their text. -/
structure NodeEntry where
  kind : Option NodeKind
  datatype : Option String
  values : Option (List ValueEntry)
  length : Option Nat
  minLength : Option Nat
  maxLength : Option Nat
  pattern : Option String
  flags : Option String
  minInclusive : Option String
  minExclusive : Option String
  maxInclusive : Option String
  maxExclusive : Option String
  totalDigits : Option Nat
  fractionDigits : Option Nat

mutual

/-- A shape expression as it is written. -/
inductive ShapeEntry where
  | reference (label : String)
  | or (id : Option String) (operands : List ShapeEntry)
  | and (id : Option String) (operands : List ShapeEntry)
  | not (id : Option String) (operand : ShapeEntry)
  | node (id : Option String) (constraint : NodeEntry)
  | shape (id : Option String) (body : ShapeBody)
  | external (id : Option String)
  | declaration (id : String) (isAbstract : Bool) (expression : ShapeEntry)

/-- A shape as it is written. -/
structure ShapeBody where
  closed : Bool
  extra : List String
  expression : Option TripleEntry
  extended : List String
  restricted : List String
  acts : List ActEntry

/-- A triple expression as it is written. -/
inductive TripleEntry where
  | reference (label : String)
  | eachOf (id : Option String) (group : GroupBody)
  | oneOf (id : Option String) (group : GroupBody)
  | triple (id : Option String) (constraint : TripleBody)

/-- The content of a group as it is written. -/
structure GroupBody where
  members : List TripleEntry
  min : Option Int
  max : Option Int
  acts : List ActEntry

/-- The content of a triple constraint as it is written. -/
structure TripleBody where
  inverse : Bool
  predicate : String
  value : Option ShapeEntry
  min : Option Int
  max : Option Int
  acts : List ActEntry

end

/-- The `id` of a shape expression, if it has one. -/
def ShapeEntry.id? : ShapeEntry → Option String
  | .reference _ => none
  | .or id _ => id
  | .and id _ => id
  | .not id _ => id
  | .node id _ => id
  | .shape id _ => id
  | .external id => id
  | .declaration id _ _ => some id

/-- The `id` of a triple expression, if it has one. -/
def TripleEntry.id? : TripleEntry → Option String
  | .reference _ => none
  | .eachOf id _ => id
  | .oneOf id _ => id
  | .triple id _ => id

/-- A schema as it is written. -/
structure Document where
  imports : List String
  startActs : List ActEntry
  start : Option ShapeEntry
  shapes : List ShapeEntry

end ShEx.ShExJ
