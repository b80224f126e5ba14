import ShEx.Json.Reader
import ShEx.Json.Record
import ShEx.ShExJ.Document

/-!
# Reading schema documents

`Document.ofText?` reads the text of a schema as far as its structure goes.  Of the schema itself
and its start actions only the fields are looked at; everything inside shape expressions has to be
meaningful JSON.

An expression is read one level at a time: `shapeObject?` and `tripleObject?` take functions that
read what is inside, and the number of levels is the height of the value.
-/

set_option autoImplicit false

namespace ShEx.ShExJ

open ShEx.Json (Field)

/-! ## Entries without expressions -/

/-- The fields of a semantic action. -/
def actFields : List Field := [.plain "name", .plain "code"]

/-- Reads a semantic action. -/
def act? (v : Json) : Option ActEntry := do
  let r ← Json.Record.of? actFields v
  pure
    { name := ← r.required? "name" Json.string?
      code := ← r.optional? "code" Json.string? }

/-- Reads a node kind. -/
def nodeKind? (v : Json) : Option NodeKind :=
  match Json.unit? ["iri", "bnode", "literal", "nonliteral"] v with
  | some "iri" => some .iri
  | some "bnode" => some .blankNode
  | some "literal" => some .literal
  | some "nonliteral" => some .nonLiteral
  | _ => none

/-- The stem of a stem range.  Whatever is not a string is the wildcard, the empty stem. -/
def stemOrWildcard? : Json → Option String
  | .string stem => some stem
  | _ => some ""

/-- Reads a stem in a record of its own. -/
def stem? (v : Json) : Option String := do
  let r ← Json.Record.of? [.plain "stem"] v
  r.required? "stem" Json.string?

/-- Reads an exclusion of a stem range. -/
def exclusion? : Json → Option StemExclusion
  | .string value => some (.value value)
  | v => (stem? v).map .stem

/-- Reads a stem range. -/
def stemRange? (v : Json) : Option (String × List StemExclusion) := do
  let r ← Json.Record.of? [.plain "stem", .defaulted "exclusions"] v
  let stem ← r.required? "stem" stemOrWildcard?
  let exclusions ← r.orDefault? "exclusions" [] (Json.list? exclusion?)
  pure (stem, exclusions)

/-- Reads a language by its tag. -/
def languageTag? (v : Json) : Option String := do
  let r ← Json.Record.of? [.plain "languageTag"] v
  r.required? "languageTag" Json.string?

/-- Reads a value set entry with a stem or a language. -/
def stemValue? (v : Json) : Option ValueSetValue := do
  let names := ["IriStem", "IriStemRange", "LiteralStem", "LiteralStemRange", "Language",
    "LanguageStem", "LanguageStemRange"]
  match ← Json.variant? names v with
  | ("IriStem", v) => (stem? v).map .iriStem
  | ("IriStemRange", v) => (stemRange? v).map fun (s, es) => .iriStemRange s es
  | ("LiteralStem", v) => (stem? v).map .literalStem
  | ("LiteralStemRange", v) => (stemRange? v).map fun (s, es) => .literalStemRange s es
  | ("Language", v) => (languageTag? v).map .language
  | ("LanguageStem", v) => (stem? v).map .languageStem
  | ("LanguageStemRange", v) => (stemRange? v).map fun (s, es) => .languageStemRange s es
  | _ => none

/-- Reads a value set entry.  What is no stem and no language is a literal. -/
def value? : Json → Option ValueEntry
  | .string text => some (.iri text)
  | v => ((stemValue? v).map .stem).or ((literal? v).map .literal)

/-- Numbers of 64 bits. -/
def size? : Json → Option Nat := Json.natBelow? (Number.twoTo 64)

/-- Numbers of 32 bits. -/
def digitCount? : Json → Option Nat := Json.natBelow? (Number.twoTo 32)

/-- The fields of a node constraint. -/
def nodeFields : List Field :=
  ["id", "nodeKind", "datatype", "values", "length", "minlength", "maxlength", "pattern", "flags",
    "mininclusive", "minexclusive", "maxinclusive", "maxexclusive", "totaldigits",
    "fractiondigits"].map .plain

/-- Reads a node constraint, and its `id`. -/
def node? (v : Json) : Option ShapeEntry := do
  let r ← Json.Record.of? nodeFields v
  let id ← r.optional? "id" Json.string?
  pure (.node id
    { kind := ← r.optional? "nodeKind" nodeKind?
      datatype := ← r.optional? "datatype" Json.string?
      values := ← r.optional? "values" (Json.list? value?)
      length := ← r.optional? "length" size?
      minLength := ← r.optional? "minlength" size?
      maxLength := ← r.optional? "maxlength" size?
      pattern := ← r.optional? "pattern" Json.string?
      flags := ← r.optional? "flags" Json.string?
      minInclusive := ← r.optional? "mininclusive" Json.numberText?
      minExclusive := ← r.optional? "minexclusive" Json.numberText?
      maxInclusive := ← r.optional? "maxinclusive" Json.numberText?
      maxExclusive := ← r.optional? "maxexclusive" Json.numberText?
      totalDigits := ← r.optional? "totaldigits" digitCount?
      fractionDigits := ← r.optional? "fractiondigits" digitCount? })

/-! ## Expressions -/

/-- Reads the operands of a conjunction or a disjunction, and its `id`. -/
def operands? (shape? : Json → Option ShapeEntry) (v : Json) :
    Option (Option String × List ShapeEntry) := do
  let r ← Json.Record.of? [.plain "id", .plain "shapeExprs"] v
  pure (← r.optional? "id" Json.string?, ← r.required? "shapeExprs" (Json.list? shape?))

/-- Reads a negation. -/
def negation? (shape? : Json → Option ShapeEntry) (v : Json) : Option ShapeEntry := do
  let r ← Json.Record.of? [.plain "id", .plain "shapeExpr"] v
  pure (.not (← r.optional? "id" Json.string?) (← r.required? "shapeExpr" shape?))

/-- Reads a shape. -/
def shapeBody? (triple? : Json → Option TripleEntry) (v : Json) : Option ShapeEntry := do
  let r ← Json.Record.of?
    [.plain "id", .defaulted "closed", .defaulted "extra", .plain "expression",
      .defaulted "extends", .defaulted "restricts", .defaulted "semActs"] v
  pure (.shape (← r.optional? "id" Json.string?)
    { closed := ← r.orDefault? "closed" false Json.bool?
      extra := ← r.orDefault? "extra" [] (Json.list? Json.string?)
      expression := ← r.optional? "expression" triple?
      extended := ← r.orDefault? "extends" [] (Json.list? Json.string?)
      restricted := ← r.orDefault? "restricts" [] (Json.list? Json.string?)
      acts := ← r.orDefault? "semActs" [] (Json.list? act?) })

/-- Reads an external shape. -/
def external? (v : Json) : Option ShapeEntry := do
  let r ← Json.Record.of? [.plain "id"] v
  pure (.external (← r.optional? "id" Json.string?))

/-- Reads a shape declaration. -/
def declaration? (shape? : Json → Option ShapeEntry) (v : Json) : Option ShapeEntry := do
  let r ← Json.Record.of? [.plain "id", .defaulted "abstract", .plain "shapeExpr"] v
  pure (.declaration (← r.required? "id" Json.string?)
    (← r.orDefault? "abstract" false Json.bool?) (← r.required? "shapeExpr" shape?))

/-- Reads a shape expression that is no reference. -/
def shapeObject? (shape? : Json → Option ShapeEntry) (triple? : Json → Option TripleEntry)
    (v : Json) : Option ShapeEntry := do
  let names := ["ShapeOr", "ShapeAnd", "ShapeNot", "NodeConstraint", "Shape", "ShapeExternal",
    "ShapeDecl"]
  match ← Json.variant? names v with
  | ("ShapeOr", v) => (operands? shape? v).map fun (id, es) => .or id es
  | ("ShapeAnd", v) => (operands? shape? v).map fun (id, es) => .and id es
  | ("ShapeNot", v) => negation? shape? v
  | ("NodeConstraint", v) => node? v
  | ("Shape", v) => shapeBody? triple? v
  | ("ShapeExternal", v) => external? v
  | ("ShapeDecl", v) => declaration? shape? v
  | _ => none

/-- Reads a group, and its `id`. -/
def group? (triple? : Json → Option TripleEntry) (v : Json) :
    Option (Option String × GroupBody) := do
  let r ← Json.Record.of?
    [.plain "id", .plain "expressions", .plain "min", .plain "max", .defaulted "semActs"] v
  let id ← r.optional? "id" Json.string?
  pure (id,
    { members := ← r.required? "expressions" (Json.list? triple?)
      min := ← r.optional? "min" Json.signed?
      max := ← r.optional? "max" Json.signed?
      acts := ← r.orDefault? "semActs" [] (Json.list? act?) })

/-- Reads a triple constraint. -/
def tripleBody? (shape? : Json → Option ShapeEntry) (v : Json) : Option TripleEntry := do
  let r ← Json.Record.of?
    [.plain "id", .defaulted "inverse", .plain "predicate", .plain "valueExpr", .plain "min",
      .plain "max", .defaulted "semActs"] v
  pure (.triple (← r.optional? "id" Json.string?)
    { inverse := ← r.orDefault? "inverse" false Json.bool?
      predicate := ← r.required? "predicate" Json.string?
      value := ← r.optional? "valueExpr" shape?
      min := ← r.optional? "min" Json.signed?
      max := ← r.optional? "max" Json.signed?
      acts := ← r.orDefault? "semActs" [] (Json.list? act?) })

/-- Reads a triple expression that is no reference. -/
def tripleObject? (shape? : Json → Option ShapeEntry) (triple? : Json → Option TripleEntry)
    (v : Json) : Option TripleEntry := do
  match ← Json.variant? ["EachOf", "OneOf", "TripleConstraint"] v with
  | ("EachOf", v) => (group? triple? v).map fun (id, g) => .eachOf id g
  | ("OneOf", v) => (group? triple? v).map fun (id, g) => .oneOf id g
  | ("TripleConstraint", v) => tripleBody? shape? v
  | _ => none

mutual

/-- Reads a shape expression of at most so many levels. -/
def shapeWithin? : Nat → Json → Option ShapeEntry
  | _, .string label => some (.reference label)
  | 0, _ => none
  | n + 1, v => shapeObject? (shapeWithin? n) (tripleWithin? n) v

/-- Reads a triple expression of at most so many levels. -/
def tripleWithin? : Nat → Json → Option TripleEntry
  | _, .string label => some (.reference label)
  | 0, _ => none
  | n + 1, v => tripleObject? (shapeWithin? n) (tripleWithin? n) v

end

/-- Reads a shape expression. -/
def shape? (v : Json) : Option ShapeEntry := shapeWithin? v.height v

/-! ## Documents -/

/-- The parts of a schema that are looked at. -/
def schemaLayout : Json.Layout :=
  .record
    [("imports", .value), ("startActs", .list (.record [("name", .value), ("code", .value)])),
      ("start", .value), ("shapes", .value)]

/-- Reads a schema. -/
def Document.ofJson? (v : Json) : Option Document := do
  let r ← Json.Record.of?
    [.defaulted "imports", .defaulted "startActs", .plain "start", .defaulted "shapes"] v
  pure
    { imports := ← r.orDefault? "imports" [] (Json.list? Json.string?)
      startActs := ← r.orDefault? "startActs" [] (Json.list? act?)
      start := ← r.optional? "start" shape?
      shapes := ← r.orDefault? "shapes" [] (Json.list? shape?) }

/-- Reads the text of a schema. -/
def Document.ofText? (text : List Json.Symbol) : Option Document :=
  (Json.read? schemaLayout text).bind Document.ofJson?

end ShEx.ShExJ
