import ShEx.Json.Reader
import ShEx.ShapeMap.Basic
import ShEx.ShExJ.Term

/-!
# Shape maps in JSON

A shape map is written as a list of records with the fields `node` and `shape`.  A node is written
as a term, or as a triple pattern whose subject or object is `FOCUS`; the other one may be a term,
`_` or missing.  A shape is written as its label or as `START`.
-/

set_option autoImplicit false

namespace ShEx.ShapeMap

open ShEx.Rdf

/-! ## Structure -/

/-- A place of a triple pattern as it is written. -/
structure PatternEntry where
  subject : Option String
  predicate : String
  object : Option String
deriving DecidableEq

/-- A node as it is written. -/
inductive NodeEntry where
  | term (text : String)
  | pattern (pattern : PatternEntry)
  | literal (literal : ShExJ.LiteralEntry)
deriving DecidableEq

/-- An association as it is written. -/
structure AssociationEntry where
  node : NodeEntry
  shape : String
deriving DecidableEq

/-- Reads a term or a keyword: a string, possibly as the member `term` of an object. -/
def word? : Json → Option String
  | .string text => some text
  | .object members => do
    let r ← Json.Record.ofMembers? [.plain "term"] members
    r.required? "term" Json.string?
  | _ => none

/-- Reads a triple pattern. -/
def pattern? (v : Json) : Option PatternEntry := do
  let r ← Json.Record.of? [.defaulted "subject", .plain "predicate", .defaulted "object"] v
  pure
    { subject := ← r.optional? "subject" word?
      predicate := ← r.required? "predicate" Json.string?
      object := ← r.optional? "object" word? }

/-- Reads a node.  What can be a triple pattern is one, else it is a literal. -/
def node? : Json → Option NodeEntry
  | .string text => some (.term text)
  | v => ((pattern? v).map .pattern).or ((ShExJ.literal? v).map .literal)

/-- Reads an association. -/
def association? (v : Json) : Option AssociationEntry := do
  let r ← Json.Record.of? [.plain "node", .plain "shape"] v
  pure ⟨← r.required? "node" node?, ← r.required? "shape" word?⟩

/-- The parts of a shape map that are looked at. -/
def layout : Json.Layout := .list (.record [("node", .value), ("shape", .value)])

/-! ## Meaning -/

/-- A place of a triple pattern: the focus, or what its terms have to fit. -/
inductive Place where
  | focus
  | fits (expected : PatternTerm)
deriving DecidableEq

/-- The place that a text describes. -/
def place : Option String → Except LoadError Place
  | none => .ok (.fits .wildcard)
  | some text =>
    if text = "FOCUS" then .ok .focus
    else if text = "_" then .ok (.fits .wildcard)
    else do pure (.fits (.term (← ShExJ.resource text).toTerm))

/-- The selector of a triple pattern, which has its focus in one of two places. -/
def PatternEntry.selector (p : PatternEntry) : Except LoadError NodeSelector := do
  let predicate ← ShExJ.iri p.predicate
  match ← place p.subject, ← place p.object with
  | .focus, .fits expected => pure (.focusSubject predicate expected)
  | .fits expected, .focus => pure (.focusObject expected predicate)
  | _, _ => .error (.focusCount predicate)

/-- The selector of a node. -/
def NodeEntry.selector : NodeEntry → Except LoadError NodeSelector
  | .term text => do pure (.node (← ShExJ.resource text).toTerm)
  | .literal l => do pure (.node (.literal (← l.toLiteral)))
  | .pattern p => p.selector

/-- The target that a text names. -/
def target (text : String) : Except LoadError ShapeTarget :=
  if text = "START" then .ok .start else (ShExJ.resource text).map .label

/-- The association of an entry. -/
def AssociationEntry.association (a : AssociationEntry) : Except LoadError Association := do
  let selector ← a.node.selector
  pure ⟨selector, ← target a.shape⟩

/-- Loads the text of a shape map. -/
def load (text : List Json.Symbol) : Except LoadError ShapeMap :=
  match (Json.read? layout text).bind (Json.list? association?) with
  | none => .error .malformed
  | some entries => entries.mapM AssociationEntry.association

end ShEx.ShapeMap
