import ShEx.Schema.Basic
import ShEx.Validation.Failure

/-!
# Checking a schema

Two checks that need no data: every reference names something the schema defines, and every
pattern is a regular expression.  Each reports the first thing that is wrong.
-/

set_option autoImplicit false

namespace ShEx.Schema

/-- Does every reference name a declaration or a labelled triple expression? -/
def checkReferences (s : Schema) : Except Failure Unit :=
  match s.references.find? fun r => !s.defines r with
  | none => .ok ()
  | some r => .error (.unresolvedReference r.label)

/-- The patterns of a node constraint. -/
def patternsOf (c : NodeConstraint) : List PatternFacet :=
  c.strings.filterMap fun facet =>
    match facet with
    | .pattern p => some p
    | _ => none

/-- Compiles patterns up to the first one that fails. -/
def compileAll : List PatternFacet → Except Failure Unit
  | [] => .ok ()
  | p :: rest =>
    match Pattern.compile p with
    | .error fault => .error (.malformedPattern p.pattern fault)
    | .ok _ => compileAll rest

/-- Are all patterns regular expressions? -/
def checkPatterns (s : Schema) : Except Failure Unit :=
  compileAll (s.constraints.flatMap patternsOf)

end ShEx.Schema
