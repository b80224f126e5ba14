import ShEx.Expression.Basic
import ShEx.Pattern.Facet

/-!
# Why there is no answer

A question about a node can stay without a Boolean answer: the schema uses something that is not
supported, it names something unknown, a pattern cannot be used, or a limit is reached.
-/

set_option autoImplicit false

namespace ShEx

/-- What shape expressions can say and is not supported. -/
inductive Feature where
  | imports
  | semanticActions
  | externalShapes
  | abstractShapes
  | extension
  | restriction
  | groupCardinality
  | recursiveTripleReferences
deriving DecidableEq

/-- The name of a feature. -/
def Feature.text : Feature → String
  | .imports => "imports"
  | .semanticActions => "semantic actions"
  | .externalShapes => "ShapeExternal"
  | .abstractShapes => "abstract shapes"
  | .extension => "EXTENDS"
  | .restriction => "RESTRICTS"
  | .groupCardinality => "cardinality on EachOf and OneOf"
  | .recursiveTripleReferences => "recursive triple expression references"

/-- Why there is no answer. -/
inductive Failure where
  | notImplemented (feature : Feature)
  | unresolvedReference (label : Label)
  | searchSpaceExceeded (complexity limit : Nat)
  | malformedPattern (pattern : String) (fault : Pattern.Fault)
  | recursionTooDeep (depth : Nat)
deriving DecidableEq

/-- What a pattern that cannot be used is reported with. -/
def Pattern.Fault.text : Pattern.Fault → String
  | .tooLong limit => "pattern is longer than the " ++ toString limit ++ " bytes limit"
  | .unsupportedFlag flag => "unsupported regex flag '" ++ flag.toString ++ "'"
  | .malformed => "regex parse error"

/-- The report of a failure. -/
def Failure.message : Failure → String
  | .notImplemented feature => "Not yet implemented: " ++ feature.text
  | .unresolvedReference label => "Undefined reference: " ++ label.written
  | .searchSpaceExceeded complexity limit =>
    "Too many possible arc assignments: " ++ toString complexity ++ ", limit is " ++
      toString limit ++ ". The validation result is unknown."
  | .malformedPattern pattern fault => "Invalid pattern '" ++ pattern ++ "': " ++ fault.text
  | .recursionTooDeep depth =>
    "Maximum recursion depth (" ++ toString depth ++ ") exceeded during validation"

end ShEx
