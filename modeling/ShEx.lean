import ShEx.Main
import ShEx.Datatype.Validity
import ShEx.Proofs.Inquiry
import ShEx.Proofs.Returns
import ShEx.Proofs.PatternUse
import ShEx.Proofs.KeptAnswers
import ShEx.Proofs.Nesting
import ShEx.Proofs.Subexpressions
import ShEx.Proofs.Termination
import ShEx.Proofs.ArcSharing
import ShEx.Proofs.OneOf
import ShEx.Proofs.Numbering
import ShEx.Proofs.Conservation
import ShEx.Proofs.Unfolding
import ShEx.Proofs.Acyclic
import ShEx.Proofs.Unending
import ShEx.Proofs.CacheTransparency
import ShEx.Proofs.Conformance
import ShEx.Proofs.Failures
import ShEx.Proofs.Correctness
import ShEx.Proofs.Repetition
import ShEx.Proofs.Typing
import ShEx.Proofs.Acceptance
import ShEx.Proofs.Anew
import ShEx.Proofs.ArcOrder
import ShEx.Proofs.Relisting
import ShEx.Proofs.RaisedLimits
import ShEx.Proofs.Completion
import ShEx.Proofs.UnknownResults
import ShEx.Proofs.Unwinding
import ShEx.Proofs.Calls
import ShEx.Proofs.RecursionDepth
import ShEx.Proofs.Clearing
import ShEx.Proofs.ConstraintAnswers
import ShEx.Proofs.Connectives
import ShEx.Proofs.Placement
import ShEx.Proofs.Redeclaration
import ShEx.Proofs.PostOrder
import ShEx.Proofs.LabelIndex
import ShEx.Proofs.Slots
import ShEx.Proofs.Filling
import ShEx.Proofs.Externals
import ShEx.Proofs.SearchCeiling
import ShEx.Proofs.Compilation
import ShEx.Proofs.Refusal
import ShEx.Proofs.Locality
import ShEx.Proofs.Relaxation
import ShEx.Proofs.References
import ShEx.Proofs.Patterns
import ShEx.Proofs.NumericForms
import ShEx.Proofs.DecimalValues
import ShEx.Proofs.DigitCounts
import ShEx.Proofs.Rounding
import ShEx.Proofs.ShortestDigits
import ShEx.Proofs.NumericValues
import ShEx.Proofs.NumericFacets
import ShEx.Proofs.WrittenNumbers
import ShEx.Proofs.NumericBounds
import ShEx.Proofs.NumeralValues
import ShEx.Proofs.DecimalDoubles
import ShEx.Proofs.BoundOrder
import ShEx.Proofs.WrittenBounds
import ShEx.Proofs.Reports
import ShEx.Proofs.LanguageTags
import ShEx.Proofs.JsonRecords
import ShEx.Proofs.Selection
import ShEx.Proofs.Origins
import ShEx.Proofs.Stems
import ShEx.Proofs.ConstraintParts
import ShEx.Proofs.QuotedPatterns
import ShEx.Proofs.Chains
import ShEx.Proofs.Copies
import ShEx.Proofs.DeclarationNumbers
