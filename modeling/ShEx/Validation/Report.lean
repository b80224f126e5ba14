import ShEx.ShapeMap.Basic
import ShEx.Validation.Evaluation

/-!
# Reports

Asking about many pairs of nodes and shapes in one session gives a report: the outcome for each
pair, in their order.  A failure is an outcome of its pair and does not stop the others, unless
one asks to stop at the first outcome that is not conformant.
-/

set_option autoImplicit false

namespace ShEx

open ShEx.Rdf

/-- The outcome for one pair. -/
inductive Outcome where
  | conformant
  | nonconformant
  | failed (failure : Failure)
deriving DecidableEq

namespace Outcome

/-- The outcome of a question. -/
def ofResult : Except Failure Bool → Outcome
  | .ok true => .conformant
  | .ok false => .nonconformant
  | .error f => .failed f

/-- Does the node conform? -/
def isConformant (o : Outcome) : Bool := o = .conformant

/-- The failure, if there is one. -/
def failure? : Outcome → Option Failure
  | .failed f => some f
  | _ => none

/-- The last part of a written result. -/
def text : Outcome → String
  | .conformant => "passed"
  | .nonconformant => "failed"
  | .failed f => "error: " ++ f.message

end Outcome

/-- A pair with its outcome. -/
structure AssociationResult where
  pair : FixedAssociation
  outcome : Outcome
deriving DecidableEq

/-- The written form of a result: `node@shape outcome`. -/
def AssociationResult.written (r : AssociationResult) : String :=
  r.pair.node.written ++ "@" ++ r.pair.target.written ++ " " ++ r.outcome.text

/-- The results of a list of pairs. -/
abbrev Report := List AssociationResult

/-- Do all nodes conform? -/
def Report.conforms (r : Report) : Bool := List.all r fun x => x.outcome.isConformant

/-- The results that are not conformant. -/
def Report.failures (r : Report) : List AssociationResult :=
  List.filter (fun x => !x.outcome.isConformant) r

/-- Asks about a list of pairs one after the other, and stops behind the first that does not
conform if `failFast` is set.  Nothing if an evaluation does not end. -/
def Session.validateAll (w : Setting) (failFast : Bool) :
    List FixedAssociation → Session → Option (Report × Session)
  | [], s => some ([], s)
  | pair :: rest, s =>
    match s.validate w pair.node pair.target.label? with
    | none => none
    | some (result, s) =>
      let r : AssociationResult := ⟨pair, .ofResult result⟩
      if failFast && !r.outcome.isConformant then some ([r], s)
      else (Session.validateAll w failFast rest s).map fun (report, s) => (r :: report, s)

end ShEx
