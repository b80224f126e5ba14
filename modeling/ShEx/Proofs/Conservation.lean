import ShEx.Proofs.Termination

/-!
# What evaluations conserve

Apart from its declarations, a session changes only where a constraint is evaluated.  So what the
evaluation of the constraints of some expressions keeps is kept by every evaluation of such an
expression (`Conserves.returns`), holds at every moment of it (`Conserves.moment`), and is kept by
requests about such expressions (`Conserves.respond`).
-/

set_option autoImplicit false

namespace ShEx

open ShEx.Rdf

variable {α : Type} {w : Setting}

namespace Setting

/-- The states before and behind the questions that an evaluation comes to, with the declarations in
progress there. -/
inductive Moment (w : Setting) (q₀ : Question) : List (Nat × Term) → Session → Prop
  | before {begun : List (Nat × Term)} {q : Question} (h : w.Amid q₀ begun q) :
      Moment w q₀ begun q.state
  | behind {begun : List (Nat × Term)} {q : Question} {r : Except Failure Bool} {u : Session}
      (h : w.Amid q₀ begun q) (hr : w.Returns q.expression q.node q.state r u) :
      Moment w q₀ begun u

/-- A property of what a session holds about constraints and patterns is kept by the constraints of
some expressions, and these lead to such expressions only. -/
structure Conserves (w : Setting) (Q : ShapeExpr → Prop) (I : Session → Prop) : Prop where
  embeds : ∀ e c, w.schema.Embeds e c → Q e → Q c
  declared : ∀ d ∈ w.schema.declarations, Q d.expression
  constraint : ∀ c node s r t, Q (.node c) → w.evaluateConstraint c node s = some (r, t) → I s → I t
  congr : ∀ s t : Session, t.constraints = s.constraints → t.patterns = s.patterns → I s → I t

namespace Conserves

variable {Q : ShapeExpr → Prop} {I : Session → Prop}

/-- Questions that a compound expression puts are about expressions of the same kind. -/
theorem mentions (h : w.Conserves Q I) {e e' : ShapeExpr} {node node' : Term} (he : Q e)
    (hc : e.isCompound) (hm : (w.inquiry e node).Mentions e' node') : Q e' :=
  h.embeds e e' (embeds_of_mentions hc hm).1 he

/-- A declaration that begins is of the same kind. -/
theorem entered (h : w.Conserves Q I) {label : Label} {node : Term} {s : Session} {index : Nat}
    {d : Declaration} (he : w.Enters label node s index d) : Q d.expression :=
  h.declared d (Schema.mem_of_find? he.known).1

/-- The property does not depend on declarations, so beginning one keeps it. -/
theorem enter (h : w.Conserves Q I) {s : Session} (hs : I s) (index : Nat) (node : Term) :
    I (s.enter index node) := h.congr s _ rfl rfl hs

/-- Every evaluation that returns keeps the property, whether it ends with an answer or with a
failure. -/
theorem returns (h : w.Conserves Q I) {e : ShapeExpr} {node : Term} {s t : Session}
    {r : Except Failure Bool} (hr : w.Returns e node s r t) (he : Q e) (hs : I s) : I t := by
  have key : Q e → I s → I t := by
    refine hr.induct (motive := fun e _ s _ t => Q e → I s → I t)
      fun e node s r t hstep he hs => ?_
    cases hstep with
    | compound hc hq =>
      exact hq.invariant (Q := fun e _ => Q e) (fun _ _ _ _ _ hr => hr.2)
        (fun _ _ hm => h.mentions he hc hm) hs
    | constraint hc => exact h.constraint _ _ _ _ _ he hc hs
    | unknown _ => exact hs
    | held _ _ => exact hs
    | refused _ _ _ => exact hs
    | tooDeep _ _ _ _ => exact hs
    | @settled _ _ _ u _ _ _ hent hr =>
      exact h.congr u _ rfl rfl (hr.2 (h.entered hent) (h.enter hs _ _))
    | @abandoned _ _ _ u _ _ _ hent hr =>
      exact h.congr u _ rfl rfl (hr.2 (h.entered hent) (h.enter hs _ _))
  exact key he hs

/-- What is conserved holds where an inquiry puts its questions. -/
theorem reaches (h : w.Conserves Q I) {q : Inquiry α} (hq : ∀ e node, q.Mentions e node → Q e)
    {s t : Session} {e : ShapeExpr} {node : Term} (hr : q.Reaches w.Returns s e node t)
    (hs : I s) : I t := by
  induction q generalizing s with
  | done a => exact hr.elim
  | failed failure => exact hr.elim
  | ask e' node' next ih =>
    rcases hr with ⟨-, -, rfl⟩ | ⟨b, u, hb, hrest⟩
    · exact hs
    · have hu := h.returns hb (hq e' node' (.inl ⟨rfl, rfl⟩)) hs
      exact ih b (fun e node hm => hq e node (.inr ⟨b, hm⟩)) hrest hu

/-- Whatever question an evaluation comes to is of the kind, and finds a state with the property. -/
theorem amid (h : w.Conserves Q I) {q₀ q : Question} {begun : List (Nat × Term)}
    (hamid : w.Amid q₀ begun q) (he : Q q₀.expression) (hs : I q₀.state) :
    Q q.expression ∧ I q.state := by
  induction hamid with
  | start => exact ⟨he, hs⟩
  | compound _ hc hq ih =>
    exact ⟨h.mentions ih.1 hc hq.mentions, h.reaches (fun _ _ hm => h.mentions ih.1 hc hm) hq ih.2⟩
  | declaration _ hent ih => exact ⟨h.entered hent, h.enter ih.2 _ _⟩

/-- The property holds before and behind every question that an evaluation comes to. -/
theorem moment (h : w.Conserves Q I) {q₀ : Question} {begun : List (Nat × Term)} {u : Session}
    (hu : w.Moment q₀ begun u) (he : Q q₀.expression) (hs : I q₀.state) : I u := by
  cases hu with
  | before hamid => exact (h.amid hamid he hs).2
  | behind hamid hr =>
    obtain ⟨hq, hstate⟩ := h.amid hamid he hs
    exact h.returns hr hq hstate

/-- A response to a request keeps the property if the question it puts, if any, is of the kind. -/
theorem respond (h : w.Conserves Q I) {s t : Session} {q : Request} {r : Except Failure Bool}
    (hr : s.respond w q = some (r, t)) (hq : ∀ e node, w.question? q = some (e, node) → Q e)
    (hs : I s) : I t := by
  rcases Session.respond_cases hr with ⟨e, node, hquestion, hr⟩ | ⟨-, -, rfl⟩
  · exact h.returns hr (hq e node hquestion) hs
  · exact hs

end Conserves

end Setting

end ShEx
