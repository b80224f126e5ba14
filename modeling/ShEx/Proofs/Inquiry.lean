import ShEx.Validation.Evaluation

/-!
# Evaluations as inquiries

What `step` does with a compound expression is to ask for other expressions at other nodes, one
after the other, and to draw a conclusion from the answers.  An `Inquiry` is this course of
questions as a tree: the state of the session is not part of it.  Each function of
`Validation.Evaluation` that is written over an evaluator is the run of an inquiry
(`step_of_compound`), so a fact about all evaluations is proved by induction on a tree with three
constructors.

What an inquiry can ask for at all is what stands in the tree (`Mentions`): the operands of the
expression at the same node (`mentions_anyInquiry`, `mentions_allInquiry`), or the value expressions
of slots at the other ends of arcs (`Setting.mentions_shapeInquiry`).
-/

set_option autoImplicit false

namespace ShEx

open ShEx.Rdf

variable {α β : Type}

/-! ## Computations in a session -/

namespace Evaluation

/-- A computation followed by another one, state by state. -/
theorem bind_apply (x : Evaluation α) (f : α → Evaluation β) (s : Session) :
    (x >>= f) s =
      match x s with
      | none => none
      | some (.ok a, t) => f a t
      | some (.error e, t) => some (.error e, t) := by
  show (x s >>= _) = _
  cases x s with
  | none => rfl
  | some result =>
    obtain ⟨r, t⟩ := result
    cases r <;> rfl

/-- A computation that only returns leaves the state alone. -/
@[simp]
theorem pure_apply (a : α) (s : Session) : (pure a : Evaluation α) s = some (.ok a, s) := rfl

/-- A computation that only fails leaves the state alone. -/
@[simp]
theorem fail_apply (f : Failure) (s : Session) :
    (fail f : Evaluation α) s = some (.error f, s) := rfl

end Evaluation

/-! ## Inquiries -/

/-- The questions that an evaluation asks, each one chosen by the answers to those before, and what
it concludes from them. -/
inductive Inquiry (α : Type) where
  | done (answer : α)
  | failed (failure : Failure)
  | ask (e : ShapeExpr) (node : Term) (next : Bool → Inquiry α)

namespace Inquiry

/-- An inquiry continued with its conclusion. -/
def andThen : Inquiry α → (α → Inquiry β) → Inquiry β
  | .done a, f => f a
  | .failed failure, _ => .failed failure
  | .ask e node next, f => .ask e node fun b => (next b).andThen f

instance : Monad Inquiry where
  pure := .done
  bind := andThen

/-- The inquiry of one question. -/
def question (e : ShapeExpr) (node : Term) : Inquiry Bool := .ask e node .done

/-- The inquiry without a question that ends with a given result. -/
def ofExcept : Except Failure α → Inquiry α
  | .ok a => .done a
  | .error failure => .failed failure

/-- The inquiry that fails if a feature is asked for that is not supported. -/
def rejectIf (asked : Bool) (feature : Feature) : Inquiry Unit :=
  if asked then .failed (.notImplemented feature) else .done ()

/-- The computation that puts the questions to an evaluator. -/
def run (eval : Evaluator) : Inquiry α → Evaluation α
  | .done a => pure a
  | .failed failure => Evaluation.fail failure
  | .ask e node next => do run eval (next (← eval e node))

/-- Continuing an inquiry continues its run. -/
theorem run_bind (eval : Evaluator) (q : Inquiry α) (f : α → Inquiry β) :
    (q >>= f).run eval = q.run eval >>= fun a => (f a).run eval := by
  induction q with
  | done a => rfl
  | failed failure => rfl
  | ask e node next ih =>
    have hnext : ∀ b, ((next b).andThen f).run eval =
        (next b).run eval >>= fun a => (f a).run eval := ih
    show (eval e node >>= fun b => ((next b).andThen f).run eval) = _
    simp only [hnext]
    exact (bind_assoc (eval e node) (fun b => (next b).run eval) _).symm

/-- An inquiry that is concluded is run without a question. -/
@[simp]
theorem run_pure (eval : Evaluator) (a : α) : (pure a : Inquiry α).run eval = pure a := rfl

/-- A single question is run by asking it. -/
@[simp]
theorem run_question (eval : Evaluator) (e : ShapeExpr) (node : Term) :
    (question e node).run eval = eval e node := by
  show (eval e node >>= fun b => pure b) = eval e node
  simp

/-- An inquiry without questions is run as what it is. -/
@[simp]
theorem run_ofExcept (eval : Evaluator) (x : Except Failure α) :
    (ofExcept x).run eval = Evaluation.ofExcept x := by
  cases x <;> rfl

/-- Refusing a feature puts no question. -/
@[simp]
theorem run_rejectIf (eval : Evaluator) (asked : Bool) (feature : Feature) :
    (rejectIf asked feature).run eval = Evaluation.rejectIf asked feature := by
  cases asked <;> rfl

end Inquiry

/-! ## The inquiries of shape expressions -/

/-- Does the value expression of a triple constraint, if there is one, hold at the other end of an
arc? -/
def valueInquiry (t : TripleConstraint) (arc : Arc) : Inquiry Bool :=
  match t.value with
  | none => pure true
  | some e => Inquiry.question e arc.neighbour

/-- The slots, numbered from `i` on, that an arc is eligible for. -/
def slotInquiry (arc : Arc) : Nat → List TripleConstraint → Inquiry (List Choice)
  | _, [] => pure []
  | i, t :: rest =>
    if t.concerns arc then do
      let admitted ← valueInquiry t arc
      let others ← slotInquiry arc (i + 1) rest
      pure (if admitted then .slot i :: others else others)
    else slotInquiry arc (i + 1) rest

/-- The options of each arc that has to go somewhere; none if an outgoing arc cannot. -/
def arcInquiry (shape : Shape) (slots : List TripleConstraint) :
    List Arc → Inquiry (Option (List (List Choice)))
  | [] => pure (some [])
  | arc :: rest => do
    let eligible ← slotInquiry arc 0 slots
    if arc.inverse then
      let items ← arcInquiry shape slots rest
      pure (if eligible.isEmpty then items else items.map (eligible :: ·))
    else
      let options :=
        if shape.allowsExtra slots arc.predicate then eligible ++ [.extra] else eligible
      if options.isEmpty then pure none
      else
        let items ← arcInquiry shape slots rest
        pure (items.map (options :: ·))

/-- Does one of several expressions hold? -/
def anyInquiry (node : Term) : List ShapeExpr → Inquiry Bool
  | [] => pure false
  | e :: rest => do
    if ← Inquiry.question e node then pure true else anyInquiry node rest

/-- Do all of several expressions hold? -/
def allInquiry (node : Term) : List ShapeExpr → Inquiry Bool
  | [] => pure true
  | e :: rest => do
    if ← Inquiry.question e node then allInquiry node rest else pure false

/-- Is an expression made of others, and not answered by a constraint or a declaration? -/
def ShapeExpr.isCompound : ShapeExpr → Bool
  | .node _ => false
  | .ref _ => false
  | _ => true

namespace Setting

/-- Does a node have the arcs that a shape asks for? -/
def shapeInquiry (w : Setting) (shape : Shape) (node : Term) : Inquiry Bool := do
  Inquiry.rejectIf (!shape.acts.isEmpty) .semanticActions
  Inquiry.rejectIf (!shape.extended.isEmpty) .extension
  Inquiry.rejectIf (!shape.restricted.isEmpty) .restriction
  let (formula, slots) ← Inquiry.ofExcept (w.schema.compile shape.expression)
  match ← arcInquiry shape slots (w.arcsOf slots node) with
  | none => pure false
  | some items =>
    Inquiry.ofExcept (decideAssignment w.limits.maxSearchSpace formula slots items)

/-- The inquiry of a compound expression at a node; an expression of another kind is one question
to itself. -/
def inquiry (w : Setting) : ShapeExpr → Term → Inquiry Bool
  | .or operands, node => anyInquiry node operands
  | .and operands, node => allInquiry node operands
  | .not operand, node => do pure (!(← Inquiry.question operand node))
  | .shape s, node => w.shapeInquiry s node
  | .external, _ => .failed (.notImplemented .externalShapes)
  | .node c, node => Inquiry.question (.node c) node
  | .ref label, node => Inquiry.question (.ref label) node

/-- Running the inquiry about the slots of an arc evaluates which of them are eligible. -/
theorem run_slotInquiry (eval : Evaluator) (arc : Arc) (i : Nat) (slots : List TripleConstraint) :
    (slotInquiry arc i slots).run eval = eligibleSlots eval arc i slots := by
  induction slots generalizing i with
  | nil => rfl
  | cons t rest ih =>
    unfold slotInquiry eligibleSlots valueInquiry
    split
    · cases t.value with
      | none => simp only [Inquiry.run_bind, Inquiry.run_pure, ih, pure_bind]
      | some e => simp only [Inquiry.run_bind, Inquiry.run_question, Inquiry.run_pure, ih]
    · exact ih (i + 1)

/-- Running the inquiry about all arcs evaluates their options. -/
theorem run_arcInquiry (eval : Evaluator) (shape : Shape) (slots : List TripleConstraint)
    (arcs : List Arc) :
    (arcInquiry shape slots arcs).run eval = arcOptions eval shape slots arcs := by
  induction arcs with
  | nil => rfl
  | cons arc rest ih =>
    unfold arcInquiry arcOptions
    rw [Inquiry.run_bind, run_slotInquiry]
    congr 1
    funext eligible
    split
    · rw [Inquiry.run_bind, ih]
      rfl
    · generalize (if shape.allowsExtra slots arc.predicate then eligible ++ [.extra]
        else eligible) = options
      dsimp only
      split
      · rfl
      · rw [Inquiry.run_bind, ih]
        rfl

/-- Running the inquiry of a disjunction evaluates its operands up to the first one that holds. -/
theorem run_anyInquiry (eval : Evaluator) (node : Term) (operands : List ShapeExpr) :
    (anyInquiry node operands).run eval = evaluateAny eval node operands := by
  induction operands with
  | nil => rfl
  | cons e rest ih =>
    unfold anyInquiry evaluateAny
    rw [Inquiry.run_bind, Inquiry.run_question]
    congr 1
    funext b
    cases b
    · exact ih
    · rfl

/-- Running the inquiry of a conjunction evaluates its operands up to the first one that does not
hold. -/
theorem run_allInquiry (eval : Evaluator) (node : Term) (operands : List ShapeExpr) :
    (allInquiry node operands).run eval = evaluateAll eval node operands := by
  induction operands with
  | nil => rfl
  | cons e rest ih =>
    unfold allInquiry evaluateAll
    rw [Inquiry.run_bind, Inquiry.run_question]
    congr 1
    funext b
    cases b
    · rfl
    · exact ih

/-- Running the inquiry of a shape evaluates the shape. -/
theorem run_shapeInquiry (w : Setting) (eval : Evaluator) (shape : Shape) (node : Term) :
    (w.shapeInquiry shape node).run eval = w.evaluateShape eval shape node := by
  unfold shapeInquiry evaluateShape
  simp only [Inquiry.run_bind, Inquiry.run_rejectIf, Inquiry.run_ofExcept, run_arcInquiry]
  congr 1
  funext _
  congr 1
  funext _
  congr 1
  funext _
  congr 1
  funext compiled
  congr 1
  funext options
  cases options <;> simp

/-- One step of the evaluation of a compound expression is the run of its inquiry. -/
theorem step_of_compound (w : Setting) (eval : Evaluator) {e : ShapeExpr} (node : Term)
    (h : e.isCompound) : w.step eval e node = (w.inquiry e node).run eval := by
  cases e with
  | or operands => exact (run_anyInquiry eval node operands).symm
  | and operands => exact (run_allInquiry eval node operands).symm
  | not operand =>
    unfold step inquiry
    rw [Inquiry.run_bind, Inquiry.run_question]
    rfl
  | shape s => exact (w.run_shapeInquiry eval s node).symm
  | external => rfl
  | node c => simp [ShapeExpr.isCompound] at h
  | ref label => simp [ShapeExpr.isCompound] at h

end Setting

/-! ## The stages of a shape -/

/-- The formula and the slots of a shape, unless a part of it is not supported. -/
def Schema.compileShape (s : Schema) (shape : Shape) : Except Failure Compiled :=
  if !shape.acts.isEmpty then .error (.notImplemented .semanticActions)
  else if !shape.extended.isEmpty then .error (.notImplemented .extension)
  else if !shape.restricted.isEmpty then .error (.notImplemented .restriction)
  else s.compile shape.expression

/-- A shape that is compiled is compiled as its triple expression, since nothing else of it was
refused. -/
theorem Schema.compile_of_compileShape {s : Schema} {shape : Shape} {compiled : Compiled}
    (h : s.compileShape shape = .ok compiled) : s.compile shape.expression = .ok compiled := by
  unfold compileShape at h
  split at h
  · cases h
  split at h
  · cases h
  split at h
  · cases h
  exact h

/-- What a shape concludes from the options of its arcs. -/
def concludeArcs (limit : Nat) (f : Formula) (slots : List TripleConstraint) :
    Option (List (List Choice)) → Inquiry Bool
  | none => .done false
  | some items => .ofExcept (decideAssignment limit f slots items)

/-- A shape is compiled, asks about the arcs around the node and concludes. -/
theorem Setting.shapeInquiry_eq (w : Setting) (shape : Shape) (node : Term) :
    w.shapeInquiry shape node =
      Inquiry.ofExcept (w.schema.compileShape shape) >>= fun compiled =>
        arcInquiry shape compiled.2 (w.arcsOf compiled.2 node) >>=
          concludeArcs w.limits.maxSearchSpace compiled.1 compiled.2 := by
  unfold shapeInquiry Schema.compileShape
  cases !shape.acts.isEmpty with
  | true => rfl
  | false =>
    cases !shape.extended.isEmpty with
    | true => rfl
    | false => cases !shape.restricted.isEmpty <;> rfl

/-! ## What can be asked -/

/-- An inquiry has a question somewhere. -/
def Inquiry.Mentions : Inquiry α → ShapeExpr → Term → Prop
  | .done _, _, _ => False
  | .failed _, _, _ => False
  | .ask e node next, e', node' => (e' = e ∧ node' = node) ∨ ∃ b, (next b).Mentions e' node'

/-- The run of an inquiry depends on the evaluator only where the inquiry has a question. -/
theorem Inquiry.run_congr {eval eval' : Evaluator} {q : Inquiry α}
    (h : ∀ e node, q.Mentions e node → eval e node = eval' e node) :
    q.run eval = q.run eval' := by
  induction q with
  | done a => rfl
  | failed failure => rfl
  | ask e node next ih =>
    have hnext : (fun b => (next b).run eval) = fun b => (next b).run eval' := by
      funext b
      exact ih b fun e' node' hm => h e' node' (.inr ⟨b, hm⟩)
    show (eval e node >>= fun b => (next b).run eval) = _
    rw [h e node (.inl ⟨rfl, rfl⟩), hnext]
    rfl

/-- What two inquiries one after the other mention is mentioned by one of them. -/
theorem Inquiry.mentions_bind {q : Inquiry α} {f : α → Inquiry β} {e : ShapeExpr} {node : Term}
    (h : (q >>= f).Mentions e node) : q.Mentions e node ∨ ∃ a, (f a).Mentions e node := by
  induction q with
  | done a => exact .inr ⟨a, h⟩
  | failed failure => exact h.elim
  | ask e' node' next ih =>
    rcases h with h | ⟨b, h⟩
    · exact .inl (.inl h)
    · exact (ih b h).imp (fun h => .inr ⟨b, h⟩) id

/-- The inquiry about the slots of an arc mentions only value expressions of slots that speak about
the arc, at its other end. -/
theorem mentions_slotInquiry {arc : Arc} {i : Nat} {slots : List TripleConstraint} {e : ShapeExpr}
    {node : Term} (h : (slotInquiry arc i slots).Mentions e node) :
    node = arc.neighbour ∧ ∃ t ∈ slots, t.concerns arc ∧ t.value = some e := by
  induction slots generalizing i with
  | nil => exact h.elim
  | cons t rest ih =>
    have hrest : (slotInquiry arc (i + 1) rest).Mentions e node →
        node = arc.neighbour ∧ ∃ t' ∈ t :: rest, t'.concerns arc ∧ t'.value = some e := by
      intro h
      obtain ⟨hn, t', ht', h⟩ := ih h
      exact ⟨hn, t', List.mem_cons_of_mem _ ht', h⟩
    unfold slotInquiry at h
    split at h
    · next hc =>
      rcases Inquiry.mentions_bind h with h | ⟨admitted, h⟩
      · unfold valueInquiry at h
        cases hv : t.value with
        | none =>
          rw [hv] at h
          exact h.elim
        | some v =>
          rw [hv] at h
          rcases h with ⟨rfl, rfl⟩ | ⟨_, h⟩
          · exact ⟨rfl, t, List.mem_cons_self, hc, hv⟩
          · exact h.elim
      · rcases Inquiry.mentions_bind h with h | ⟨others, h⟩
        · exact hrest h
        · exact h.elim
    · exact hrest h

/-- The inquiry about all arcs mentions only value expressions of slots that speak about one of
them, at its other end. -/
theorem mentions_arcInquiry {shape : Shape} {slots : List TripleConstraint} {arcs : List Arc}
    {e : ShapeExpr} {node : Term} (h : (arcInquiry shape slots arcs).Mentions e node) :
    ∃ arc ∈ arcs, ∃ t ∈ slots, t.concerns arc ∧ t.value = some e ∧ node = arc.neighbour := by
  induction arcs with
  | nil => exact h.elim
  | cons arc rest ih =>
    have hrest : (arcInquiry shape slots rest).Mentions e node → ∃ arc' ∈ arc :: rest,
        ∃ t ∈ slots, t.concerns arc' ∧ t.value = some e ∧ node = arc'.neighbour := by
      intro h
      obtain ⟨arc', ha, h⟩ := ih h
      exact ⟨arc', List.mem_cons_of_mem _ ha, h⟩
    unfold arcInquiry at h
    rcases Inquiry.mentions_bind h with h | ⟨eligible, h⟩
    · obtain ⟨hn, t, ht, hc, hv⟩ := mentions_slotInquiry h
      exact ⟨arc, List.mem_cons_self, t, ht, hc, hv, hn⟩
    · dsimp only at h
      split at h
      · rcases Inquiry.mentions_bind h with h | ⟨items, h⟩
        · exact hrest h
        · exact h.elim
      · generalize (if shape.allowsExtra slots arc.predicate then eligible ++ [.extra]
          else eligible) = options at h
        split at h
        · exact h.elim
        · rcases Inquiry.mentions_bind h with h | ⟨items, h⟩
          · exact hrest h
          · exact h.elim

/-- A disjunction mentions its operands at the node. -/
theorem mentions_anyInquiry {node : Term} {operands : List ShapeExpr} {e : ShapeExpr}
    {node' : Term} (h : (anyInquiry node operands).Mentions e node') :
    e ∈ operands ∧ node' = node := by
  induction operands with
  | nil => exact h.elim
  | cons e' rest ih =>
    unfold anyInquiry at h
    rcases Inquiry.mentions_bind h with (⟨rfl, rfl⟩ | ⟨_, h⟩) | ⟨b, h⟩
    · exact ⟨List.mem_cons_self, rfl⟩
    · exact h.elim
    · cases b
      · exact (ih h).imp (List.mem_cons_of_mem _) id
      · exact h.elim

/-- A conjunction mentions its operands at the node. -/
theorem mentions_allInquiry {node : Term} {operands : List ShapeExpr} {e : ShapeExpr}
    {node' : Term} (h : (allInquiry node operands).Mentions e node') :
    e ∈ operands ∧ node' = node := by
  induction operands with
  | nil => exact h.elim
  | cons e' rest ih =>
    unfold allInquiry at h
    rcases Inquiry.mentions_bind h with (⟨rfl, rfl⟩ | ⟨_, h⟩) | ⟨b, h⟩
    · exact ⟨List.mem_cons_self, rfl⟩
    · exact h.elim
    · cases b
      · exact h.elim
      · exact (ih h).imp (List.mem_cons_of_mem _) id

/-- An inquiry without questions mentions nothing. -/
theorem Inquiry.not_mentions_ofExcept {x : Except Failure α} {e : ShapeExpr} {node : Term} :
    ¬(Inquiry.ofExcept x).Mentions e node := by
  cases x <;> exact id

/-- The inquiry of a shape mentions only value expressions of its slots, at the other ends of arcs
around the node that these speak about. -/
theorem Setting.mentions_shapeInquiry {w : Setting} {shape : Shape} {node : Term} {e : ShapeExpr}
    {node' : Term} (h : (w.shapeInquiry shape node).Mentions e node') :
    ∃ f slots, w.schema.compile shape.expression = .ok (f, slots) ∧ ∃ arc ∈ w.arcsOf slots node,
      ∃ t ∈ slots, t.concerns arc ∧ t.value = some e ∧ node' = arc.neighbour := by
  rw [shapeInquiry_eq] at h
  cases hc : w.schema.compileShape shape with
  | error failure =>
    rw [hc] at h
    exact h.elim
  | ok compiled =>
    obtain ⟨f, slots⟩ := compiled
    rw [hc] at h
    refine ⟨f, slots, Schema.compile_of_compileShape hc, ?_⟩
    rcases Inquiry.mentions_bind (q := arcInquiry shape slots (w.arcsOf slots node)) h
      with h | ⟨options, h⟩
    · exact mentions_arcInquiry h
    · cases options with
      | none => exact h.elim
      | some items => exact (Inquiry.not_mentions_ofExcept h).elim

end ShEx
