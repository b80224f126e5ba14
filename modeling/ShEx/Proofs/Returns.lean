import ShEx.Proofs.Inquiry

/-!
# Evaluations that return

`Returns` says that an evaluation ends with a result and a state, whatever nesting it needs.  It is
the least relation that is closed under one step (`returns_iff`, `Returns.induct`), and the step is
given by cases (`OneStep`): a compound expression follows its inquiry, a constraint is looked up or
evaluated, and a reference is unknown, answered, refused, too deep, settled or abandoned.
-/

set_option autoImplicit false

namespace ShEx

open ShEx.Rdf

variable {α : Type}

/-- A relation between a question, the state in which it is asked, its result and the state behind
it. -/
abbrev Answering := ShapeExpr → Term → Session → Except Failure Bool → Session → Prop

/-- What an evaluator answers. -/
def Evaluator.Gives (eval : Evaluator) : Answering := fun e node s r t =>
  eval e node s = some (r, t)

namespace Inquiry

/-- The results of an inquiry, and the states behind it, if its questions are answered by a
relation. -/
def Follows (R : Answering) : Inquiry α → Session → Except Failure α → Session → Prop
  | .done a, s, r, t => r = .ok a ∧ t = s
  | .failed failure, s, r, t => r = .error failure ∧ t = s
  | .ask e node next, s, r, t =>
    (∃ b u, R e node s (.ok b) u ∧ (next b).Follows R u r t) ∨
      ∃ failure, R e node s (.error failure) t ∧ r = .error failure

/-- The questions that an inquiry comes to, with the states in which it asks them. -/
def Reaches (R : Answering) : Inquiry α → Session → ShapeExpr → Term → Session → Prop
  | .done _, _, _, _, _ => False
  | .failed _, _, _, _, _ => False
  | .ask e node next, s, e', node', t =>
    (e' = e ∧ node' = node ∧ t = s) ∨
      ∃ b u, R e node s (.ok b) u ∧ (next b).Reaches R u e' node' t

/-- What an inquiry does by some answers, it does by more of them. -/
theorem Follows.mono {R R' : Answering} (h : ∀ e node s r t, R e node s r t → R' e node s r t)
    {q : Inquiry α} {s : Session} {r : Except Failure α} {t : Session}
    (hq : q.Follows R s r t) : q.Follows R' s r t := by
  induction q generalizing s with
  | done a => exact hq
  | failed failure => exact hq
  | ask e node next ih =>
    rcases hq with ⟨b, u, hb, hrest⟩ | ⟨failure, hf, rfl⟩
    · exact .inl ⟨b, u, h _ _ _ _ _ hb, ih b hrest⟩
    · exact .inr ⟨failure, h _ _ _ _ _ hf, rfl⟩

/-- An inquiry that comes to a conclusion is continued from the state behind it. -/
theorem Follows.bind {β : Type} {R : Answering} {q : Inquiry α} {f : α → Inquiry β}
    {s t u : Session} {a : α} {r : Except Failure β} (hq : q.Follows R s (.ok a) u)
    (hf : (f a).Follows R u r t) : (q >>= f).Follows R s r t := by
  induction q generalizing s with
  | done a' =>
    obtain ⟨ha, rfl⟩ := hq
    cases ha
    exact hf
  | failed failure => cases hq.1
  | ask e node next ih =>
    rcases hq with ⟨b, v, hb, hrest⟩ | ⟨failure, -, hfailed⟩
    · exact .inl ⟨b, v, hb, ih b hrest⟩
    · cases hfailed

/-- An inquiry that is continued with its conclusion comes to a conclusion if both parts do. -/
theorem follows_bind_ok {β : Type} {R : Answering} {q : Inquiry α} {f : α → Inquiry β}
    {s t : Session} {b : β} :
    (q >>= f).Follows R s (.ok b) t ↔
      ∃ a u, q.Follows R s (.ok a) u ∧ (f a).Follows R u (.ok b) t := by
  constructor
  · intro h
    induction q generalizing s with
    | done a => exact ⟨a, s, ⟨rfl, rfl⟩, h⟩
    | failed failure => cases h.1
    | ask e node next ih =>
      rcases h with ⟨c, v, hc, hrest⟩ | ⟨failure, -, hfailed⟩
      · obtain ⟨a, u, hq, hf⟩ := ih c hrest
        exact ⟨a, u, .inl ⟨c, v, hc, hq⟩, hf⟩
      · cases hfailed
  · rintro ⟨a, u, hq, hf⟩
    exact hq.bind hf

/-- What the questions of an inquiry keep, the inquiry keeps. -/
theorem Follows.invariant {R : Answering} {I : Session → Prop} {Q : ShapeExpr → Term → Prop}
    (hR : ∀ e node s r t, R e node s r t → Q e node → I s → I t) {q : Inquiry α}
    (hq : ∀ e node, q.Mentions e node → Q e node) {s t : Session} {r : Except Failure α}
    (h : q.Follows R s r t) (hs : I s) : I t := by
  induction q generalizing s with
  | done a =>
    obtain ⟨-, rfl⟩ := h
    exact hs
  | failed failure =>
    obtain ⟨-, rfl⟩ := h
    exact hs
  | ask e node next ih =>
    have he := hq e node (.inl ⟨rfl, rfl⟩)
    rcases h with ⟨b, u, hb, hrest⟩ | ⟨failure, hf, -⟩
    · exact ih b (fun e' node' hm => hq e' node' (.inr ⟨b, hm⟩)) hrest (hR _ _ _ _ _ hb he hs)
    · exact hR _ _ _ _ _ hf he hs

/-- The run of an inquiry follows it. -/
theorem run_eq_some_iff (eval : Evaluator) (q : Inquiry α) (s : Session) (r : Except Failure α)
    (t : Session) : q.run eval s = some (r, t) ↔ q.Follows eval.Gives s r t := by
  induction q generalizing s with
  | done a =>
    simp only [run, Evaluation.pure_apply, Follows, Option.some.injEq, Prod.mk.injEq]
    exact and_congr eq_comm eq_comm
  | failed failure =>
    simp only [run, Evaluation.fail_apply, Follows, Option.some.injEq, Prod.mk.injEq]
    exact and_congr eq_comm eq_comm
  | ask e node next ih =>
    simp only [run, Evaluation.bind_apply, Follows, Evaluator.Gives]
    cases hs : eval e node s with
    | none => simp
    | some result =>
      obtain ⟨r', u⟩ := result
      cases r' with
      | ok b =>
        simp only [ih, Option.some.injEq, Prod.mk.injEq, Except.ok.injEq, reduceCtorEq, false_and,
          exists_false, or_false]
        constructor
        · intro h
          exact ⟨b, u, ⟨rfl, rfl⟩, h⟩
        · rintro ⟨_, _, ⟨rfl, rfl⟩, h⟩
          exact h
      | error failure =>
        simp only [Option.some.injEq, Prod.mk.injEq, reduceCtorEq, false_and, exists_false,
          false_or, Except.error.injEq]
        constructor
        · rintro ⟨rfl, rfl⟩
          exact ⟨failure, ⟨rfl, rfl⟩, rfl⟩
        · rintro ⟨_, ⟨rfl, rfl⟩, rfl⟩
          exact ⟨rfl, rfl⟩

/-- The run of an inquiry does not end if and only if it comes to a question whose evaluation does
not end. -/
theorem run_eq_none_iff (eval : Evaluator) (q : Inquiry α) (s : Session) :
    q.run eval s = none ↔
      ∃ e node t, q.Reaches eval.Gives s e node t ∧ eval e node t = none := by
  induction q generalizing s with
  | done a => simp [run, Reaches]
  | failed failure => simp [run, Reaches]
  | ask e node next ih =>
    simp only [run, Evaluation.bind_apply, Reaches, Evaluator.Gives]
    cases hs : eval e node s with
    | none => exact ⟨fun _ => ⟨e, node, s, .inl ⟨rfl, rfl, rfl⟩, hs⟩, fun _ => rfl⟩
    | some result =>
      obtain ⟨r, u⟩ := result
      cases r with
      | ok b =>
        simp only [ih, Option.some.injEq, Prod.mk.injEq, Except.ok.injEq]
        constructor
        · rintro ⟨e', node', t, hr, hn⟩
          exact ⟨e', node', t, .inr ⟨b, u, ⟨rfl, rfl⟩, hr⟩, hn⟩
        · rintro ⟨e', node', t, ⟨rfl, rfl, rfl⟩ | ⟨_, _, ⟨rfl, rfl⟩, hr⟩, hn⟩
          · rw [hs] at hn
            cases hn
          · exact ⟨e', node', t, hr, hn⟩
      | error failure =>
        simp only [reduceCtorEq, Option.some.injEq, Prod.mk.injEq, false_and, exists_false,
          or_false, false_iff]
        rintro ⟨e', node', t, ⟨rfl, rfl, rfl⟩, hn⟩
        rw [hs] at hn
        cases hn

end Inquiry

namespace Setting

variable (w : Setting)

/-! ## One step by cases -/

/-- The evaluation of a reference begins with its declaration: it is known, not answered, not
abstract and not too deep. -/
structure Enters (label : Label) (node : Term) (s : Session) (index : Nat) (d : Declaration) :
    Prop where
  known : w.schema.find? label = some (index, d)
  unanswered : s.declarations.answer? index node = none
  concrete : d.isAbstract = false
  shallow : s.depth < w.limits.maxRecursionDepth

/-- What one step of an evaluation does if the questions it asks are answered by a relation. -/
inductive OneStep (R : Answering) : Answering
  | compound {e : ShapeExpr} {node : Term} {s t : Session} {r : Except Failure Bool}
      (h : e.isCompound) (hq : (w.inquiry e node).Follows R s r t) : OneStep R e node s r t
  | constraint {c : NodeConstraint} {node : Term} {s t : Session} {r : Except Failure Bool}
      (h : w.evaluateConstraint c node s = some (r, t)) : OneStep R (.node c) node s r t
  | unknown {label : Label} {node : Term} {s : Session}
      (h : w.schema.find? label = none) : OneStep R (.ref label) node s (.ok false) s
  | held {label : Label} {node : Term} {s : Session} {index : Nat} {d : Declaration} {b : Bool}
      (h : w.schema.find? label = some (index, d))
      (ha : s.declarations.answer? index node = some b) : OneStep R (.ref label) node s (.ok b) s
  | refused {label : Label} {node : Term} {s : Session} {index : Nat} {d : Declaration}
      (h : w.schema.find? label = some (index, d))
      (ha : s.declarations.answer? index node = none) (hd : d.isAbstract = true) :
      OneStep R (.ref label) node s (.error (.notImplemented .abstractShapes)) s
  | tooDeep {label : Label} {node : Term} {s : Session} {index : Nat} {d : Declaration}
      (h : w.schema.find? label = some (index, d))
      (ha : s.declarations.answer? index node = none) (hd : d.isAbstract = false)
      (hm : w.limits.maxRecursionDepth ≤ s.depth) :
      OneStep R (.ref label) node s (.error (.recursionTooDeep s.depth)) s
  | settled {label : Label} {node : Term} {s t : Session} {index : Nat} {d : Declaration} {b : Bool}
      (h : w.Enters label node s index d)
      (hr : R d.expression node (s.enter index node) (.ok b) t) :
      OneStep R (.ref label) node s (.ok b) (t.settle index node b)
  | abandoned {label : Label} {node : Term} {s t : Session} {index : Nat} {d : Declaration}
      {f : Failure} (h : w.Enters label node s index d)
      (hr : R d.expression node (s.enter index node) (.error f) t) :
      OneStep R (.ref label) node s (.error f) (t.abandon index node)

variable {w}

/-- What one step does by some answers, it does by more of them. -/
theorem OneStep.mono {R R' : Answering} (h : ∀ e node s r t, R e node s r t → R' e node s r t)
    {e : ShapeExpr} {node : Term} {s t : Session} {r : Except Failure Bool}
    (hs : w.OneStep R e node s r t) : w.OneStep R' e node s r t := by
  cases hs with
  | compound hc hq => exact .compound hc (hq.mono h)
  | constraint hc => exact .constraint hc
  | unknown hl => exact .unknown hl
  | held hl ha => exact .held hl ha
  | refused hl ha hd => exact .refused hl ha hd
  | tooDeep hl ha hd hm => exact .tooDeep hl ha hd hm
  | settled he hr => exact .settled he (h _ _ _ _ _ hr)
  | abandoned he hr => exact .abandoned he (h _ _ _ _ _ hr)

/-- A declaration evaluated state by state. -/
theorem evaluateDeclaration_apply (eval : Evaluator) (index : Nat) (d : Declaration) (node : Term)
    (s : Session) :
    w.evaluateDeclaration eval index d node s =
      match s.declarations.answer? index node with
      | some b => some (.ok b, s)
      | none =>
        if d.isAbstract then some (.error (.notImplemented .abstractShapes), s)
        else if w.limits.maxRecursionDepth ≤ s.depth then
          some (.error (.recursionTooDeep s.depth), s)
        else settling index node (eval d.expression node) (s.enter index node) := by
  unfold evaluateDeclaration
  rw [Evaluation.bind_apply]
  show (match s.declarations.answer? index node with
    | some b => pure b
    | none => _ : Evaluation Bool) s = _
  cases s.declarations.answer? index node with
  | some b => rfl
  | none =>
    dsimp only
    rw [Evaluation.bind_apply]
    cases d.isAbstract with
    | true => rfl
    | false =>
      simp only [Evaluation.rejectIf, Bool.false_eq_true, if_false, Evaluation.pure_apply]
      split <;> rfl

/-- A reference evaluated state by state. -/
theorem evaluateReference_apply (eval : Evaluator) (label : Label) (node : Term) (s : Session) :
    w.evaluateReference eval label node s =
      match w.schema.find? label with
      | none => some (.ok false, s)
      | some (index, d) => w.evaluateDeclaration eval index d node s := by
  unfold evaluateReference
  cases w.schema.find? label <;> rfl

/-- Where the evaluation of a declaration begins, the declared expression is evaluated with the
answer that it holds, and the answer is settled behind it. -/
theorem evaluateReference_of_enters (eval : Evaluator) {label : Label} {node : Term} {s : Session}
    {index : Nat} {d : Declaration} (he : w.Enters label node s index d) :
    w.evaluateReference eval label node s =
      settling index node (eval d.expression node) (s.enter index node) := by
  simp only [evaluateReference_apply, evaluateDeclaration_apply, he.known, he.unanswered,
    he.concrete, Nat.not_le_of_lt he.shallow, Bool.false_eq_true, if_false]

/-- A reference that is evaluated takes one of the steps for references. -/
theorem oneStep_of_evaluateReference {eval : Evaluator} {label : Label} {node : Term}
    {s t : Session} {r : Except Failure Bool}
    (h : w.evaluateReference eval label node s = some (r, t)) :
    w.OneStep eval.Gives (.ref label) node s r t := by
  cases hl : w.schema.find? label with
  | none =>
    rw [evaluateReference_apply, hl] at h
    cases h
    exact .unknown hl
  | some entry =>
    obtain ⟨index, d⟩ := entry
    cases ha : s.declarations.answer? index node with
    | some b =>
      simp only [evaluateReference_apply, evaluateDeclaration_apply, hl, ha] at h
      cases h
      exact .held hl ha
    | none =>
      cases hd : d.isAbstract with
      | true =>
        simp only [evaluateReference_apply, evaluateDeclaration_apply, hl, ha, hd, if_true] at h
        cases h
        exact .refused hl ha hd
      | false =>
        by_cases hm : w.limits.maxRecursionDepth ≤ s.depth
        · simp only [evaluateReference_apply, evaluateDeclaration_apply, hl, ha, hd, hm,
            Bool.false_eq_true, if_false, if_true] at h
          cases h
          exact .tooDeep hl ha hd hm
        · have he : w.Enters label node s index d := ⟨hl, ha, hd, Nat.lt_of_not_le hm⟩
          rw [evaluateReference_of_enters eval he] at h
          unfold settling at h
          split at h
          · cases h
          · next b u hr =>
            cases h
            exact .settled he hr
          · next f u hr =>
            cases h
            exact .abandoned he hr

/-- The results of one step, by cases. -/
theorem step_eq_some_iff {eval : Evaluator} {e : ShapeExpr} {node : Term} {s t : Session}
    {r : Except Failure Bool} :
    w.step eval e node s = some (r, t) ↔ w.OneStep eval.Gives e node s r t := by
  constructor
  · intro h
    by_cases hc : e.isCompound
    · rw [w.step_of_compound eval node hc, Inquiry.run_eq_some_iff] at h
      exact .compound hc h
    · cases e with
      | node c => exact .constraint h
      | ref label => exact oneStep_of_evaluateReference h
      | _ => exact absurd rfl hc
  · intro h
    cases h with
    | compound hc hq =>
      rw [w.step_of_compound eval node hc, Inquiry.run_eq_some_iff]
      exact hq
    | constraint hc => exact hc
    | unknown hl =>
      show w.evaluateReference eval _ node s = _
      rw [evaluateReference_apply, hl]
    | held hl ha =>
      show w.evaluateReference eval _ node s = _
      simp only [evaluateReference_apply, evaluateDeclaration_apply, hl, ha]
    | refused hl ha hd =>
      show w.evaluateReference eval _ node s = _
      simp only [evaluateReference_apply, evaluateDeclaration_apply, hl, ha, hd, if_true]
    | tooDeep hl ha hd hm =>
      show w.evaluateReference eval _ node s = _
      simp only [evaluateReference_apply, evaluateDeclaration_apply, hl, ha, hd, hm,
        Bool.false_eq_true, if_false, if_true]
    | settled he hr =>
      show w.evaluateReference eval _ node s = _
      rw [evaluateReference_of_enters eval he, settling, hr]
    | abandoned he hr =>
      show w.evaluateReference eval _ node s = _
      rw [evaluateReference_of_enters eval he, settling, hr]

/-! ## Runs of any nesting -/

/-- More nesting does not change a result. -/
theorem evaluate_mono {m n : Nat} (h : m ≤ n) {e : ShapeExpr} {node : Term} {s t : Session}
    {r : Except Failure Bool} (he : w.evaluate m e node s = some (r, t)) :
    w.evaluate n e node s = some (r, t) := by
  induction m generalizing n e node s r t with
  | zero => cases he
  | succ m ih =>
    obtain ⟨n, rfl⟩ : ∃ k, n = k + 1 := ⟨n - 1, by omega⟩
    have hs : w.OneStep (w.evaluate m).Gives e node s r t := step_eq_some_iff.1 he
    exact step_eq_some_iff.2 (hs.mono fun _ _ _ _ _ hr => ih (by omega) hr)

variable (w) in
/-- The evaluation of an expression at a node, begun in a state, ends with a result and a state. -/
def Returns : Answering := fun e node s r t => ∃ n, w.evaluate n e node s = some (r, t)

/-- An inquiry whose questions are all answered with some nesting is answered with one nesting for
all of them. -/
theorem follows_returns {q : Inquiry α} {s t : Session} {r : Except Failure α}
    (h : q.Follows w.Returns s r t) : ∃ n, q.Follows (w.evaluate n).Gives s r t := by
  induction q generalizing s with
  | done a => exact ⟨0, h⟩
  | failed failure => exact ⟨0, h⟩
  | ask e node next ih =>
    rcases h with ⟨b, u, ⟨m, hb⟩, hrest⟩ | ⟨failure, ⟨m, hf⟩, rfl⟩
    · obtain ⟨n, hn⟩ := ih b hrest
      refine ⟨max m n, .inl ⟨b, u, evaluate_mono (Nat.le_max_left m n) hb, hn.mono ?_⟩⟩
      exact fun _ _ _ _ _ hr => evaluate_mono (Nat.le_max_right m n) hr
    · exact ⟨m, .inr ⟨failure, hf, rfl⟩⟩

/-- A step whose questions return is one that returns, and there is no other way to return. -/
theorem returns_iff {e : ShapeExpr} {node : Term} {s t : Session} {r : Except Failure Bool} :
    w.Returns e node s r t ↔ w.OneStep w.Returns e node s r t := by
  constructor
  · rintro ⟨n, hn⟩
    cases n with
    | zero => cases hn
    | succ n =>
      have hs : w.OneStep (w.evaluate n).Gives e node s r t := step_eq_some_iff.1 hn
      exact hs.mono fun _ _ _ _ _ hr => ⟨n, hr⟩
  · intro h
    have hn : ∃ n, w.OneStep (w.evaluate n).Gives e node s r t := by
      cases h with
      | compound hc hq =>
        obtain ⟨n, hn⟩ := follows_returns hq
        exact ⟨n, .compound hc hn⟩
      | constraint hc => exact ⟨0, .constraint hc⟩
      | unknown hl => exact ⟨0, .unknown hl⟩
      | held hl ha => exact ⟨0, .held hl ha⟩
      | refused hl ha hd => exact ⟨0, .refused hl ha hd⟩
      | tooDeep hl ha hd hm => exact ⟨0, .tooDeep hl ha hd hm⟩
      | settled he hr =>
        obtain ⟨n, hn⟩ := hr
        exact ⟨n, .settled he hn⟩
      | abandoned he hr =>
        obtain ⟨n, hn⟩ := hr
        exact ⟨n, .abandoned he hn⟩
    obtain ⟨n, hn⟩ := hn
    exact ⟨n + 1, step_eq_some_iff.2 hn⟩

/-- The evaluation of a reference whose declaration begins is that of its expression, settled or
abandoned. -/
theorem Enters.cases {label : Label} {node : Term} {s t : Session} {index : Nat} {d : Declaration}
    {r : Except Failure Bool} (he : w.Enters label node s index d)
    (h : w.Returns (.ref label) node s r t) :
    ∃ u, w.Returns d.expression node (s.enter index node) r u ∧
      ((∃ b, r = .ok b ∧ t = u.settle index node b) ∨
        ∃ f, r = .error f ∧ t = u.abandon index node) := by
  obtain ⟨hknown, hnone, hconcrete, hshallow⟩ := he
  cases returns_iff.1 h with
  | compound hc _ => cases hc
  | unknown hl => cases hl.symm.trans hknown
  | held hl ha =>
    cases hl.symm.trans hknown
    cases ha.symm.trans hnone
  | refused hl _ hd =>
    cases hl.symm.trans hknown
    cases hd.symm.trans hconcrete
  | tooDeep _ _ _ hm => exact absurd hshallow (Nat.not_lt_of_le hm)
  | @settled _ _ _ u _ _ b he hbody =>
    cases he.known.symm.trans hknown
    exact ⟨u, hbody, .inl ⟨b, rfl, rfl⟩⟩
  | @abandoned _ _ _ u _ _ f he hbody =>
    cases he.known.symm.trans hknown
    exact ⟨u, hbody, .inr ⟨f, rfl, rfl⟩⟩

/-- What every step keeps if its questions keep it holds of every evaluation that returns. -/
theorem Returns.induct {motive : Answering}
    (h : ∀ e node s r t,
      w.OneStep (fun e node s r t => w.Returns e node s r t ∧ motive e node s r t) e node s r t →
        motive e node s r t)
    {e : ShapeExpr} {node : Term} {s t : Session} {r : Except Failure Bool}
    (hr : w.Returns e node s r t) : motive e node s r t := by
  obtain ⟨n, hn⟩ := hr
  induction n generalizing e node s r t with
  | zero => cases hn
  | succ n ih =>
    have hs : w.OneStep (w.evaluate n).Gives e node s r t := step_eq_some_iff.1 hn
    exact h _ _ _ _ _ (hs.mono fun _ _ _ _ _ hr => ⟨⟨n, hr⟩, ih hr⟩)

/-- An evaluation returns in one way only. -/
theorem Returns.unique {e : ShapeExpr} {node : Term} {s t t' : Session}
    {r r' : Except Failure Bool} (h : w.Returns e node s r t) (h' : w.Returns e node s r' t') :
    r = r' ∧ t = t' := by
  obtain ⟨m, hm⟩ := h
  obtain ⟨n, hn⟩ := h'
  have hm := evaluate_mono (Nat.le_max_left m n) hm
  have hn := evaluate_mono (Nat.le_max_right m n) hn
  rw [hm] at hn
  simpa using hn

end Setting

end ShEx
