import Mathlib.Logic.Relation
import ShEx.Proofs.KeptAnswers

/-!
# Questions inside questions

A question is an expression, a node and the state in which it is put.  An evaluation `Asks` further
questions on its way: a compound expression those that its inquiry comes to, a reference the one
about its declaration.  Nesting is the length of a chain of questions: an evaluation that has no
nesting left has asked a question that has none left (`exists_asks_of_none`), and one that returns
has asked only questions that return (`Asks.returns`).

So an evaluation whose questions lead to one that leads back to itself does not return with any
nesting (`evaluate_eq_none_of_comesBack`).  It is enough to come back to the same expression at the
same node with no new declaration in progress: the answers that were needed on the way are there
already, and the same way is taken again (`comesBack_of_repeat`).
-/

set_option autoImplicit false

namespace ShEx

open ShEx.Rdf

/-- An expression, the node it is put to and the state in which it is. -/
structure Question where
  expression : ShapeExpr
  node : Term
  state : Session

namespace Inquiry

variable {α : Type} {w : Setting}

/-- What an inquiry comes to by some answers, it comes to by more of them. -/
theorem Reaches.mono {R R' : Answering} (h : ∀ e node s r t, R e node s r t → R' e node s r t)
    {q : Inquiry α} {s t : Session} {e : ShapeExpr} {node : Term}
    (hq : q.Reaches R s e node t) : q.Reaches R' s e node t := by
  induction q generalizing s with
  | done a => exact hq
  | failed failure => exact hq
  | ask e' node' next ih =>
    rcases hq with hq | ⟨b, u, hb, hrest⟩
    · exact .inl hq
    · exact .inr ⟨b, u, h _ _ _ _ _ hb, ih b hrest⟩

/-- What an inquiry comes to is mentioned in it. -/
theorem Reaches.mentions {R : Answering} {q : Inquiry α} {s t : Session} {e : ShapeExpr}
    {node : Term} (hq : q.Reaches R s e node t) : q.Mentions e node := by
  induction q generalizing s with
  | done a => exact hq
  | failed failure => exact hq
  | ask e' node' next ih =>
    rcases hq with ⟨rfl, rfl, -⟩ | ⟨b, u, -, hrest⟩
    · exact .inl ⟨rfl, rfl⟩
    · exact .inr ⟨b, ih b hrest⟩

/-- A question that an inquiry comes to is put in a later state, and no declaration has begun. -/
theorem Reaches.keeps {q : Inquiry α} {s t : Session} {e : ShapeExpr} {node : Term}
    (hq : q.Reaches w.Returns s e node t) : s.Within t ∧ t.depth = s.depth := by
  induction q generalizing s with
  | done a => exact hq.elim
  | failed failure => exact hq.elim
  | ask e' node' next ih =>
    rcases hq with ⟨-, -, rfl⟩ | ⟨b, u, hb, hrest⟩
    · exact ⟨.refl _, rfl⟩
    · obtain ⟨hw, hd⟩ := ih b hrest
      exact ⟨hb.within.trans hw, hd.trans hb.depth_eq⟩

/-- If the run of an inquiry ends, so does the evaluation of every question it comes to. -/
theorem Reaches.exists_of_run {n : Nat} {q : Inquiry α} {s t : Session} {e : ShapeExpr}
    {node : Term} (hq : q.Reaches w.Returns s e node t) {r : Except Failure α} {u : Session}
    (h : q.Follows (w.evaluate n).Gives s r u) :
    ∃ r' u', w.evaluate n e node t = some (r', u') := by
  induction q generalizing s with
  | done a => exact hq.elim
  | failed failure => exact hq.elim
  | ask e' node' next ih =>
    rcases hq with ⟨rfl, rfl, rfl⟩ | ⟨b, v, hb, hrest⟩
    · rcases h with ⟨b, v, hb, -⟩ | ⟨failure, hf, -⟩
      · exact ⟨.ok b, v, hb⟩
      · exact ⟨.error failure, u, hf⟩
    · rcases h with ⟨b', v', hb', hrest'⟩ | ⟨failure, hf, -⟩
      · obtain ⟨h1, rfl⟩ := hb.unique ⟨n, hb'⟩
        cases h1
        exact ih b hrest hrest'
      · obtain ⟨h1, -⟩ := hb.unique ⟨n, hf⟩
        cases h1

/-- An inquiry that came to a question comes to it again from every later state: the answers before
it are given again at once. -/
theorem Reaches.again {q : Inquiry α} {s t u : Session} {e : ShapeExpr} {node : Term}
    (hq : q.Reaches w.Returns s e node t) (hu : t.Within u) :
    q.Reaches w.Returns u e node u := by
  induction q generalizing s with
  | done a => exact hq.elim
  | failed failure => exact hq.elim
  | ask e' node' next ih =>
    rcases hq with ⟨rfl, rfl, -⟩ | ⟨b, v, hb, hrest⟩
    · exact .inl ⟨rfl, rfl, rfl⟩
    · exact .inr ⟨b, u, hb.again (hrest.keeps.1.trans hu), ih b hrest⟩

/-- The questions of an inquiry with what is known of each: the inquiry comes to it, in a state that
keeps what all questions keep, and the state behind it is earlier than the one behind the
inquiry. -/
theorem Follows.course {R : Answering} {I : Session → Prop} {Q : ShapeExpr → Term → Prop}
    (hret : ∀ e node s r t, R e node s r t → w.Returns e node s r t)
    (hR : ∀ e node s r t, R e node s r t → Q e node → I s → I t) {q : Inquiry α}
    (hq : ∀ e node, q.Mentions e node → Q e node) {s t : Session} {r : Except Failure α}
    (h : q.Follows R s r t) (hs : I s) :
    q.Follows (fun e node u r v => R e node u r v ∧ q.Reaches w.Returns s e node u ∧ I u ∧
      v.Within t) s r t := by
  induction q generalizing s with
  | done a => exact h
  | failed failure => exact h
  | ask e node next ih =>
    have he := hq e node (.inl ⟨rfl, rfl⟩)
    rcases h with ⟨b, u, hb, hrest⟩ | ⟨failure, hf, hr⟩
    · have hut := (Setting.follows_keeps (fun _ _ _ _ _ hr => (hret _ _ _ _ _ hr).keeps) hrest).1
      have hcourse := ih b (fun e' node' hm => hq e' node' (.inr ⟨b, hm⟩)) hrest
        (hR _ _ _ _ _ hb he hs)
      refine .inl ⟨b, u, ⟨hb, .inl ⟨rfl, rfl, rfl⟩, hs, hut⟩, hcourse.mono ?_⟩
      rintro e' node' s' r' u' ⟨hR', hreach, hrest'⟩
      exact ⟨hR', .inr ⟨b, u, hret _ _ _ _ _ hb, hreach⟩, hrest'⟩
    · exact .inr ⟨failure, ⟨hf, .inl ⟨rfl, rfl, rfl⟩, hs, .refl t⟩, hr⟩

end Inquiry

namespace Setting

variable (w : Setting)

/-- The evaluation of a question asks another one. -/
inductive Asks : Question → Question → Prop
  | compound {e e' : ShapeExpr} {node node' : Term} {s t : Session} (h : e.isCompound)
      (hq : (w.inquiry e node).Reaches w.Returns s e' node' t) : Asks ⟨e, node, s⟩ ⟨e', node', t⟩
  | declaration {label : Label} {node : Term} {s : Session} {index : Nat} {d : Declaration}
      (h : w.Enters label node s index d) :
      Asks ⟨.ref label, node, s⟩ ⟨d.expression, node, s.enter index node⟩

/-- The questions of an evaluation lead to one that leads back to itself. -/
def ComesBack (q : Question) : Prop :=
  ∃ q', Relation.ReflTransGen w.Asks q q' ∧ Relation.TransGen w.Asks q' q'

variable {w}

/-- The evaluation of a declaration does not end if and only if it begins and its expression does
not end. -/
theorem evaluateReference_eq_none_iff {eval : Evaluator} {label : Label} {node : Term}
    {s : Session} : w.evaluateReference eval label node s = none ↔
      ∃ index d, w.Enters label node s index d ∧
        eval d.expression node (s.enter index node) = none := by
  rw [evaluateReference_apply]
  constructor
  · intro h
    split at h
    · cases h
    · next index d hl =>
      rw [evaluateDeclaration_apply] at h
      split at h
      · cases h
      · next ha =>
        split at h
        · cases h
        · next hd =>
          split at h
          · cases h
          · next hm =>
            refine ⟨index, d, ⟨hl, ha, by simpa using hd, Nat.lt_of_not_le hm⟩, ?_⟩
            unfold settling at h
            split at h
            · assumption
            · cases h
            · cases h
  · rintro ⟨index, d, he, hn⟩
    simp only [he.known, evaluateDeclaration_apply, he.unanswered, he.concrete,
      Nat.not_le_of_lt he.shallow, Bool.false_eq_true, if_false, settling, hn]

/-- An evaluation that has no nesting left has asked a question that has none left. -/
theorem exists_asks_of_none {n : Nat} {q : Question}
    (h : w.evaluate (n + 1) q.expression q.node q.state = none) :
    ∃ q', w.Asks q q' ∧ w.evaluate n q'.expression q'.node q'.state = none := by
  obtain ⟨e, node, s⟩ := q
  have h : w.step (w.evaluate n) e node s = none := h
  by_cases hc : e.isCompound
  · rw [w.step_of_compound _ node hc, Inquiry.run_eq_none_iff] at h
    obtain ⟨e', node', t, hq, hn⟩ := h
    exact ⟨⟨e', node', t⟩, .compound hc (hq.mono fun _ _ _ _ _ hr => ⟨n, hr⟩), hn⟩
  · cases e with
    | node c =>
      have h : w.evaluateConstraint c node s = none := h
      obtain ⟨r, t, ht⟩ := exists_evaluateConstraint (w := w) c node s
      rw [h] at ht
      cases ht
    | ref label =>
      obtain ⟨index, d, he, hn⟩ := evaluateReference_eq_none_iff.1 h
      exact ⟨⟨d.expression, node, s.enter index node⟩, .declaration he, hn⟩
    | _ => exact absurd rfl hc

/-- An evaluation that returns has asked only questions that return with less nesting. -/
theorem Asks.returns {n : Nat} {q q' : Question} (h : w.Asks q q') {r : Except Failure Bool}
    {t : Session} (hq : w.evaluate (n + 1) q.expression q.node q.state = some (r, t)) :
    ∃ r' t', w.evaluate n q'.expression q'.node q'.state = some (r', t') := by
  have hq : w.step (w.evaluate n) q.expression q.node q.state = some (r, t) := hq
  cases h with
  | compound hc hr =>
    rw [w.step_of_compound _ _ hc, Inquiry.run_eq_some_iff] at hq
    exact hr.exists_of_run hq
  | @declaration label node s index d he =>
    cases hn : w.evaluate n d.expression node (s.enter index node) with
    | none =>
      have : w.evaluateReference (w.evaluate n) label node s = none :=
        evaluateReference_eq_none_iff.2 ⟨index, d, he, hn⟩
      rw [show w.step (w.evaluate n) (.ref label) node s = none from this] at hq
      cases hq
    | some result => exact ⟨result.1, result.2, rfl⟩

/-- A question that leads back to itself has no answer. -/
theorem evaluate_eq_none_of_transGen {q : Question} (h : Relation.TransGen w.Asks q q) (n : Nat) :
    w.evaluate n q.expression q.node q.state = none := by
  -- A way of any length from a question that returns with `n` ends at one that returns with less.
  have hless : ∀ {q q' : Question}, Relation.TransGen w.Asks q q' → ∀ {n r t},
      w.evaluate n q.expression q.node q.state = some (r, t) →
        ∃ m < n, ∃ r' t', w.evaluate m q'.expression q'.node q'.state = some (r', t') := by
    intro q q' hqq
    induction hqq with
    | single ha =>
      intro n r t hn
      cases n with
      | zero => cases hn
      | succ n => exact ⟨n, Nat.lt_succ_self n, ha.returns hn⟩
    | tail _ ha ih =>
      intro n r t hn
      obtain ⟨m, hm, r', t', hm'⟩ := ih hn
      cases m with
      | zero => cases hm'
      | succ m => exact ⟨m, Nat.lt_of_succ_lt hm, ha.returns hm'⟩
  induction n using Nat.strongRecOn with
  | ind n ih =>
    cases hn : w.evaluate n q.expression q.node q.state with
    | none => rfl
    | some result =>
      obtain ⟨m, hm, r', t', hm'⟩ := hless h hn
      rw [ih m hm] at hm'
      cases hm'

/-- An evaluation that comes back to a question does not return, whatever nesting it is given. -/
theorem evaluate_eq_none_of_comesBack {q : Question} (h : w.ComesBack q) (n : Nat) :
    w.evaluate n q.expression q.node q.state = none := by
  obtain ⟨q', hqq, hloop⟩ := h
  induction hqq using Relation.ReflTransGen.head_induction_on generalizing n with
  | refl => exact evaluate_eq_none_of_transGen hloop n
  | head ha _ ih =>
    cases n with
    | zero => rfl
    | succ n =>
      cases hn : w.evaluate (n + 1) _ _ _ with
      | none => rfl
      | some result =>
        obtain ⟨r', t', hn'⟩ := ha.returns hn
        rw [ih n] at hn'
        cases hn'

/-! ## Declarations in progress -/

/-- The evaluation of a first question comes to another one amid declarations in progress at nodes,
the one that began last first. -/
inductive Amid (w : Setting) (q₀ : Question) : List (Nat × Term) → Question → Prop
  | start : Amid w q₀ [] q₀
  | compound {e e' : ShapeExpr} {node node' : Term} {s t : Session} {begun : List (Nat × Term)}
      (h : Amid w q₀ begun ⟨e, node, s⟩) (hc : e.isCompound)
      (hq : (w.inquiry e node).Reaches w.Returns s e' node' t) : Amid w q₀ begun ⟨e', node', t⟩
  | declaration {label : Label} {node : Term} {s : Session} {index : Nat} {d : Declaration}
      {begun : List (Nat × Term)} (h : Amid w q₀ begun ⟨.ref label, node, s⟩)
      (he : w.Enters label node s index d) :
      Amid w q₀ ((index, node) :: begun) ⟨d.expression, node, s.enter index node⟩

/-- A declaration in progress is taken to hold. -/
theorem Amid.answered {q₀ q : Question} {begun : List (Nat × Term)} (h : w.Amid q₀ begun q) :
    ∀ index node, (index, node) ∈ begun →
      q.state.declarations.answer? index node = some true := by
  induction h with
  | start => exact nofun
  | compound _ _ hq ih => exact fun i m hm => hq.keeps.1.declarations i m true (ih i m hm)
  | declaration _ he ih =>
    intro i m hm
    rcases List.mem_cons.1 hm with heq | hm
    · cases heq
      rw [Session.answer?_enter, if_pos ⟨rfl, rfl⟩]
    · exact (Session.within_enter he.unanswered).declarations i m true (ih i m hm)

/-- What has no answer is not in progress, since a declaration in progress is taken to hold. -/
theorem Amid.not_begun {q₀ q : Question} {begun : List (Nat × Term)} (h : w.Amid q₀ begun q)
    {index : Nat} {node : Term} (hnone : q.state.declarations.answer? index node = none) :
    (index, node) ∉ begun := by
  intro hmem
  rw [h.answered index node hmem] at hnone
  cases hnone

/-- A question is put in a later state than the first one, and as many more declarations are in
progress in it as have begun. -/
theorem Amid.keeps {q₀ q : Question} {begun : List (Nat × Term)} (h : w.Amid q₀ begun q) :
    q₀.state.Within q.state ∧ q.state.depth = q₀.state.depth + begun.length := by
  induction h with
  | start => exact ⟨.refl _, rfl⟩
  | compound _ _ hq ih =>
    obtain ⟨hwithin, hdepth⟩ := hq.keeps
    exact ⟨ih.1.trans hwithin, hdepth.trans ih.2⟩
  | @declaration _ _ s _ _ begun _ he ih =>
    refine ⟨ih.1.trans (Session.within_enter he.unanswered), ?_⟩
    have hdepth : s.depth = q₀.state.depth + begun.length := ih.2
    show s.depth + 1 = q₀.state.depth + (begun.length + 1)
    omega

/-- No declaration is in progress at a node twice. -/
theorem Amid.nodup {q₀ q : Question} {begun : List (Nat × Term)} (h : w.Amid q₀ begun q) :
    begun.Nodup := by
  induction h with
  | start => exact List.nodup_nil
  | compound _ _ _ ih => exact ih
  | declaration h he ih => exact List.nodup_cons.2 ⟨h.not_begun he.unanswered, ih⟩

/-- The declarations in progress behind a question that was come to add up with those before it. -/
theorem Amid.trans {q₀ q q' : Question} {begun begun' : List (Nat × Term)} (h : w.Amid q₀ begun q)
    (h' : w.Amid q begun' q') : w.Amid q₀ (begun' ++ begun) q' := by
  induction h' with
  | start => exact h
  | compound _ hc hq ih => exact .compound ih hc hq
  | declaration _ he ih => exact .declaration ih he

/-! ## Coming back without a new declaration -/

/-- A question is asked in a later state; the number of declarations in progress has not shrunk. -/
theorem Asks.keeps {q q' : Question} (h : w.Asks q q') :
    q.state.Within q'.state ∧ q.state.depth ≤ q'.state.depth := by
  cases h with
  | compound _ hq => exact ⟨hq.keeps.1, Nat.le_of_eq hq.keeps.2.symm⟩
  | declaration he => exact ⟨Session.within_enter he.unanswered, Nat.le_succ _⟩

/-- From one question to those behind it, what is held stays held and no fewer declarations are in
progress. -/
theorem keeps_of_reflTransGen {q q' : Question} (h : Relation.ReflTransGen w.Asks q q') :
    q.state.Within q'.state ∧ q.state.depth ≤ q'.state.depth := by
  induction h with
  | refl => exact ⟨.refl _, Nat.le_refl _⟩
  | tail _ ha ih => exact ⟨ih.1.trans ha.keeps.1, Nat.le_trans ih.2 ha.keeps.2⟩

/-- A question that was asked with no new declaration in progress is asked again from every later
state. -/
theorem Asks.again {q q' : Question} (h : w.Asks q q') (hd : q'.state.depth ≤ q.state.depth)
    {u : Session} (hu : q'.state.Within u) :
    w.Asks ⟨q.expression, q.node, u⟩ ⟨q'.expression, q'.node, u⟩ := by
  cases h with
  | compound hc hq => exact .compound hc (hq.again hu)
  | declaration he => exact absurd hd (Nat.not_succ_le_self _)

/-- An evaluation that comes to the same expression at the same node with no new declaration in
progress comes back to that question for ever. -/
theorem comesBack_of_repeat {q q₁ q₂ : Question} (h : Relation.ReflTransGen w.Asks q q₁)
    (h₁₂ : Relation.TransGen w.Asks q₁ q₂) (he : q₁.expression = q₂.expression)
    (hn : q₁.node = q₂.node) (hd : q₂.state.depth = q₁.state.depth) : w.ComesBack q := by
  -- From the state of `q₂` on, nothing changes any more along the way from `q₁` to `q₂`.
  have key : ∀ {a b : Question}, Relation.TransGen w.Asks a b →
      b.state.depth ≤ a.state.depth → ∀ {u : Session}, b.state.Within u →
        Relation.TransGen w.Asks ⟨a.expression, a.node, u⟩ ⟨b.expression, b.node, u⟩ := by
    intro a b hab
    induction hab with
    | single ha => exact fun hle u hu => .single (ha.again hle hu)
    | @tail b c hab ha ih =>
      intro hle u hu
      have hab' := (keeps_of_reflTransGen hab.to_reflTransGen).2
      have hbc := ha.keeps
      exact (ih (Nat.le_trans hbc.2 hle) (hbc.1.trans hu)).tail
        (ha.again (Nat.le_trans hle hab') hu)
  have hloop := key h₁₂ (Nat.le_of_eq hd) (Session.Within.refl q₂.state)
  rw [he, hn] at hloop
  exact ⟨q₂, h.trans h₁₂.to_reflTransGen, hloop⟩

end Setting

end ShEx
