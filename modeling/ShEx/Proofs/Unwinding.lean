import ShEx.Proofs.UnknownResults

/-!
# Answers behind a failure

A failure is raised by one question (`Setting.Raises`) and passed on by all those around it: each
declaration in progress is left without an answer on the way (`Amid.returned`).  What was answered
before it is not lost, and the answers that a request adds are those of the declarations that ended
with them while it was evaluated (`Setting.Finishes`).

Both are put together for requests in `Session.respond_unwinds`.
-/

set_option autoImplicit false

namespace ShEx

open ShEx.Rdf

variable {α : Type} {w : Setting}

/-! ## Inquiries -/

namespace Inquiry

/-- The questions of an inquiry that returns do so before it, and where one fails the inquiry ends
with its failure. -/
theorem Reaches.returned {q : Inquiry α} {s t u : Session} {r : Except Failure α} {e : ShapeExpr}
    {node : Term} (hq : q.Reaches w.Returns s e node u) (h : q.Follows w.Returns s r t) :
    ∃ r' v, w.Returns e node u r' v ∧ v.Within t ∧ ∀ f, r' = .error f → r = .error f ∧ t = v := by
  induction q generalizing s with
  | done a => exact hq.elim
  | failed failure => exact hq.elim
  | ask e' node' next ih =>
    rcases hq with ⟨rfl, rfl, rfl⟩ | ⟨b, v, hb, hrest⟩
    · rcases h with ⟨b, v, hb, hrest⟩ | ⟨failure, hf, rfl⟩
      · have hvt := (Setting.follows_keeps (fun _ _ _ _ _ hr => hr.keeps) hrest).1
        exact ⟨.ok b, v, hb, hvt, nofun⟩
      · refine ⟨.error failure, t, hf, .refl t, fun f hf => ?_⟩
        cases hf
        exact ⟨rfl, rfl⟩
    · -- The way to the question is the way that the inquiry takes.
      rcases h with ⟨b', v', hb', hrest'⟩ | ⟨failure, hf, -⟩
      · obtain ⟨heq, rfl⟩ := hb.unique hb'
        cases heq
        exact ih b hrest hrest'
      · cases (hb.unique hf).1

/-- An inquiry that fails does so by itself after answers to all its questions, or with the failure
of a question that it comes to. -/
theorem Follows.error_cases {R : Answering} {q : Inquiry α} {s t : Session} {f : Failure}
    (h : q.Follows R s (.error f) t) :
    q.Follows (fun e node s r u => R e node s r u ∧ ∃ b, r = .ok b) s (.error f) t ∨
      ∃ e node u, q.Reaches R s e node u ∧ R e node u (.error f) t := by
  induction q generalizing s with
  | done a => cases h.1
  | failed failure => exact .inl h
  | ask e node next ih =>
    rcases h with ⟨b, u, hb, hrest⟩ | ⟨failure, hf, heq⟩
    · rcases ih b hrest with hown | ⟨e', node', u', hreach, hfail⟩
      · exact .inl (.inl ⟨b, u, ⟨hb, b, rfl⟩, hown⟩)
      · exact .inr ⟨e', node', u', .inr ⟨b, u, hb, hreach⟩, hfail⟩
    · cases heq
      exact .inr ⟨e, node, s, .inl ⟨rfl, rfl, rfl⟩, hf⟩

/-- An answer that is held behind an inquiry and not before it comes from one of its questions. -/
theorem Follows.exists_adding {R : Answering}
    (hret : ∀ e node s r t, R e node s r t → w.Returns e node s r t) {q : Inquiry α} {s t : Session}
    {r : Except Failure α} (h : q.Follows R s r t) {index : Nat} {m : Term} {b : Bool}
    (hs : s.declarations.answer? index m = none) (ht : t.declarations.answer? index m = some b) :
    ∃ e node u r' v, q.Reaches R s e node u ∧ R e node u r' v ∧
      u.declarations.answer? index m = none ∧ v.declarations.answer? index m = some b := by
  induction q generalizing s with
  | done a =>
    obtain ⟨-, rfl⟩ := h
    cases hs.symm.trans ht
  | failed failure =>
    obtain ⟨-, rfl⟩ := h
    cases hs.symm.trans ht
  | ask e node next ih =>
    rcases h with ⟨a, u, ha, hrest⟩ | ⟨failure, hf, -⟩
    · have hut := (Setting.follows_keeps (fun _ _ _ _ _ hr => (hret _ _ _ _ _ hr).keeps) hrest).1
      cases hu : u.declarations.answer? index m with
      | none =>
        obtain ⟨e', node', u', r', v', hreach, hrest'⟩ := ih a hrest hu
        exact ⟨e', node', u', r', v', .inr ⟨a, u, ha, hreach⟩, hrest'⟩
      | some b' =>
        -- The first question added an answer, and what follows leaves it as it is.
        have hb' := hut.declarations index m b' hu
        rw [ht] at hb'
        cases hb'
        exact ⟨e, node, s, .ok a, u, .inl ⟨rfl, rfl, rfl⟩, ha, hs, hu⟩
    · exact ⟨e, node, s, .error failure, t, .inl ⟨rfl, rfl, rfl⟩, hf, hs, ht⟩

end Inquiry

/-! ## Evaluations -/

namespace Setting

/-- While a question is evaluated, the evaluation of a declaration at a node begins and ends with an
answer. -/
def Finishes (w : Setting) (q : Question) (index : Nat) (node : Term) (b : Bool) : Prop :=
  ∃ begun label d s t, w.Amid q begun ⟨.ref label, node, s⟩ ∧ w.Enters label node s index d ∧
    w.Returns d.expression node (s.enter index node) (.ok b) t

/-- The evaluation of a question fails by itself, after answers to all the questions it asks. -/
def Raises (w : Setting) (q : Question) (f : Failure) : Prop :=
  ∃ t, w.OneStep (fun e node s r u => w.Returns e node s r u ∧ ∃ b, r = .ok b) q.expression q.node
    q.state (.error f) t

/-- What fails by itself returns with its failure. -/
theorem Raises.exists_returns {q : Question} {f : Failure} (h : w.Raises q f) :
    ∃ t, w.Returns q.expression q.node q.state (.error f) t := by
  obtain ⟨t, ht⟩ := h
  exact ⟨t, returns_iff.2 (ht.mono fun _ _ _ _ _ hr => hr.1)⟩

/-- What is finished while a question is evaluated is finished while one that asks it is. -/
theorem Finishes.of_amid {q₀ q : Question} {begun : List (Nat × Term)} {index : Nat} {node : Term}
    {b : Bool} (h : w.Finishes q index node b) (hq : w.Amid q₀ begun q) :
    w.Finishes q₀ index node b := by
  obtain ⟨begun', label, d, s, t, hamid, hrest⟩ := h
  exact ⟨begun' ++ begun, label, d, s, t, hq.trans hamid, hrest⟩

/-- Every question that an evaluation comes to returns if the first one does.  Its answers stay, but
for the declarations in progress; if it fails, so does the first one with its failure, nothing is
answered in between and the declarations in progress are left without an answer. -/
theorem Amid.returned {q₀ q : Question} {begun : List (Nat × Term)} (h : w.Amid q₀ begun q)
    {r₀ : Except Failure Bool} {t : Session}
    (h₀ : w.Returns q₀.expression q₀.node q₀.state r₀ t) :
    ∃ r v, w.Returns q.expression q.node q.state r v ∧
      (∀ i m b, (i, m) ∉ begun → v.declarations.answer? i m = some b →
        t.declarations.answer? i m = some b) ∧
      ∀ f, r = .error f → r₀ = .error f ∧ ∀ i m, t.declarations.answer? i m =
        if (i, m) ∈ begun then none else v.declarations.answer? i m := by
  -- The way down to the question is taken step by step.
  induction h with
  | start => exact ⟨r₀, t, h₀, fun _ _ _ _ hb => hb, fun f hf => ⟨hf, fun _ _ => rfl⟩⟩
  | @compound e e' node node' s u begun _ hc hq ih =>
    obtain ⟨r, v, hret, hkept, hfail⟩ := ih
    cases returns_iff.1 hret with
    | compound _ hfollows =>
      obtain ⟨r', v', hret', hwithin, hpassed⟩ := hq.returned hfollows
      refine ⟨r', v', hret', fun i m b hnot hb => ?_, fun f hf => ?_⟩
      · exact hkept i m b hnot (hwithin.declarations i m b hb)
      · obtain ⟨hr, rfl⟩ := hpassed f hf
        exact hfail f hr
    | _ => cases hc
  | @declaration label node s index d begun _ he ih =>
    obtain ⟨r, v, hret, hkept, hfail⟩ := ih
    obtain ⟨u, hbody, hbehind⟩ := he.cases hret
    refine ⟨r, u, hbody, fun i m b hnot hb => ?_, fun f hf => ?_⟩
    · obtain ⟨hne, hnot⟩ := not_or.1 (mt List.mem_cons.2 hnot)
      have hne : ¬(index = i ∧ node = m) := fun h => hne (by rw [h.1, h.2])
      apply hkept i m b hnot
      rcases hbehind with ⟨a, -, rfl⟩ | ⟨f, -, rfl⟩
      · rw [Session.answer?_settle, if_neg hne, hb]
      · rw [Session.answer?_abandon, if_neg hne, hb]
    · -- The declaration joins those that are left without an answer.
      obtain ⟨hr₀, hleft⟩ := hfail f hf
      rcases hbehind with ⟨a, hr, -⟩ | ⟨f', -, rfl⟩
      · cases hr.symm.trans hf
      · refine ⟨hr₀, fun i m => ?_⟩
        rw [hleft i m, Session.answer?_abandon]
        by_cases heq : index = i ∧ node = m
        · obtain ⟨rfl, rfl⟩ := heq
          simp
        · have hne : ¬(i = index ∧ m = node) := fun h => heq ⟨h.1.symm, h.2.symm⟩
          simp [heq, hne]

/-- An answer that is held behind an evaluation and not before it is the one that the evaluation of
its declaration ended with. -/
theorem Returns.finishes {e : ShapeExpr} {node : Term} {s t : Session} {r : Except Failure Bool}
    (h : w.Returns e node s r t) {index : Nat} {m : Term} {b : Bool}
    (hnone : s.declarations.answer? index m = none)
    (hsome : t.declarations.answer? index m = some b) : w.Finishes ⟨e, node, s⟩ index m b := by
  have key : s.declarations.answer? index m = none → t.declarations.answer? index m = some b →
      w.Finishes ⟨e, node, s⟩ index m b := by
    refine h.induct (motive := fun e node s _ t => s.declarations.answer? index m = none →
      t.declarations.answer? index m = some b → w.Finishes ⟨e, node, s⟩ index m b)
      fun e node s r t hstep hs ht => ?_
    cases hstep with
    | compound hc hq =>
      obtain ⟨e', node', u, r', v, hreach, ⟨-, hfinish⟩, hu, hv⟩ :=
        hq.exists_adding (fun _ _ _ _ _ hr => hr.1) hs ht
      exact (hfinish hu hv).of_amid (.compound .start hc (hreach.mono fun _ _ _ _ _ hr => hr.1))
    | constraint hc =>
      rw [evaluateConstraint_declarations hc, hs] at ht
      cases ht
    | unknown _ => cases hs.symm.trans ht
    | held _ _ => cases hs.symm.trans ht
    | refused _ _ _ => cases hs.symm.trans ht
    | tooDeep _ _ _ _ => cases hs.symm.trans ht
    | @settled label _ _ u index' d b' he hr =>
      rcases Answers.answer?_hold_cases ht with ⟨⟨rfl, rfl⟩, rfl⟩ | ⟨hne, ht⟩
      · exact ⟨[], label, d, s, u, .start, he, hr.1⟩
      · refine (hr.2 ?_ ht).of_amid (.declaration .start he)
        rw [Session.answer?_enter, if_neg hne, hs]
    | @abandoned label _ _ u index' d f he hr =>
      -- What ended with an answer inside the declaration keeps it.
      obtain ⟨hne, ht⟩ := Answers.answer?_forget_cases ht
      refine (hr.2 ?_ ht).of_amid (.declaration .start he)
      rw [Session.answer?_enter, if_neg hne, hs]
  exact key hnone hsome

/-- A declaration that finishes was not answered before, and its answer is held in the end. -/
theorem Finishes.answered {q : Question} {index : Nat} {node : Term} {b : Bool}
    (h : w.Finishes q index node b) {r : Except Failure Bool} {t : Session}
    (hr : w.Returns q.expression q.node q.state r t) :
    q.state.declarations.answer? index node = none ∧
      t.declarations.answer? index node = some b := by
  obtain ⟨begun, label, d, s, u, hamid, he, hbody⟩ := h
  obtain ⟨r', v, hret, hkept, -⟩ := hamid.returned hr
  refine ⟨hamid.keeps.1.unanswered he.unanswered, hkept index node b ?_ ?_⟩
  · exact hamid.not_begun he.unanswered
  · obtain ⟨-, rfl⟩ := hret.unique (returns_iff.2 (.settled he hbody))
    rw [Session.answer?_settle, if_pos ⟨rfl, rfl⟩]

/-- A failure is raised by a question that the evaluation comes to. -/
theorem Returns.exists_raises {e : ShapeExpr} {node : Term} {s t : Session} {f : Failure}
    (h : w.Returns e node s (.error f) t) :
    ∃ begun q, w.Amid ⟨e, node, s⟩ begun q ∧ w.Raises q f := by
  have key : (Except.error f : Except Failure Bool) = .error f →
      ∃ begun q, w.Amid ⟨e, node, s⟩ begun q ∧ w.Raises q f := by
    refine h.induct (motive := fun e node s r _ => r = .error f →
      ∃ begun q, w.Amid ⟨e, node, s⟩ begun q ∧ w.Raises q f) fun e node s r t hstep hr => ?_
    cases hr
    have hself : ∀ {t}, w.OneStep (fun e node s r u => w.Returns e node s r u ∧ ∃ b, r = .ok b)
        e node s (.error f) t → ∃ begun q, w.Amid ⟨e, node, s⟩ begun q ∧ w.Raises q f :=
      fun h => ⟨[], ⟨e, node, s⟩, .start, _, h⟩
    cases hstep with
    | compound hc hq =>
      rcases hq.error_cases with hown | ⟨e', node', u, hreach, -, hfail⟩
      · exact hself (.compound hc (hown.mono fun _ _ _ _ _ hr => ⟨hr.1.1, hr.2⟩))
      · obtain ⟨begun, q, hamid, hraises⟩ := hfail rfl
        have hreach := hreach.mono fun _ _ _ _ _ hr => hr.1
        exact ⟨begun ++ [], q, (Amid.compound .start hc hreach).trans hamid, hraises⟩
    | constraint hc => exact hself (.constraint hc)
    | refused hl ha hd => exact hself (.refused hl ha hd)
    | tooDeep hl ha hd hm => exact hself (.tooDeep hl ha hd hm)
    | abandoned he hr =>
      obtain ⟨begun, q, hamid, hraises⟩ := hr.2 rfl
      exact ⟨begun ++ [_], q, (Amid.declaration .start he).trans hamid, hraises⟩
  exact key rfl

/-- The first question fails with what a question that it comes to raises, and the declarations that
are in progress there are left without an answer. -/
theorem Amid.raised {q₀ q : Question} {begun : List (Nat × Term)} (h : w.Amid q₀ begun q)
    {f : Failure} (hf : w.Raises q f) {r : Except Failure Bool} {t : Session}
    (hr : w.Returns q₀.expression q₀.node q₀.state r t) :
    r = .error f ∧ ∀ p ∈ begun, t.declarations.answer? p.1 p.2 = none := by
  obtain ⟨r', v, hret, -, hfail⟩ := h.returned hr
  obtain ⟨u, hu⟩ := hf.exists_returns
  obtain ⟨rfl, rfl⟩ := hret.unique hu
  obtain ⟨hr, hleft⟩ := hfail f rfl
  refine ⟨hr, fun p hp => ?_⟩
  rw [hleft p.1 p.2, if_pos hp]

end Setting

/-! ## Requests -/

namespace Session

/-- A request that returns to a session at rest leaves it at rest, with all that it held.  The
answers about declarations that are new are those of the evaluations of declarations that ended
while it was evaluated.  It fails if and only if a question that it came to did so by itself, and
then none of the declarations in progress at that question is answered. -/
theorem respond_unwinds {s t : Session} {q : Request} {r : Except Failure Bool} (hs : s.depth = 0)
    (h : s.respond w q = some (r, t)) :
    t.depth = 0 ∧ s.Within t ∧
      (∀ index node b,
        s.declarations.answer? index node = none ∧ t.declarations.answer? index node = some b ↔
          ∃ e n, w.question? q = some (e, n) ∧ w.Finishes ⟨e, n, s⟩ index node b) ∧
      ∀ e n, w.question? q = some (e, n) →
        (∀ f, r = .error f ↔ ∃ begun x, w.Amid ⟨e, n, s⟩ begun x ∧ w.Raises x f) ∧
        ∀ begun x f, w.Amid ⟨e, n, s⟩ begun x → w.Raises x f →
          ∀ p ∈ begun, t.declarations.answer? p.1 p.2 = none := by
  rcases respond_cases h with ⟨e, n, hq, h⟩ | ⟨hq, -, rfl⟩
  · refine ⟨h.depth_eq.trans hs, h.within, fun index node b => ⟨fun ⟨hnone, hsome⟩ => ?_, ?_⟩, ?_⟩
    · exact ⟨e, n, hq, h.finishes hnone hsome⟩
    · rintro ⟨e', n', heq, hfinish⟩
      cases hq.symm.trans heq
      exact hfinish.answered h
    · intro e' n' heq
      cases hq.symm.trans heq
      refine ⟨fun f => ⟨?_, ?_⟩, fun begun x f hamid hraises => ?_⟩
      · rintro rfl
        exact h.exists_raises
      · rintro ⟨begun, x, hamid, hraises⟩
        exact (hamid.raised hraises h).1
      · exact (hamid.raised hraises h).2
  · rw [hq]
    refine ⟨hs, .refl t, fun index node b => ⟨fun ⟨hnone, hsome⟩ => ?_, nofun⟩, nofun⟩
    cases hnone.symm.trans hsome

/-- A declaration that fails behind another one, which is answered: it is left without an answer. -/
theorem respond_unwinds_unfinished : ∃ t,
    initial.respond .unfinished (.named "n" "A") =
      some (.error (.notImplemented .externalShapes), t) ∧ t.depth = 0 ∧
    Setting.unfinished.Finishes ⟨.ref (.iri ⟨"A"⟩), .iri ⟨"n"⟩, initial⟩ 1 (.iri ⟨"n"⟩) true ∧
    t.declarations.answer? 1 (.iri ⟨"n"⟩) = some true ∧
    t.declarations.answer? 0 (.iri ⟨"n"⟩) = none := by
  have h : initial.respond .unfinished (.named "n" "A") =
      some (.error (.notImplemented .externalShapes), ⟨0, [((1, .iri ⟨"n"⟩), true)], [], []⟩) := rfl
  obtain ⟨hdepth, -, hnew, hfail⟩ := respond_unwinds rfl h
  obtain ⟨-, hleft⟩ := hfail _ _ rfl
  obtain ⟨e, n, hquestion, hfinish⟩ := (hnew 1 (.iri ⟨"n"⟩) true).1 ⟨rfl, rfl⟩
  cases hquestion
  refine ⟨_, h, hdepth, hfinish, rfl, ?_⟩
  have hstart : Setting.Amid .unfinished ⟨.ref (.iri ⟨"A"⟩), .iri ⟨"n"⟩, initial⟩ [] _ := .start
  have hbegun := hstart.declaration ⟨rfl, rfl, rfl, by decide⟩
  have hexternal := hbegun.compound rfl (.inr ⟨true, _, ⟨9, rfl⟩, .inl ⟨rfl, rfl, rfl⟩⟩)
  exact hleft _ _ _ hexternal ⟨_, .compound rfl ⟨rfl, rfl⟩⟩ _ List.mem_cons_self

end Session

end ShEx
