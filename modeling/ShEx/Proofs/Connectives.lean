import ShEx.Proofs.Typing

/-!
# Connectives and single operands

The operands of a conjunction or a disjunction are evaluated one after the other in one session, as
far as they are needed: each one like a request that comes after those for the operands before it.
Of two operands that do not hold on their own, the first one can leave an answer by which the second
one holds (`validateExpr_or_presumed`).

Only answers to declarations whose unfolding does not end do that (`validateExpr_connectives`). If
they are forgotten before each operand (`Setting.ReturnsForgetting`), a conjunction and a
disjunction are those of the answers that the operands have on their own, in any order; and so they
are if these answers do not matter (`Setting.Unaffected`). A negation has one operand, which is
evaluated as on its own.
-/

set_option autoImplicit false

namespace ShEx

open ShEx.Rdf

variable {α : Type}

/-- An inquiry whose questions are all answered comes to the conclusion from the answers. -/
theorem Inquiry.exists_follows_answer {R : Answering} {I : Session → Prop}
    {holds : ShapeExpr → Term → Bool} {q : Inquiry α}
    (hR : ∀ e node s, q.Mentions e node → I s → ∃ t, R e node s (.ok (holds e node)) t ∧ I t)
    {s : Session} (hs : I s) : ∃ t, q.Follows R s (q.answer holds) t := by
  induction q generalizing s with
  | done a => exact ⟨s, rfl, rfl⟩
  | failed failure => exact ⟨s, rfl, rfl⟩
  | ask e node next ih =>
    obtain ⟨u, hu, hI⟩ := hR e node s (.inl ⟨rfl, rfl⟩) hs
    have hnext : ∀ e' node' s, (next (holds e node)).Mentions e' node' → I s →
        ∃ t, R e' node' s (.ok (holds e' node')) t ∧ I t := by
      intro e' node' s hm
      exact hR e' node' s (.inr ⟨holds e node, hm⟩)
    obtain ⟨t, ht⟩ := ih (holds e node) hnext hI
    exact ⟨t, .inl ⟨holds e node, u, hu, ht⟩⟩

namespace Setting

variable {w : Setting}

/-- An evaluation that begins with forgetting the answers to declarations whose unfolding does not
end. -/
def ReturnsForgetting (w : Setting) : Answering := fun e node s r t =>
  w.Returns e node (s.withoutOpen w) r t

/-- What a session has taken up does not matter for a question: it leads to no declaration that is
answered and whose unfolding does not end, or declarations in progress hold as they are taken to, or
it has the same result without the answers to such declarations. -/
def AsAlone (w : Setting) (s : Session) (e : ShapeExpr) (node : Term) : Prop :=
  w.Undisturbed s e node ∨ (∃ U, w.Upholds U ∧ (w.Unending e node → ∃ r, U e node = some r)) ∨
    ∃ r t v, w.Returns e node s r t ∧ w.Returns e node (s.withoutOpen w) r v

/-- What is left by the questions that an expression has put before does not matter for one that it
puts. -/
def Unaffected (w : Setting) (e : ShapeExpr) (node : Term) : Prop :=
  ∀ c m s, (w.inquiry e node).Reaches w.Returns .initial c m s → w.AsAlone s c m

/-- A session after a question is one after a request. -/
theorem Returns.reached {e : ShapeExpr} {node : Term} {s t : Session} {r : Except Failure Bool}
    (h : w.Returns e node s r t) (hnum : e.NumberedIn w.schema) (hs : s.Reached w w.Proper) :
    t.Reached w w.Proper := by
  have hrespond : s.respond w (.expression node e) = some (r, t) :=
    Session.respond_eq_some_iff.2 h
  have hproper : w.Proper (.expression node e) := hnum
  exact hs.after hproper hrespond

/-- A question for which it does not matter is answered after requests as it is on its own. -/
theorem AsAlone.answer_eq (hw : WellNumbered w.schema.constraints) {s t u : Session} {e : ShapeExpr}
    {node : Term} (halone : w.AsAlone s e node) (hs : s.Reached w w.Proper)
    (hnum : e.NumberedIn w.schema) {b b₀ : Bool} (h : w.Returns e node s (.ok b) t)
    (h₀ : w.Returns e node .initial (.ok b₀) u) : b₀ = b := by
  have hproper : w.Proper (.expression node e) := hnum
  have hrespond : s.respond w (.expression node e) = some (.ok b, t) :=
    Session.respond_eq_some_iff.2 h
  have hrespond₀ : Session.initial.respond w (.expression node e) = some (.ok b₀, u) :=
    Session.respond_eq_some_iff.2 h₀
  have hreasons : (w.Undisturbed s e node ∨
      ∃ U, w.Upholds U ∧ (w.Unending e node → ∃ r, U e node = some r)) → b₀ = b := by
    intro hreason
    symm
    apply Session.respond_eq_of_undisturbed hw hs hproper hrespond hrespond₀
    intro e' node' hquestion
    cases hquestion
    exact hreason
  rcases halone with hun | hU | ⟨r, t', v, hr, hv⟩
  · exact hreasons (.inl hun)
  · exact hreasons (.inr hU)
  · have hrel := reliable_of_reached hw hs
    obtain ⟨v₀, hv₀⟩ := hrel.returns_withoutOpen hw (depth_of_reached hs) hnum (not_tooDeep_ok _) h₀
    have hsame := (hv₀.unique hv).1.trans (hr.unique h).1
    exact Except.ok.inj hsame

/-- An unaffected compound expression is answered by the answers that its questions have on their
own. -/
theorem Unaffected.answer_eq (hw : WellNumbered w.schema.constraints) {e : ShapeExpr} {node : Term}
    (hun : w.Unaffected e node) (hc : e.isCompound) (hnum : e.NumberedIn w.schema)
    {holds : ShapeExpr → Term → Bool}
    (hholds : ∀ c m, (w.inquiry e node).Mentions c m →
      ∃ u, w.Returns c m .initial (.ok (holds c m)) u)
    {b : Bool} {t : Session} (h : w.Returns e node .initial (.ok b) t) :
    (w.inquiry e node).answer holds = .ok b := by
  have hmentions : ∀ c m, (w.inquiry e node).Mentions c m → c.NumberedIn w.schema :=
    fun c m hm => hnum.mentions hc hm
  cases returns_iff.1 h with
  | compound _ hq =>
    have hcourse := hq.course (I := fun s => s.Reached w w.Proper) (fun _ _ _ _ _ hR => hR)
      (fun _ _ _ _ _ hR hn hs => hR.reached hn hs) hmentions .initial
    have hanswers : (w.inquiry e node).Follows (fun c m _ r _ => ∀ b, r = .ok b → holds c m = b)
        .initial (.ok b) t := by
      refine hcourse.mono fun c m s r v hR b hb => ?_
      obtain ⟨hreturns, hreach, hs, -⟩ := hR
      rw [hb] at hreturns
      obtain ⟨u, hu⟩ := hholds c m hreach.mentions
      exact (hun c m s hreach).answer_eq hw hs (hmentions c m hreach.mentions) hreturns hu
    exact hanswers.answer_eq fun _ _ _ b _ hR => hR b rfl
  | _ => cases hc

/-- If such answers are forgotten before each question, a compound expression is answered by the
answers that its questions have on their own. -/
theorem exists_follows_forgetting (hw : WellNumbered w.schema.constraints) {e : ShapeExpr}
    {node : Term} (hc : e.isCompound) (hnum : e.NumberedIn w.schema)
    {holds : ShapeExpr → Term → Bool}
    (hholds : ∀ c m, (w.inquiry e node).Mentions c m →
      ∃ u, w.Returns c m .initial (.ok (holds c m)) u) :
    ∃ t, (w.inquiry e node).Follows w.ReturnsForgetting .initial
      ((w.inquiry e node).answer holds) t := by
  apply Inquiry.exists_follows_answer (I := fun s => w.Reliable s ∧ s.depth = 0)
  · intro c m s hm hs
    have hnum' := hnum.mentions hc hm
    obtain ⟨u, hu⟩ := hholds c m hm
    obtain ⟨t, ht⟩ := hs.1.returns_withoutOpen hw hs.2 hnum' (not_tooDeep_ok _) hu
    exact ⟨t, ht, ht.reliable hw hnum' hs.1.withoutOpen, ht.depth_eq.trans hs.2⟩
  · exact ⟨.initial, rfl⟩

/-- Where its operand is answered, a negation is. -/
theorem Returns.negation {e : ShapeExpr} {node : Term} {s t : Session} {b : Bool}
    (h : w.Returns e node s (.ok b) t) : w.Returns (.not e) node s (.ok (!b)) t := by
  apply returns_iff.2
  apply OneStep.compound rfl
  exact .inl ⟨b, t, h, rfl, rfl⟩

end Setting

namespace Session

/-- Operands are given that are answered on their own, each one in a fresh session. The negation of
each one is answered with the opposite. Their disjunction and their conjunction, the operands in any
order, have those of the answers, if the answers to declarations without an end of unfolding are
forgotten before each operand, or if they do not matter. -/
theorem validateExpr_connectives {w : Setting} (hbuilt : w.schema.Built) {node : Term}
    {operands : List ShapeExpr} (hnum : ∀ e ∈ operands, e.NumberedIn w.schema)
    {value : ShapeExpr → Bool}
    (hvalue : ∀ e ∈ operands, ∃ t, initial.validateExpr w e node = some (.ok (value e), t)) :
    (∀ e ∈ operands, ∃ t, initial.validateExpr w (.not e) node = some (.ok (!value e), t)) ∧
    ∀ es, es.Perm operands →
      ((∃ t, (w.inquiry (.or es) node).Follows w.ReturnsForgetting initial
          (.ok (operands.any value)) t) ∧
        ∀ b t, initial.validateExpr w (.or es) node = some (.ok b, t) →
          w.Unaffected (.or es) node → b = operands.any value) ∧
      ((∃ t, (w.inquiry (.and es) node).Follows w.ReturnsForgetting initial
          (.ok (operands.all value)) t) ∧
        ∀ b t, initial.validateExpr w (.and es) node = some (.ok b, t) →
          w.Unaffected (.and es) node → b = operands.all value) := by
  have hw := hbuilt.wellNumbered
  simp only [validateExpr_eq_some_iff] at hvalue ⊢
  constructor
  · intro e he
    obtain ⟨t, ht⟩ := hvalue e he
    exact ⟨t, ht.negation⟩
  · intro es hperm
    -- Any order of the operands has the constraints of the operands.
    have hor : ShapeExpr.NumberedIn w.schema (.or es) := by
      intro c hc
      have hc : c ∈ ShapeExpr.constraintsOfAll es := hc
      rw [ShapeExpr.constraintsOfAll_eq] at hc
      obtain ⟨e, he, hc⟩ := List.mem_flatMap.1 hc
      exact hnum e (hperm.mem_iff.1 he) c hc
    have hand : ShapeExpr.NumberedIn w.schema (.and es) := hor
    have hholds : ∀ c m, c ∈ es ∧ m = node → ∃ u, w.Returns c m .initial (.ok (value c)) u := by
      rintro c m ⟨hmem, rfl⟩
      exact hvalue c (hperm.mem_iff.1 hmem)
    have hany : (w.inquiry (.or es) node).answer (fun e _ => value e) =
        .ok (operands.any value) := by
      rw [← hperm.any_eq]
      exact Inquiry.answer_anyInquiry node es
    have hall : (w.inquiry (.and es) node).answer (fun e _ => value e) =
        .ok (operands.all value) := by
      rw [← hperm.all_eq]
      exact Inquiry.answer_allInquiry node es
    rw [← hany, ← hall]
    have haskedOr : ∀ c m, (w.inquiry (.or es) node).Mentions c m →
        ∃ u, w.Returns c m .initial (.ok (value c)) u :=
      fun c m hm => hholds c m (mentions_anyInquiry hm)
    have haskedAnd : ∀ c m, (w.inquiry (.and es) node).Mentions c m →
        ∃ u, w.Returns c m .initial (.ok (value c)) u :=
      fun c m hm => hholds c m (mentions_allInquiry hm)
    refine ⟨⟨?_, fun b t h hun => ?_⟩, ?_, fun b t h hun => ?_⟩
    · exact Setting.exists_follows_forgetting hw rfl hor haskedOr
    · have hanswer := hun.answer_eq hw rfl hor haskedOr h
      exact Except.ok.inj (hanswer.symm.trans hany)
    · exact Setting.exists_follows_forgetting hw rfl hand haskedAnd
    · have hanswer := hun.answer_eq hw rfl hand haskedAnd h
      exact Except.ok.inj (hanswer.symm.trans hall)

/-- The connectives of two declarations that point at each other along a circle, where they hold. -/
theorem validateExpr_connectives_mutual : ∃ b b' t u v,
    initial.validateExpr .mutual (.not (.ref (.iri ⟨"B"⟩))) (.iri ⟨"n"⟩) = some (.ok false, t) ∧
    initial.validateExpr .mutual (.or [.ref (.iri ⟨"B"⟩), .ref (.iri ⟨"A"⟩)]) (.iri ⟨"n"⟩) =
      some (.ok b, u) ∧ b = true ∧
    initial.validateExpr .mutual (.and [.ref (.iri ⟨"B"⟩), .ref (.iri ⟨"A"⟩)]) (.iri ⟨"n"⟩) =
      some (.ok b', v) ∧ b' = true := by
  have hbuilt : Setting.mutual.schema.Built := (Schema.Built.empty.addShape _).addShape _
  have hmember : ∀ e ∈ [ShapeExpr.ref (.iri ⟨"A"⟩), .ref (.iri ⟨"B"⟩)],
      e = .ref (.iri ⟨"A"⟩) ∨ e = .ref (.iri ⟨"B"⟩) := by
    intro e he
    simpa using he
  obtain ⟨hnot, hconnectives⟩ := @validateExpr_connectives .mutual hbuilt (.iri ⟨"n"⟩)
    [.ref (.iri ⟨"A"⟩), .ref (.iri ⟨"B"⟩)]
    (by intro e he; rcases hmember e he with rfl | rfl <;> exact nofun)
    (fun _ => true)
    (by intro e he; rcases hmember e he with rfl | rfl <;> exact ⟨_, rfl⟩)
  -- The operands are references, and those without an end of unfolding hold.
  have hunaffected : ∀ e, (∀ c m, (Setting.mutual.inquiry e (.iri ⟨"n"⟩)).Mentions c m →
      c ∈ [ShapeExpr.ref (.iri ⟨"B"⟩), .ref (.iri ⟨"A"⟩)] ∧ m = .iri ⟨"n"⟩) →
        Setting.mutual.Unaffected e (.iri ⟨"n"⟩) := by
    intro e hmentions c m s hreach
    obtain ⟨hmem, -⟩ := hmentions c m hreach.mentions
    obtain ⟨label, rfl⟩ : ∃ label, c = .ref label := by
      rcases hmember c (by simpa [or_comm] using hmem) with rfl | rfl <;> exact ⟨_, rfl⟩
    refine .inr (.inl ⟨_, Setting.upholds_mutual, fun hu => ?_⟩)
    exact ⟨_, Setting.upholds_mutual.progress label m hu⟩
  obtain ⟨t, ht⟩ := hnot (.ref (.iri ⟨"B"⟩)) (by simp)
  obtain ⟨⟨-, hor⟩, -, hand⟩ :=
    hconnectives [.ref (.iri ⟨"B"⟩), .ref (.iri ⟨"A"⟩)] (.swap _ _ _)
  have hany := hor _ _ rfl (hunaffected _ fun _ _ hm => mentions_anyInquiry hm)
  have hall := hand _ _ rfl (hunaffected _ fun _ _ hm => mentions_allInquiry hm)
  exact ⟨_, _, t, _, _, ht, rfl, hany, rfl, hall⟩

/-- Two operands neither of which holds on its own, and whose disjunction holds: while the first one
is in progress, a declaration is answered as if it held, and by that answer the second one holds. In
the other order it does not. Nor is the conjunction of the negation of the first one with the second
one that of their own answers. -/
theorem validateExpr_or_presumed : ∃ t u v v' x,
    initial.validateExpr .reciprocal (.ref (.iri ⟨"A"⟩)) (.iri ⟨"a"⟩) = some (.ok false, t) ∧
    initial.validateExpr .reciprocal (Setting.pointing "B") (.iri ⟨"a"⟩) = some (.ok false, u) ∧
    initial.validateExpr .reciprocal (.or [.ref (.iri ⟨"A"⟩), Setting.pointing "B"]) (.iri ⟨"a"⟩) =
      some (.ok true, v) ∧
    initial.validateExpr .reciprocal (.or [Setting.pointing "B", .ref (.iri ⟨"A"⟩)]) (.iri ⟨"a"⟩) =
      some (.ok false, v') ∧
    initial.validateExpr .reciprocal (.and [.not (.ref (.iri ⟨"A"⟩)), Setting.pointing "B"])
      (.iri ⟨"a"⟩) = some (.ok true, x) :=
  ⟨_, _, _, _, _, rfl, rfl, rfl, rfl, rfl⟩

end Session

end ShEx
