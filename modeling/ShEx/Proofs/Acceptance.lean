import ShEx.Proofs.Typing

/-!
# What acceptance rests on

While a declaration is in progress at a node, it is taken to hold there, and what is answered on
that ground is kept.  If it turns out not to hold, what was answered before may rest on nothing
(`validate_presumed`).

That is the only way to accept what is in no valid typing.  An evaluation that begins with nothing
held and ends accepts a typing, the pairs for which it holds `true` in the end: each of them holds
under it, unless a declaration in progress was asked for that did not hold in the end (`Misled`,
`Returns.supports`).
-/

set_option autoImplicit false

namespace ShEx

open ShEx.Rdf

/-- The pairs that a state holds `true` for. -/
def Session.accepted (z : Session) : Typing :=
  { pair | z.declarations.answer? pair.1 pair.2 = some true }

namespace Setting

variable {w : Setting}

variable (w) in
/-- An evaluation asks for a declaration in progress, at a node where it does not hold in the
end. -/
def Misled (q₀ : Question) (z : Session) : Prop :=
  ∃ begun label index d node s, w.schema.find? label = some (index, d) ∧
    w.Amid q₀ begun ⟨.ref label, node, s⟩ ∧ (index, node) ∈ begun ∧
    z.declarations.answer? index node = some false

/-! ## Answers that are final -/

/-- The answers of a state are those of the end, declarations in progress left aside, which have
some answer in the end. -/
def FinalUpTo (begun : List (Nat × Term)) (z u : Session) : Prop :=
  ∀ i m b, u.declarations.answer? i m = some b → z.declarations.answer? i m = some b ∨
    ((i, m) ∈ begun ∧ ∃ b', z.declarations.answer? i m = some b')

/-- What holds fewer answers has only answers of the end as well. -/
theorem FinalUpTo.within {begun : List (Nat × Term)} {z u v : Session} (h : FinalUpTo begun z u)
    (hv : v.Within u) : FinalUpTo begun z v :=
  fun i m b hb => h i m b (hv.declarations i m b hb)

/-- While a declaration is in progress, it is left aside too. -/
theorem FinalUpTo.enter {begun : List (Nat × Term)} {z t : Session} {index : Nat} {node : Term}
    {b : Bool} (h : FinalUpTo begun z (t.settle index node b))
    (hend : z.declarations.answer? index node = some b) :
    FinalUpTo ((index, node) :: begun) z t := by
  intro i m c hc
  by_cases heq : index = i ∧ node = m
  · obtain ⟨rfl, rfl⟩ := heq
    exact .inr ⟨List.mem_cons_self, b, hend⟩
  · have hu : (t.settle index node b).declarations.answer? i m = some c := by
      rw [Session.answer?_settle, if_neg heq, hc]
    refine (h i m c hu).imp_right ?_
    rintro ⟨hmem, hfinal⟩
    exact ⟨List.mem_cons_of_mem _ hmem, hfinal⟩

/-! ## Answers that are supported -/

variable (w) in
/-- What a later state holds `true` for and an earlier one does not holds under a typing. -/
def Supports (T : Typing) (s u : Session) : Prop :=
  ∀ i m, u.declarations.answer? i m = some true → s.declarations.answer? i m = some true ∨
    ∃ d, w.schema.declaration? i = some d ∧ w.HoldsUnder T d.expression m

variable {T : Typing}

/-- Where nothing is added, there is nothing to be supported. -/
theorem Supports.refl (s : Session) : w.Supports T s s := fun _ _ => .inl

/-- What the first of two evaluations adds is supported by itself, and so is what the second one
adds. -/
theorem Supports.trans {s t u : Session} (h : w.Supports T s t) (h' : w.Supports T t u) :
    w.Supports T s u := by
  intro i m hm
  rcases h' i m hm with hm | hm
  · exact h i m hm
  · exact .inr hm

/-- A declaration that ends adds its own answer; the typing has to support it only if it is
`true`. -/
theorem Supports.settle {s t : Session} {index : Nat} {node : Term} {d : Declaration} {b : Bool}
    (hd : w.schema.declaration? index = some d) (h : w.Supports T (s.enter index node) t)
    (hb : b = true → w.HoldsUnder T d.expression node) :
    w.Supports T s (t.settle index node b) := by
  intro i m hm
  rcases Answers.answer?_hold_cases hm with ⟨⟨rfl, rfl⟩, htrue⟩ | ⟨hne, hm⟩
  · exact .inr ⟨d, hd, hb htrue⟩
  · refine (h i m hm).imp_left fun henter => ?_
    rwa [Session.answer?_enter, if_neg hne] at henter

/-- An inquiry that is answered holds `true` for nothing that its questions do not. -/
theorem follows_supports {α : Type} {q : Inquiry α} {s t : Session} {a : α}
    (h : q.Follows (fun _ _ s r u => ∀ b, r = .ok b → w.Supports T s u) s (.ok a) t) :
    w.Supports T s t := by
  induction q generalizing s with
  | done a' =>
    obtain ⟨-, rfl⟩ := h
    exact .refl _
  | failed failure => cases h.1
  | ask e node next ih =>
    rcases h with ⟨b, u, hb, hrest⟩ | ⟨failure, -, hf⟩
    · exact (hb b rfl).trans (ih b hrest)
    · cases hf

open scoped Classical in
/-- An expression that is accepted holds under a typing, if that is so of the questions on the
way. -/
theorem holdsUnder_of_follows (hpos : w.schema.Positive) {e : ShapeExpr} {node : Term}
    (he : e ∈ w.schema.expressions) (hc : e.isCompound) {s t : Session}
    (h : (w.inquiry e node).Follows (fun e' m s r u => w.Returns e' m s r u ∧
      (r = .ok true → w.HoldsUnder T e' m) ∧ u.Within t) s (.ok true) t) :
    w.HoldsUnder T e node := by
  -- Of what holds, only what was found on the way is counted.
  have hanswer : (w.inquiry e node).answer
      (fun e' m => decide (w.HoldsUnder T e' m ∧ w.Returns e' m t (.ok true) t)) = .ok true := by
    refine h.answer_eq fun e' m s b u hR => ?_
    obtain ⟨hret, hholds, hut⟩ := hR
    have hagain := hret.again hut
    cases b with
    | true => exact decide_eq_true ⟨hholds rfl, hagain⟩
    | false =>
      refine decide_eq_false ?_
      rintro ⟨-, htrue⟩
      cases (hagain.unique htrue).1
  exact holdsUnder_of_answer hpos he hc (fun v m hv => (of_decide_eq_true hv).1) hanswer

/-- An evaluation that is not misled accepts only what holds under the pairs that are accepted in
the end. -/
theorem Returns.supports (hw : WellNumbered w.schema.constraints) (hpos : w.schema.Positive)
    {q₀ : Question} {z : Session} (hled : ¬w.Misled q₀ z) {e : ShapeExpr} {node : Term}
    {s u : Session} {b : Bool} (h : w.Returns e node s (.ok b) u) {begun : List (Nat × Term)}
    (hamid : w.Amid q₀ begun ⟨e, node, s⟩) (hsound : s.Sound w) (hnum : e.NumberedIn w.schema)
    (hend : FinalUpTo begun z u) :
    w.Supports z.accepted s u ∧
      (e ∈ w.schema.expressions → b = true → w.HoldsUnder z.accepted e node) := by
  refine h.induct (motive := fun e node s r u => ∀ b, r = .ok b → ∀ begun,
    w.Amid q₀ begun ⟨e, node, s⟩ → s.Sound w → e.NumberedIn w.schema → FinalUpTo begun z u →
      w.Supports z.accepted s u ∧
        (e ∈ w.schema.expressions → b = true → w.HoldsUnder z.accepted e node))
    (fun e node s r u hstep b hr begun hamid hsound hnum hend => ?_)
    b rfl begun hamid hsound hnum hend
  cases hr
  cases hstep with
  | compound hc hq =>
    have hmentions : ∀ e' m, (w.inquiry e node).Mentions e' m → e'.NumberedIn w.schema :=
      fun e' m hm => hnum.mentions hc hm
    have hcourse := hq.course (I := Session.Sound w) (fun _ _ _ _ _ hR => hR.1)
      (fun _ _ _ _ _ hR hn hs => hR.1.sound hw hn hs) hmentions hsound
    have hquestions : (w.inquiry e node).Follows (fun e' m s r v => w.Returns e' m s r v ∧
        v.Within u ∧ ∀ b, r = .ok b → w.Supports z.accepted s v ∧
          (e ∈ w.schema.expressions → b = true → w.HoldsUnder z.accepted e' m)) s (.ok b) u := by
      refine hcourse.mono fun e' m s' r v hR => ?_
      obtain ⟨⟨hret, ih⟩, hreach, hs, hvu⟩ := hR
      refine ⟨hret, hvu, fun b' hb' => ?_⟩
      have hembeds := (embeds_of_mentions hc hreach.mentions).1
      obtain ⟨hsupports, hholds⟩ := ih b' hb' begun (hamid.compound hc hreach) hs
        (hnum.embeds hembeds) (hend.within hvu)
      exact ⟨hsupports, fun he => hholds (w.schema.closed_expressions.embeds e e' hembeds he)⟩
    refine ⟨follows_supports (hquestions.mono fun _ _ _ _ _ hR b hb => (hR.2.2 b hb).1), ?_⟩
    rintro he rfl
    refine holdsUnder_of_follows hpos he hc (hquestions.mono fun e' m s' r v hR => ?_)
    obtain ⟨hret, hvu, hholds⟩ := hR
    exact ⟨hret, fun hr => (hholds true hr).2 he rfl, hvu⟩
  | @constraint c _ _ _ _ hc =>
    obtain ⟨hr, -, hdecl⟩ :=
      evaluateConstraint_sound hw (hnum c (List.mem_singleton.2 rfl)) hsound hc
    refine ⟨fun i m hm => .inl (hdecl ▸ hm), ?_⟩
    rintro - rfl
    exact .constraint hr.symm
  | unknown hl => exact ⟨.refl s, nofun⟩
  | @held label _ _ index d _ hl ha =>
    refine ⟨.refl s, ?_⟩
    rintro - rfl
    rcases hend index node true ha with hz | ⟨hbegun, b', hb'⟩
    · exact .known hl hz
    · cases b' with
      | true => exact .known hl hb'
      | false => exact absurd ⟨begun, label, index, d, node, s, hl, hamid, hbegun, hb'⟩ hled
  | @settled label _ _ t index d _ he hr =>
    obtain ⟨hret, ih⟩ := hr
    obtain ⟨hmem, -⟩ := Schema.mem_of_find? he.known
    -- The declaration was not in progress before, so its answer is the one of the end.
    have hfinal : z.declarations.answer? index node = some b := by
      rcases hend index node b ((returns_iff.2 (.settled he hret)).answered he.known) with
        hz | ⟨hbegun, -⟩
      · exact hz
      · have hs := hamid.answered index node hbegun
        rw [he.unanswered] at hs
        cases hs
    obtain ⟨hsupports, hholds⟩ := ih b rfl _ (hamid.declaration he) (hsound.enter index node)
      (ShapeExpr.numberedIn_of_declared hmem) (hend.enter hfinal)
    have hdecl := (Schema.label_of_find? he.known).2
    refine ⟨hsupports.settle hdecl (hholds (Schema.declared_mem_expressions hmem)), ?_⟩
    rintro - rfl
    exact .known he.known hfinal

end Setting

/-! ## Requests -/

/-- To the two declarations that refer to each other come a third one, which asks for the second
one as the first does, and one that asks for the first or the third. -/
def Setting.presumed : Setting where
  schema := (reciprocal.schema.addShape ⟨.iri ⟨"C"⟩, false, pointing "B"⟩).addShape
    ⟨.iri ⟨"L"⟩, false, .or [.ref (.iri ⟨"A"⟩), .ref (.iri ⟨"C"⟩)]⟩
  graph := reciprocal.graph
  listing := reciprocal.listing
  limits := .standard

/-- No declaration of this schema has a negation or asks for incoming arcs. -/
theorem Setting.positive_presumed : presumed.schema.Positive :=
  Schema.positive_of_flat rfl rfl rfl

namespace Session

variable {w : Setting}

/-- What a session without history accepts is in a valid typing, unless it has asked for a
declaration in progress at a node where no valid typing has it, and has been told that it holds. -/
theorem typed_of_accepted (hbuilt : w.schema.Built) (hpos : w.schema.Positive) {node : Term}
    {label : Label} {t : Session}
    (h : initial.validate w node (some label) = some (.ok true, t)) {index : Nat}
    {d : Declaration} (hl : w.schema.find? label = some (index, d)) :
    (w.Valid t.accepted ∧ (index, node) ∈ t.accepted) ∨
      ∃ begun label' index' d' node' s, w.schema.find? label' = some (index', d') ∧
        w.Amid ⟨.ref label, node, initial⟩ begun ⟨.ref label', node', s⟩ ∧
        (index', node') ∈ begun ∧ t.declarations.answer? index' node' = some false ∧
        ∀ T, w.Valid T → (index', node') ∉ T := by
  have hw := hbuilt.wellNumbered
  have hret := returns_of_validate h
  by_cases hled : w.Misled ⟨.ref label, node, initial⟩ t
  · obtain ⟨begun, label', index', d', node', s, hl', hamid, hbegun, hfalse⟩ := hled
    have hrejects := (hret.rejects hw hpos nofun Setting.fair_initial).1.rejects
    exact .inr ⟨begun, label', index', d', node', s, hl', hamid, hbegun, hfalse,
      hrejects index' node' hfalse⟩
  · left
    obtain ⟨hsupports, -⟩ := hret.supports hw hpos hled .start (sound_initial w) nofun
      fun _ _ _ hb => .inl hb
    refine ⟨fun i m hm => ?_, hret.answered hl⟩
    rcases hsupports i m hm with hinitial | hholds
    · cases hinitial
    · exact hholds

/-- On the circle both declarations are asked for while they are in progress, and hold. -/
theorem typed_of_accepted_onCircle : ∃ t : Session,
    initial.validate .circleAndArc (.iri ⟨"n"⟩) (some (.iri ⟨"A"⟩)) = some (.ok true, t) ∧
    Setting.circleAndArc.Valid t.accepted ∧ (0, .iri ⟨"n"⟩) ∈ t.accepted := by
  have h : initial.validate .circleAndArc (.iri ⟨"n"⟩) (some (.iri ⟨"A"⟩)) =
      some (.ok true, ⟨0, [((0, .iri ⟨"n"⟩), true), ((1, .iri ⟨"n"⟩), true)], [], []⟩) := rfl
  refine ⟨_, h, ?_⟩
  refine (typed_of_accepted ((Schema.Built.empty.addShape _).addShape _)
    Setting.positive_circleAndArc h rfl).resolve_right ?_
  rintro ⟨-, -, i, -, m, -, -, -, -, hfalse, -⟩
  simp only [Answers.answer?_cons] at hfalse
  split at hfalse
  · cases hfalse
  · split at hfalse
    · cases hfalse
    · cases hfalse

/-- Nothing is known yet, and the declaration `L` is asked for at `a`.  Its first operand fails, but
while it was in progress the declaration `B` was found to hold at `b` on the ground that it holds,
and that answer is kept and makes the second operand hold.  No valid typing has `L` at `a`. -/
theorem validate_presumed : Setting.presumed.schema.Built ∧ Setting.presumed.schema.Positive ∧
    (∃ t, initial.validate .presumed (.iri ⟨"a"⟩) (some (.iri ⟨"L"⟩)) = some (.ok true, t)) ∧
    (∃ d, Setting.presumed.schema.find? (.iri ⟨"L"⟩) = some (3, d)) ∧
    ∀ T, Setting.presumed.Valid T → (3, .iri ⟨"a"⟩) ∉ T := by
  have hbuilt : Setting.presumed.schema.Built :=
    (((Schema.Built.empty.addShape _).addShape _).addShape _).addShape _
  have hpos := Setting.positive_presumed
  refine ⟨hbuilt, hpos, ⟨_, rfl⟩, ⟨_, rfl⟩, fun T hT hin => ?_⟩
  -- A session that is asked for an operand alone rejects it.
  have hA : initial.validate .presumed (.iri ⟨"a"⟩) (some (.iri ⟨"A"⟩)) = some (.ok false, _) := rfl
  have hC : initial.validate .presumed (.iri ⟨"a"⟩) (some (.iri ⟨"C"⟩)) = some (.ok false, _) := rfl
  have hnotA := (returns_of_validate hA).not_mem_of_rejected hbuilt.wellNumbered hpos
    Setting.fair_initial rfl hT
  have hnotC := (returns_of_validate hC).not_mem_of_rejected hbuilt.wellNumbered hpos
    Setting.fair_initial rfl hT
  obtain ⟨d, hd, hholds⟩ := hT 3 _ hin
  cases hd
  cases hholds with
  | or hmem h =>
    rcases List.mem_cons.1 hmem with rfl | hmem
    · cases h with
      | known hl ht =>
        cases hl
        exact hnotA ht
    · cases List.mem_singleton.1 hmem
      cases h with
      | known hl ht =>
        cases hl
        exact hnotC ht

end Session

end ShEx
