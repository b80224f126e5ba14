import ShEx.Proofs.Subexpressions

/-!
# What triple expressions stand for

`Schema.Expands` says what formula a triple expression stands for, references followed, with the
triple constraints at its leaves as slots in reading order.  What is compiled of a triple expression
is what it stands for (`Schema.expandsTo_of_compile`), and it stands for one formula only
(`Schema.Expands.unique`).  Its slots are the triple constraints that it reveals, opened step by
step (`Schema.Expands.mem_slots`), which are leaves of the triple expressions that it leads to.
-/

set_option autoImplicit false

namespace ShEx

open ShEx.Rdf

/-- A chain of two steps that succeeds has both of them succeed. -/
theorem exists_of_bind_eq_ok {ε α β : Type} {x : Except ε α} {f : α → Except ε β} {b : β}
    (h : (x >>= f) = .ok b) : ∃ a, x = .ok a ∧ f a = .ok b := by
  cases x with
  | error e => cases h
  | ok a => exact ⟨a, rfl, h⟩

/-- A result that is an option with a value is not a failure. -/
theorem eq_ok_of_toOption_eq_some {ε α : Type} {x : Except ε α} {a : α}
    (h : x.toOption = some a) : x = .ok a := by
  cases x with
  | error e => cases h
  | ok b => exact congrArg Except.ok (Option.some.inj h)

/-- If two computations one after the other fail, the first one fails, or the second one on what the
first one gives. -/
theorem bind_eq_error {ε α β : Type} {x : Except ε α} {f : α → Except ε β} {failure : ε}
    (h : (x >>= f) = .error failure) :
    x = .error failure ∨ ∃ a, x = .ok a ∧ f a = .error failure := by
  cases x with
  | error failure' =>
    cases h
    exact .inl rfl
  | ok a => exact .inr ⟨a, rfl, h⟩

namespace Schema

/-! ## Where references lead -/

/-- A triple expression refers to the triple expression with a label. -/
def Refers (s : Schema) (te te' : TripleExpr) : Prop :=
  ∃ label ∈ te.labels, s.tripleExpression? label = some te'

/-- A triple expression leads to another one by references that follow each other. -/
def LeadsTo (s : Schema) : TripleExpr → TripleExpr → Prop := Relation.ReflTransGen s.Refers

/-- A triple expression that another one leads to is that one, or has a label. -/
theorem LeadsTo.labelled {s : Schema} {te te' : TripleExpr} (h : s.LeadsTo te te') :
    te' = te ∨ ∃ label, s.tripleExpression? label = some te' := by
  rcases Relation.ReflTransGen.cases_tail h with h | ⟨_, _, label, _, hl⟩
  · exact .inl h
  · exact .inr ⟨label, hl⟩

/-- A triple expression opens into its members, or into what it refers to. -/
inductive Opens (s : Schema) : TripleExpr → TripleExpr → Prop
  | eachOf {g : TripleGroup} {e : TripleExpr} (h : e ∈ g.members) : Opens s (.eachOf g) e
  | oneOf {g : TripleGroup} {e : TripleExpr} (h : e ∈ g.members) : Opens s (.oneOf g) e
  | ref {label : Label} {te : TripleExpr} (h : s.tripleExpression? label = some te) :
      Opens s (.ref label) te

section Opens

variable {s : Schema} {e : TripleExpr}

/-- A conjunction of triple expressions opens into its members. -/
@[simp]
theorem opens_eachOf_iff {g : TripleGroup} : s.Opens (.eachOf g) e ↔ e ∈ g.members :=
  ⟨fun h => by cases h; assumption, .eachOf⟩

/-- A choice of triple expressions opens into its members. -/
@[simp]
theorem opens_oneOf_iff {g : TripleGroup} : s.Opens (.oneOf g) e ↔ e ∈ g.members :=
  ⟨fun h => by cases h; assumption, .oneOf⟩

/-- A triple constraint opens into nothing. -/
@[simp]
theorem not_opens_triple {t : TripleConstraint} : ¬s.Opens (.triple t) e := nofun

/-- A reference opens into the triple expression with its label. -/
@[simp]
theorem opens_ref_iff {label : Label} :
    s.Opens (.ref label) e ↔ s.tripleExpression? label = some e :=
  ⟨fun h => by cases h; assumption, .ref⟩

end Opens

/-- A triple expression reveals what it can be opened into, step by step. -/
def Reveals (s : Schema) : TripleExpr → TripleExpr → Prop := Relation.ReflTransGen s.Opens

/-- What a triple expression reveals is itself or is revealed by something that it opens into. -/
theorem reveals_iff {s : Schema} (te : TripleExpr) {te' : TripleExpr} :
    s.Reveals te te' ↔ te = te' ∨ ∃ e, s.Opens te e ∧ s.Reveals e te' :=
  Relation.ReflTransGen.cases_head_iff

/-- A shape reveals what its triple expression does. -/
def Shows (s : Schema) (shape : Shape) (e : TripleExpr) : Prop :=
  ∃ te, shape.expression = some te ∧ s.Reveals te e

/-! ## The formula of a triple expression -/

mutual

/-- A triple expression stands for a formula; its slots come behind those there are before. -/
inductive Expands (s : Schema) :
    TripleExpr → List TripleConstraint → Formula → List TripleConstraint → Prop
  | eachOf {g : TripleGroup} {before after : List TripleConstraint} {parts : List Formula}
      (h : ExpandsAll s g.members before parts after) :
      Expands s (.eachOf g) before (.all parts) after
  | oneOf {g : TripleGroup} {before after : List TripleConstraint} {parts : List Formula}
      (h : ExpandsAll s g.members before parts after) :
      Expands s (.oneOf g) before (.one parts) after
  | triple {t : TripleConstraint} {before : List TripleConstraint} :
      Expands s (.triple t) before (.slot before.length) (before ++ [t])
  | known {label : Label} {te : TripleExpr} {before after : List TripleConstraint} {f : Formula}
      (hl : s.tripleExpression? label = some te) (h : Expands s te before f after) :
      Expands s (.ref label) before f after
  | unknown {label : Label} {before : List TripleConstraint}
      (hl : s.tripleExpression? label = none) :
      Expands s (.ref label) before (.value .unsatisfied) before

/-- Several triple expressions stand for formulas, one after the other. -/
inductive ExpandsAll (s : Schema) :
    List TripleExpr → List TripleConstraint → List Formula → List TripleConstraint → Prop
  | nil {before : List TripleConstraint} : ExpandsAll s [] before [] before
  | cons {te : TripleExpr} {tes : List TripleExpr} {before between after : List TripleConstraint}
      {f : Formula} {fs : List Formula} (h : Expands s te before f between)
      (hs : ExpandsAll s tes between fs after) : ExpandsAll s (te :: tes) before (f :: fs) after

end

/-- What the triple expression of a shape stands for; without one nothing is asked. -/
def ExpandsTo (s : Schema) : Option TripleExpr → Formula → List TripleConstraint → Prop
  | none, f, slots => f = .value .satisfied ∧ slots = []
  | some te, f, slots => s.Expands te [] f slots

variable {s : Schema}

/-- Following references does not change what an expression stands for. -/
theorem expands_of_follow? {n : Nat} {e target : TripleExpr} {before after : List TripleConstraint}
    {f : Formula} (h : s.follow? n e = some target) (ht : s.Expands target before f after) :
    s.Expands e before f after := by
  induction n generalizing e with
  | zero => cases h
  | succ n ih =>
    cases e with
    | ref label =>
      simp only [follow?] at h
      cases hl : s.tripleExpression? label with
      | none =>
        rw [hl] at h
        cases h
      | some e' =>
        rw [hl] at h
        exact .known hl (ih h)
    | _ =>
      cases h
      exact ht

section CompileWith

variable {expand : Label → List TripleConstraint → Except Failure Compiled}

/-- Members that are compiled one after the other stand for their formulas, if each one that is
compiled does. -/
theorem expandsAll_of_compileAllWith {es : List TripleExpr} {before after : List TripleConstraint}
    {fs : List Formula} (h : TripleExpr.compileAllWith expand es before = .ok (fs, after))
    (he : ∀ e ∈ es, ∀ before f after, e.compileWith expand before = .ok (f, after) →
      s.Expands e before f after) : s.ExpandsAll es before fs after := by
  induction es generalizing before fs with
  | nil =>
    cases h
    exact .nil
  | cons e es ih =>
    simp only [TripleExpr.compileAllWith] at h
    obtain ⟨⟨f, between⟩, hf, h⟩ := exists_of_bind_eq_ok h
    obtain ⟨⟨gs, last⟩, hfs, h⟩ := exists_of_bind_eq_ok h
    cases h
    refine .cons (he e List.mem_cons_self _ _ _ hf) ?_
    exact ih hfs fun e' he' => he e' (List.mem_cons_of_mem _ he')

/-- A group that is compiled has members that stand for its formulas, if each one that is compiled
does. -/
theorem expandsAll_of_compileWith {g : TripleGroup} {before after : List TripleConstraint}
    {fs : List Formula} (h : g.compileWith expand before = .ok (fs, after))
    (he : ∀ e ∈ g.members, ∀ before f after, e.compileWith expand before = .ok (f, after) →
      s.Expands e before f after) : s.ExpandsAll g.members before fs after := by
  obtain ⟨members, cardinality, acts⟩ := g
  simp only [TripleGroup.compileWith] at h
  split at h
  · cases h
  · obtain ⟨-, -, h⟩ := exists_of_bind_eq_ok h
    exact expandsAll_of_compileAllWith h he

/-- A compiled triple expression stands for its formula, if labels are expanded rightly. -/
theorem expands_of_compileWith {te : TripleExpr} {before after : List TripleConstraint}
    {f : Formula} (h : te.compileWith expand before = .ok (f, after))
    (hl : ∀ label before f after, expand label before = .ok (f, after) →
      s.Expands (.ref label) before f after) : s.Expands te before f after := by
  induction te using TripleExpr.memberInduction generalizing before f after with
  | eachOf g ih =>
    simp only [TripleExpr.compileWith] at h
    obtain ⟨⟨parts, last⟩, hg, h⟩ := exists_of_bind_eq_ok h
    cases h
    exact .eachOf (expandsAll_of_compileWith hg fun e he _ _ _ h => ih e he h)
  | oneOf g ih =>
    simp only [TripleExpr.compileWith] at h
    obtain ⟨⟨parts, last⟩, hg, h⟩ := exists_of_bind_eq_ok h
    cases h
    exact .oneOf (expandsAll_of_compileWith hg fun e he _ _ _ h => ih e he h)
  | triple t =>
    simp only [TripleExpr.compileWith] at h
    obtain ⟨-, -, h⟩ := exists_of_bind_eq_ok h
    cases h
    exact .triple
  | ref label => exact hl label _ _ _ h

end CompileWith

/-- What is compiled stands for the formula that results, with its slots behind those there were. -/
theorem expands_of_compileTriple {n : Nat} {expanding : List Label} {te : TripleExpr}
    {before after : List TripleConstraint} {f : Formula}
    (h : s.compileTriple n expanding te before = .ok (f, after)) : s.Expands te before f after := by
  induction n generalizing expanding te before f after with
  | zero => exact expands_of_compileWith h fun _ _ _ _ hc => by cases hc
  | succ n ih =>
    refine expands_of_compileWith h fun label before f after hc => ?_
    split at hc
    · cases hc
    · split at hc
      · next target hr => exact expands_of_follow? hr (ih hc)
      · split at hc
        · cases hc
        · next hnone =>
          cases hc
          exact .unknown (by simpa using hnone)

/-- What is compiled of a shape is what its triple expression stands for. -/
theorem expandsTo_of_compile {expression : Option TripleExpr} {f : Formula}
    {slots : List TripleConstraint} (h : s.compile expression = .ok (f, slots)) :
    s.ExpandsTo expression f slots := by
  cases expression with
  | none =>
    cases h
    exact ⟨rfl, rfl⟩
  | some te => exact expands_of_compileTriple h

mutual

/-- A triple expression stands for at most one formula with the same slots before it. -/
theorem Expands.unique {te : TripleExpr} {before after after' : List TripleConstraint}
    {f f' : Formula} : s.Expands te before f after → s.Expands te before f' after' →
    f = f' ∧ after = after'
  | .eachOf h, h' => by
    cases h' with
    | eachOf h' =>
      have heq := ExpandsAll.unique h h'
      exact ⟨congrArg _ heq.1, heq.2⟩
  | .oneOf h, h' => by
    cases h' with
    | oneOf h' =>
      have heq := ExpandsAll.unique h h'
      exact ⟨congrArg _ heq.1, heq.2⟩
  | .triple, h' => by
    cases h' with
    | triple => exact ⟨rfl, rfl⟩
  | .known hl h, h' => by
    cases h' with
    | known hl' h' =>
      have hte := Option.some.inj (hl.symm.trans hl')
      exact Expands.unique h (hte ▸ h')
    | unknown hl' =>
      rw [hl] at hl'
      cases hl'
  | .unknown hl, h' => by
    cases h' with
    | known hl' h' =>
      rw [hl] at hl'
      cases hl'
    | unknown hl' => exact ⟨rfl, rfl⟩

/-- Several triple expressions stand for at most one list of formulas with the same slots before
them. -/
theorem ExpandsAll.unique {tes : List TripleExpr} {before after after' : List TripleConstraint}
    {fs fs' : List Formula} : s.ExpandsAll tes before fs after →
    s.ExpandsAll tes before fs' after' → fs = fs' ∧ after = after'
  | .nil, h' => by
    cases h' with
    | nil => exact ⟨rfl, rfl⟩
  | .cons h hs, h' => by
    cases h' with
    | cons h' hs' =>
      have heq := Expands.unique h h'
      have heqs := ExpandsAll.unique hs (heq.2 ▸ hs')
      exact ⟨congrArg₂ _ heq.1 heqs.1, heqs.2⟩

end

/-- The triple expression of a shape stands for at most one formula with its slots. -/
theorem ExpandsTo.unique {expression : Option TripleExpr} {f f' : Formula}
    {slots slots' : List TripleConstraint} (h : s.ExpandsTo expression f slots)
    (h' : s.ExpandsTo expression f' slots') : f = f' ∧ slots = slots' := by
  cases expression with
  | none => exact ⟨h.1.trans h'.1.symm, h.2.trans h'.2.symm⟩
  | some te => exact Expands.unique h h'

/-! ## The slots of a triple expression -/

mutual

/-- The slots that come with a triple expression are the triple constraints that it reveals. -/
theorem Expands.mem_slots {te : TripleExpr} {before after : List TripleConstraint} {f : Formula}
    {t : TripleConstraint} :
    s.Expands te before f after → (t ∈ after ↔ t ∈ before ∨ s.Reveals te (.triple t))
  | .eachOf h => by
    rw [ExpandsAll.mem_slots h, reveals_iff]
    simp only [opens_eachOf_iff, reduceCtorEq, false_or]
  | .oneOf h => by
    rw [ExpandsAll.mem_slots h, reveals_iff]
    simp only [opens_oneOf_iff, reduceCtorEq, false_or]
  | .triple => by
    rw [List.mem_append, List.mem_singleton, reveals_iff]
    simp only [not_opens_triple, TripleExpr.triple.injEq, false_and, exists_false, or_false,
      eq_comm]
  | .known hl h => by
    rw [Expands.mem_slots h, reveals_iff (.ref _)]
    simp only [opens_ref_iff, hl, Option.some.injEq, exists_eq_left', reduceCtorEq, false_or]
  | .unknown hl => by
    rw [reveals_iff]
    simp only [opens_ref_iff, hl, reduceCtorEq, false_and, exists_false, or_self, or_false]

/-- The slots behind several triple expressions are those before them and the triple constraints
that they reveal. -/
theorem ExpandsAll.mem_slots {tes : List TripleExpr} {before after : List TripleConstraint}
    {fs : List Formula} {t : TripleConstraint} : s.ExpandsAll tes before fs after →
    (t ∈ after ↔ t ∈ before ∨ ∃ e ∈ tes, s.Reveals e (.triple t))
  | .nil => by simp
  | .cons h hs => by
    rw [ExpandsAll.mem_slots hs, Expands.mem_slots h, List.exists_mem_cons_iff, or_assoc]

end

/-- The slots of a shape are the triple constraints that it reveals. -/
theorem ExpandsTo.mem_slots {shape : Shape} {f : Formula} {slots : List TripleConstraint}
    (h : s.ExpandsTo shape.expression f slots) (t : TripleConstraint) :
    t ∈ slots ↔ s.Shows shape (.triple t) := by
  unfold Shows
  cases he : shape.expression with
  | none =>
    rw [he] at h
    obtain ⟨-, rfl⟩ := h
    simp only [List.not_mem_nil, reduceCtorEq, false_and, exists_false]
  | some te =>
    rw [he] at h
    have hslots := Expands.mem_slots (t := t) h
    simpa using hslots

/-- A triple constraint that is revealed is a leaf of a triple expression that is led to. -/
theorem Reveals.leaf {te : TripleExpr} {t : TripleConstraint} (h : s.Reveals te (.triple t)) :
    ∃ te', s.LeadsTo te te' ∧ t ∈ te'.triples := by
  have hgroup : ∀ {g : TripleGroup} {e te : TripleExpr}, te.triples = g.triples →
      te.labels = g.labels → e ∈ g.members → (∃ te', s.LeadsTo e te' ∧ t ∈ te'.triples) →
        ∃ te', s.LeadsTo te te' ∧ t ∈ te'.triples := by
    intro g e te htriples hlabels he ⟨te', hlead, ht⟩
    rcases Relation.ReflTransGen.cases_head hlead with rfl | ⟨te₁, ⟨label, hl, hte₁⟩, hlead⟩
    · refine ⟨te, .refl, ?_⟩
      rw [htriples]
      exact TripleGroup.triples_of_member he ht
    · refine ⟨te', .head ⟨label, ?_, hte₁⟩ hlead, ht⟩
      rw [hlabels]
      exact TripleGroup.labels_of_member he hl
  induction h using Relation.ReflTransGen.head_induction_on with
  | refl => exact ⟨_, .refl, List.mem_singleton.2 rfl⟩
  | head hopens _ ih =>
    cases hopens with
    | eachOf he => exact hgroup rfl rfl he ih
    | oneOf he => exact hgroup rfl rfl he ih
    | ref hl =>
      obtain ⟨te', hlead, ht⟩ := ih
      exact ⟨te', .head ⟨_, List.mem_singleton.2 rfl, hl⟩ hlead, ht⟩

/-- The slots of a triple expression are leaves of triple expressions that it leads to. -/
theorem Expands.slots {te : TripleExpr} {before after : List TripleConstraint} {f : Formula}
    (h : s.Expands te before f after) (t : TripleConstraint) (ht : t ∈ after) :
    t ∈ before ∨ ∃ te', s.LeadsTo te te' ∧ t ∈ te'.triples :=
  (h.mem_slots.1 ht).imp id Reveals.leaf

end Schema

end ShEx
