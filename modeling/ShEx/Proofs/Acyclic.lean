import Mathlib.Data.Finset.Card
import ShEx.Proofs.Termination
import ShEx.Proofs.Unfolding

/-!
# Schemas without recursion

Where no label of a schema reaches itself through references (`Schema.Acyclic`), each reference has
a rank above those of what it refers to (`Schema.Acyclic.exists_rank`).  What an evaluation asks for
is a part of the expression at hand, or stands below a reference in it, so there is an induction
along evaluations (`Schema.Acyclic.shapeInduction`).  Every request is answered
(`Schema.Acyclic.not_valuesUse`), and every unfolding ends (`Setting.exists_unfold`).
-/

set_option autoImplicit false

namespace ShEx

open ShEx.Rdf

/-! ## The references of parts -/

/-- The references of a triple expression are its labels and the references of its value
expressions. -/
theorem TripleExpr.mem_references {te : TripleExpr} {r : Reference} : r ∈ te.references ↔
    (∃ label ∈ te.labels, r = .tripleExpr label) ∨
      ∃ t ∈ te.triples, ∃ v, t.value = some v ∧ r ∈ v.references := by
  have hgroup : ∀ g : TripleGroup,
      (∀ e ∈ g.members, r ∈ e.references ↔ (∃ label ∈ e.labels, r = .tripleExpr label) ∨
        ∃ t ∈ e.triples, ∃ v, t.value = some v ∧ r ∈ v.references) →
      (r ∈ g.references ↔ (∃ label ∈ g.labels, r = .tripleExpr label) ∨
        ∃ t ∈ g.triples, ∃ v, t.value = some v ∧ r ∈ v.references) := by
    intro g h
    have hall : ∀ es : List TripleExpr, r ∈ TripleExpr.referencesOfAll es ↔
        ∃ e ∈ es, r ∈ e.references := by
      intro es
      induction es with
      | nil => simp [TripleExpr.referencesOfAll]
      | cons e es ih => simp [TripleExpr.referencesOfAll, ih]
    have hrefs : g.references = TripleExpr.referencesOfAll g.members := by
      cases g
      rfl
    rw [hrefs, hall, TripleGroup.labels_eq, TripleGroup.triples_eq]
    constructor
    · rintro ⟨e, he, hr⟩
      rcases (h e he).1 hr with ⟨label, hl, rfl⟩ | ⟨t, ht, hv⟩
      · exact .inl ⟨label, List.mem_flatMap.2 ⟨e, he, hl⟩, rfl⟩
      · exact .inr ⟨t, List.mem_flatMap.2 ⟨e, he, ht⟩, hv⟩
    · rintro (⟨label, hl, rfl⟩ | ⟨t, ht, hv⟩)
      · obtain ⟨e, he, hl⟩ := List.mem_flatMap.1 hl
        exact ⟨e, he, (h e he).2 (.inl ⟨label, hl, rfl⟩)⟩
      · obtain ⟨e, he, ht⟩ := List.mem_flatMap.1 ht
        exact ⟨e, he, (h e he).2 (.inr ⟨t, ht, hv⟩)⟩
  induction te using TripleExpr.memberInduction with
  | eachOf g ih => exact hgroup g ih
  | oneOf g ih => exact hgroup g ih
  | triple t =>
    have ht : (TripleExpr.triple t).references = t.references := rfl
    rw [ht]
    cases t with
    | mk predicate inverse value cardinality acts =>
      cases value with
      | none => simp [TripleConstraint.references, TripleExpr.labels, TripleExpr.triples]
      | some v => simp [TripleConstraint.references, TripleExpr.labels, TripleExpr.triples]
  | ref label => simp [TripleExpr.references, TripleExpr.labels, TripleExpr.triples]

/-- The references of the triple expression of a shape are references of the shape. -/
theorem Shape.expression_references {s : Shape} {te : TripleExpr} (h : s.expression = some te) :
    te.references ⊆ s.references := by
  cases s with
  | mk closed extra expression extended restricted acts =>
    cases h
    exact List.subset_append_right _ _

/-- The references of what is directly inside an expression are references of the expression. -/
theorem ShapeExpr.child_references {c e : ShapeExpr} (h : c ∈ e.children) :
    c.references ⊆ e.references := by
  have hall : ∀ es : List ShapeExpr, c ∈ es → c.references ⊆ ShapeExpr.referencesOfAll es := by
    intro es hc
    induction es with
    | nil => cases hc
    | cons e es ih =>
      rcases List.mem_cons.1 hc with rfl | hc
      · exact List.subset_append_left _ _
      · exact fun r hr => List.mem_append_right _ (ih hc hr)
  cases e with
  | or operands => exact hall operands h
  | and operands => exact hall operands h
  | not operand =>
    rw [ShapeExpr.children, List.mem_singleton] at h
    rw [h]
    exact fun r hr => hr
  | shape s =>
    rw [ShapeExpr.children, List.mem_filterMap] at h
    obtain ⟨t, ht, hv⟩ := h
    cases hte : s.expression with
    | none =>
      rw [Shape.triples, hte] at ht
      cases ht
    | some te =>
      rw [Shape.triples, hte] at ht
      refine fun r hr => Shape.expression_references hte ?_
      exact TripleExpr.mem_references.2 (.inr ⟨t, ht, c, hv, hr⟩)
  | _ => cases h

/-- The parts of an expression refer to nothing that the expression does not refer to. -/
theorem ShapeExpr.part_references {p e : ShapeExpr} (h : p ∈ e.parts) :
    p.references ⊆ e.references := by
  induction e using ShapeExpr.childInduction with
  | h e ih =>
    rw [ShapeExpr.parts_eq] at h
    rcases List.mem_cons.1 h with rfl | h
    · exact fun r hr => hr
    · obtain ⟨c, hc, h⟩ := List.mem_flatMap.1 h
      exact fun r hr => ShapeExpr.child_references hc (ih c hc h hr)

/-! ## Ranks -/

namespace Schema

/-- What a reference stands for has another reference in it. -/
inductive RefersTo (s : Schema) : Reference → Reference → Prop
  | shape {label : Label} {index : Nat} {d : Declaration} {r : Reference}
      (h : s.find? label = some (index, d)) (hr : r ∈ d.expression.references) :
      RefersTo s (.shape label) r
  | tripleExpr {label : Label} {te : TripleExpr} {r : Reference}
      (h : s.tripleExpression? label = some te) (hr : r ∈ te.references) :
      RefersTo s (.tripleExpr label) r

/-- No label reaches itself through references, those in value expressions included. -/
def Acyclic (s : Schema) : Prop := ∀ r, ¬Relation.TransGen s.RefersTo r r

/-- A rank of references that goes down along them. -/
def Ranks (s : Schema) (rank : Reference → Nat) : Prop :=
  ∀ r r', s.RefersTo r r' → rank r' < rank r

/-- Without recursion, a reference can be ranked by the number of labels that it reaches. -/
theorem Acyclic.exists_rank {s : Schema} (h : s.Acyclic) : ∃ rank, s.Ranks rank := by
  classical
  let labels : Finset Reference :=
    (s.declarations.map (Reference.shape ·.label) ++
      s.tripleExpressions.map (Reference.tripleExpr ·.1)).toFinset
  have hlabels : ∀ r r', s.RefersTo r r' → r ∈ labels := by
    intro r r' hr
    refine List.mem_toFinset.2 (List.mem_append.2 ?_)
    cases hr with
    | @shape label index d _ hl _ =>
      refine .inl (List.mem_map.2 ⟨d, (mem_of_find? hl).1, ?_⟩)
      rw [(label_of_find? hl).1]
    | @tripleExpr label te _ hl _ =>
      exact .inr (List.mem_map.2 ⟨(label, te), mem_of_tripleExpression? hl, rfl⟩)
  refine ⟨fun r => (labels.filter fun x => Relation.ReflTransGen s.RefersTo r x).card, ?_⟩
  intro r r' hr
  refine Finset.card_lt_card ⟨fun x hx => ?_, fun hsub => ?_⟩
  · obtain ⟨hx, hreach⟩ := Finset.mem_filter.1 hx
    exact Finset.mem_filter.2 ⟨hx, .head hr hreach⟩
  · -- Otherwise what `r` refers to would reach `r` again.
    have hmem := hsub (Finset.mem_filter.2 ⟨hlabels r r' hr, Relation.ReflTransGen.refl⟩)
    exact h r (.head' hr (Finset.mem_filter.1 hmem).2)

section Rank

variable {s : Schema} {rank : Reference → Nat}

/-- A bound on the ranks of what a triple expression refers to is one for all that it leads to,
because ranks go down along references. -/
theorem rank_lt_of_leadsTo (hrank : s.Ranks rank) {te te' : TripleExpr} {k : Nat}
    (h : s.LeadsTo te te') (hte : ∀ r ∈ te.references, rank r < k) :
    ∀ r ∈ te'.references, rank r < k := by
  induction h with
  | refl => exact hte
  | tail _ hstep ih =>
    obtain ⟨label, hl, hlabel⟩ := hstep
    intro r hr
    have hk := ih _ (TripleExpr.mem_references.2 (.inl ⟨label, hl, rfl⟩))
    exact Nat.lt_trans (hrank _ _ (.tripleExpr hlabel hr)) hk

/-- What an expression embeds is directly inside it, or all its references are below a reference
that is below a bound of those of the expression. -/
theorem Embeds.rank_lt (hrank : s.Ranks rank) {e c : ShapeExpr} {k : Nat} (h : s.Embeds e c)
    (he : ∀ r ∈ e.references, rank r < k) :
    c ∈ e.children ∨ ∃ k' < k, ∀ r ∈ c.references, rank r < k' := by
  cases h with
  | child hc => exact .inl hc
  | @expanded shape te te₁ te' label t v hte hlead hl hlabel ht hv =>
    have hte₁ := rank_lt_of_leadsTo hrank hlead fun r hr =>
      he r (Shape.expression_references hte hr)
    have hk := hte₁ _ (TripleExpr.mem_references.2 (.inl ⟨label, hl, rfl⟩))
    refine .inr ⟨_, hk, fun r hr => hrank _ _ (.tripleExpr hlabel ?_)⟩
    exact TripleExpr.mem_references.2 (.inr ⟨t, ht, c, hv, hr⟩)

/-- Finitely many references have a rank that none of them reaches. -/
theorem exists_rank_bound (rank : Reference → Nat) (references : List Reference) :
    ∃ k, ∀ r ∈ references, rank r < k := by
  refine ⟨(references.map rank).foldr max 0 + 1, fun r hr => Nat.lt_succ_of_le ?_⟩
  exact List.le_max_of_le (List.mem_map_of_mem hr) (Nat.le_refl _)

end Rank

/-- Induction along evaluations without recursion: what holds of an expression if it holds of all
that it embeds and of the declaration that it refers to holds of every expression. -/
theorem Acyclic.shapeInduction {s : Schema} (h : s.Acyclic) {motive : ShapeExpr → Prop}
    (step : ∀ e, (∀ c, s.Embeds e c → motive c) → (∀ label index d, e = .ref label →
      s.find? label = some (index, d) → motive d.expression) → motive e) (e : ShapeExpr) :
    motive e := by
  obtain ⟨rank, hrank⟩ := h.exists_rank
  obtain ⟨k, hk⟩ := exists_rank_bound rank e.references
  induction k using Nat.strong_induction_on generalizing e with
  | _ k ih =>
    induction e using ShapeExpr.childInduction with
    | h e ihe =>
      refine step e (fun c hc => ?_) fun label index d he hl => ?_
      · rcases hc.rank_lt hrank hk with hchild | ⟨k', hk', hlt⟩
        · exact ihe c hchild fun r hr => hk r (ShapeExpr.child_references hchild hr)
        · exact ih k' hk' c hlt
      · have hlt : rank (.shape label) < k := by
          refine hk _ ?_
          rw [he]
          exact List.mem_singleton.2 rfl
        exact ih _ hlt d.expression fun r hr => hrank _ _ (.shape hl hr)

/-- Induction along the references of triple expressions. -/
theorem Acyclic.tripleInduction {s : Schema} (h : s.Acyclic) {motive : TripleExpr → Prop}
    (step : ∀ te, (∀ label ∈ te.labels, ∀ te', s.tripleExpression? label = some te' →
      motive te') → motive te) (te : TripleExpr) : motive te := by
  obtain ⟨rank, hrank⟩ := h.exists_rank
  obtain ⟨k, hk⟩ := exists_rank_bound rank te.references
  induction k using Nat.strong_induction_on generalizing te with
  | _ k ih =>
    refine step te fun label hlabel te' hl => ?_
    have hlt := hk _ (TripleExpr.mem_references.2 (.inl ⟨label, hlabel, rfl⟩))
    exact ih _ hlt te' fun r hr => hrank _ _ (.tripleExpr hl hr)

/-- Without recursion, no value expressions use their own label. -/
theorem Acyclic.not_valuesUse {s : Schema} (h : s.Acyclic) (label : Label) :
    ¬Relation.TransGen s.ValuesUse label label := by
  obtain ⟨rank, hrank⟩ := h.exists_rank
  have hstep : ∀ l l', s.ValuesUse l l' → rank (.tripleExpr l') < rank (.tripleExpr l) := by
    rintro l l' ⟨e, ⟨te, hl, he⟩, shape, te₀, te₁, hshape, hte, hlead, hl'⟩
    obtain ⟨v, hv, he⟩ := List.mem_flatMap.1 he
    obtain ⟨t, ht, hv⟩ := List.mem_filterMap.1 hv
    have hte₀ : ∀ r ∈ te₀.references, rank r < rank (.tripleExpr l) := by
      intro r hr
      refine hrank _ _ (.tripleExpr hl (TripleExpr.mem_references.2 (.inr ⟨t, ht, v, hv, ?_⟩)))
      exact ShapeExpr.part_references (ShapeExpr.parts_subset he hshape)
        (Shape.expression_references hte hr)
    exact rank_lt_of_leadsTo hrank hlead hte₀ _
      (TripleExpr.mem_references.2 (.inl ⟨l', hl', rfl⟩))
  have hpath : ∀ l l', Relation.TransGen s.ValuesUse l l' →
      rank (.tripleExpr l') < rank (.tripleExpr l) := by
    intro l l' hll
    induction hll with
    | single hu => exact hstep _ _ hu
    | tail _ hu ih => exact Nat.lt_trans (hstep _ _ hu) ih
  exact fun hloop => Nat.lt_irrefl _ (hpath label label hloop)

end Schema

/-! ## Unfolding ends -/

namespace Setting

variable {w : Setting} {α : Type}

/-- An inquiry is resolved if the unfoldings of all that it mentions end. -/
theorem exists_resolve {q : Inquiry α}
    (h : ∀ e node, q.Mentions e node → ∃ n r, w.unfold n e node = some r) :
    ∃ n r, q.resolve (w.unfold n) = some r := by
  induction q with
  | done a => exact ⟨0, _, rfl⟩
  | failed failure => exact ⟨0, _, rfl⟩
  | ask e node next ih =>
    obtain ⟨m, r, hm⟩ := h e node (.inl ⟨rfl, rfl⟩)
    cases r with
    | error failure =>
      refine ⟨m, .error failure, ?_⟩
      rw [Inquiry.resolve, hm]
    | ok b =>
      obtain ⟨n, r, hn⟩ := ih b fun e' node' hmention => h e' node' (.inr ⟨b, hmention⟩)
      refine ⟨max m n, r, ?_⟩
      rw [Inquiry.resolve, unfold_mono (Nat.le_max_left m n) hm]
      exact Inquiry.resolve_mono (fun _ _ _ => unfold_mono (Nat.le_max_right m n)) hn

/-- Without recursion every unfolding ends. -/
theorem exists_unfold (h : w.schema.Acyclic) (e : ShapeExpr) (node : Term) :
    ∃ n r, w.unfold n e node = some r := by
  induction e using h.shapeInduction generalizing node with
  | _ e ihe ihd =>
    by_cases hc : e.isCompound
    · have hmentions : ∀ e' node', (w.inquiry e node).Mentions e' node' →
          ∃ n r, w.unfold n e' node' = some r :=
        fun e' node' hm => ihe e' (embeds_of_mentions hc hm).1 node'
      obtain ⟨n, r, hn⟩ := exists_resolve hmentions
      refine ⟨n + 1, r, ?_⟩
      rw [unfold_of_compound hc]
      exact hn
    · cases e with
      | node c => exact ⟨1, _, rfl⟩
      | ref label =>
        cases hl : w.schema.find? label with
        | none =>
          refine ⟨1, .ok false, ?_⟩
          rw [unfold, hl]
        | some entry =>
          obtain ⟨index, d⟩ := entry
          cases hd : d.isAbstract with
          | true =>
            refine ⟨1, .error (.notImplemented .abstractShapes), ?_⟩
            rw [unfold_of_known hl, if_pos hd]
          | false =>
            obtain ⟨n, r, hn⟩ := ihd label index d rfl hl node
            refine ⟨n + 1, r, ?_⟩
            rw [unfold_of_known hl, hd, if_neg Bool.false_ne_true]
            exact hn
      | _ => exact absurd rfl hc

end Setting

end ShEx
