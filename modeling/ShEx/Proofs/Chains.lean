import Mathlib.Order.WellFounded
import ShEx.Proofs.Compilation

/-!
# Chains of references

A reference is linked to the triple expression with its label, which may be a reference again.  What
a triple expression stands for is looked for along this chain, and only so many steps are made: one
more than there are labelled triple expressions.

That is enough for every chain (`Schema.resolveTriple?_chains`).  A chain that passes more labels
than there are has passed one of them twice, and one that has passed a label twice does not end.
-/

set_option autoImplicit false

namespace ShEx.Schema

variable {s : Schema} {e x : TripleExpr}

/-! ## Where a chain stops -/

/-- A label has one triple expression at most, so a reference has one link at most. -/
theorem rightUnique_links (s : Schema) : Relator.RightUnique s.Links := by
  rintro _ _ _ ⟨h⟩ ⟨h'⟩
  exact Option.some.inj (h.symm.trans h')

/-- There is no link behind a triple expression. -/
def Stops (s : Schema) (x : TripleExpr) : Prop := ∀ e, ¬s.Links x e

/-- There is no link behind what is not a reference, nor behind a reference to an unknown label, and
these are all. -/
theorem stops_iff : s.Stops x ↔ ∀ label, x = .ref label → s.tripleExpression? label = none := by
  constructor
  · rintro h label rfl
    exact Option.eq_none_iff_forall_ne_some.2 fun e hl => h e (.ref hl)
  · rintro h e ⟨hl⟩
    rw [h _ rfl] at hl
    cases hl

/-- Nothing is linked behind a group or a triple constraint. -/
theorem stops_of_ne_ref (h : ∀ label, x ≠ .ref label) : s.Stops x :=
  stops_iff.2 fun label hx => (h label hx).elim

/-- Nothing is linked behind a reference to an unknown label. -/
theorem stops_ref {label : Label} (h : s.tripleExpression? label = none) :
    s.Stops (.ref label) := by
  refine stops_iff.2 fun label' heq => ?_
  cases heq
  exact h

/-- A chain that begins where there is no link ends there. -/
theorem Stops.eq_of_links {y : TripleExpr} (hx : s.Stops x)
    (h : Relation.ReflTransGen s.Links x y) : x = y := by
  rcases Relation.ReflTransGen.cases_head h with rfl | ⟨z, hlink, -⟩
  · rfl
  · exact (hx z hlink).elim

/-- A chain stops at one place. -/
theorem Stops.unique {y : TripleExpr} (hx : s.Stops x) (hy : s.Stops y)
    (hex : Relation.ReflTransGen s.Links e x) (hey : Relation.ReflTransGen s.Links e y) :
    x = y := by
  rcases hex.total_of_right_unique s.rightUnique_links hey with h | h
  · exact hx.eq_of_links h
  · exact (hy.eq_of_links h).symm

/-! ## Chains that do not stop -/

/-- A chain that stops does not go on for ever. -/
theorem Stops.acc (hx : s.Stops x) (h : Relation.ReflTransGen s.Links e x) :
    Acc (flip s.Links) e := by
  induction h using Relation.ReflTransGen.head_induction_on with
  | refl => exact .intro _ fun y hlink => (hx y hlink).elim
  | head hlink _ ih =>
    refine .intro _ fun y hlink' => ?_
    rw [← s.rightUnique_links hlink hlink']
    exact ih

/-- What is linked to itself is the beginning of a chain that goes on for ever. -/
theorem not_acc_of_circle (h : Relation.TransGen s.Links e e) : ¬Acc (flip s.Links) e := by
  intro hacc
  induction hacc with
  | intro e _ ih =>
    obtain ⟨next, hlink, hback⟩ := Relation.TransGen.head'_iff.1 h
    exact ih next hlink (.tail' hback hlink)

/-- If no chain from a triple expression is infinite, then none is from further down the chain. -/
theorem acc_of_links (hacc : Acc (flip s.Links) e) (h : Relation.ReflTransGen s.Links e x) :
    Acc (flip s.Links) x := by
  induction h with
  | refl => exact hacc
  | tail _ hlink ih => exact ih.inv hlink

/-! ## What a chain ends with -/

/-- Following references never ends with a reference. -/
theorem not_ref_of_follow? {n : Nat} (h : s.follow? n e = some x) : ∀ label, x ≠ .ref label := by
  induction n generalizing e with
  | zero => cases h
  | succ n ih =>
    cases e with
    | ref label =>
      simp only [follow?] at h
      split at h
      · cases h
      · exact ih h
    | _ =>
      cases h
      intro label heq
      cases heq

/-- A chain that gives nothing, however many steps are made, stops at an unknown label or goes on
for ever. -/
theorem exists_unknown_or_not_acc {n : Nat} (hn : s.tripleExpressions.length + 1 ≤ n)
    (h : s.follow? n e = none) :
    (∃ label, Relation.ReflTransGen s.Links e (.ref label) ∧ s.tripleExpression? label = none) ∨
      ¬Acc (flip s.Links) e := by
  obtain ⟨n, rfl⟩ : ∃ m, n = m + 1 := ⟨n - 1, by omega⟩
  cases e with
  | ref label =>
    rcases dangles_or_circles_of_follow? (.start hn) nofun h with
      hdangles | ⟨l, hlinks, hcircle⟩
    · exact .inl hdangles.exists_linked
    · exact .inr fun hacc => not_acc_of_circle hcircle (acc_of_links hacc hlinks)
  | _ => cases h

/-- Enough steps lead to the end of a chain that has one. -/
theorem follow?_eq_some_iff {n : Nat} (hn : s.tripleExpressions.length + 1 ≤ n) :
    s.follow? n e = some x ↔
      Relation.ReflTransGen s.Links e x ∧ ∀ label, x ≠ .ref label := by
  refine ⟨fun h => ⟨links_of_follow? h, not_ref_of_follow? h⟩, ?_⟩
  rintro ⟨hlinks, hx⟩
  have hstops : s.Stops x := stops_of_ne_ref hx
  cases h : s.follow? n e with
  | some y =>
    exact congrArg some ((stops_of_ne_ref (not_ref_of_follow? h)).unique hstops
      (links_of_follow? h) hlinks)
  | none =>
    rcases exists_unknown_or_not_acc hn h with ⟨label, hlabel, hunknown⟩ | hacc
    · exact (hx label (hstops.unique (stops_ref hunknown) hlinks hlabel)).elim
    · exact (hacc (hstops.acc hlinks)).elim

/-- A reference stands for what the triple expression with its label stands for. -/
theorem resolveTriple?_ref {label : Label} (h : s.tripleExpression? label = some e) :
    s.resolveTriple? (.ref label) = s.resolveTriple? e := by
  have hstep : ∀ x, (∀ l, x ≠ .ref l) → (Relation.ReflTransGen s.Links (.ref label) x ↔
      Relation.ReflTransGen s.Links e x) := by
    intro x hx
    refine ⟨fun hlinks => ?_, .head (.ref h)⟩
    rcases Relation.ReflTransGen.cases_head hlinks with heq | ⟨next, hlink, hlinks⟩
    · exact (hx label heq.symm).elim
    · rwa [s.rightUnique_links (.ref h) hlink]
  refine Option.ext fun x => ?_
  rw [resolveTriple?, resolveTriple?, follow?_eq_some_iff (Nat.le_refl _),
    follow?_eq_some_iff (Nat.le_refl _)]
  exact and_congr_left (hstep x)

/-- A triple expression stands for what its chain of references ends with, if that is no reference.

It stands for nothing if and only if the chain comes to an unknown label or goes on for ever.  More
steps than one more than there are labelled triple expressions change nothing. -/
theorem resolveTriple?_chains (s : Schema) (e : TripleExpr) :
    (∀ x, s.resolveTriple? e = some x ↔
      Relation.ReflTransGen s.Links e x ∧ ∀ label, x ≠ .ref label) ∧
    (s.resolveTriple? e = none ↔
      (∃ label, Relation.ReflTransGen s.Links e (.ref label) ∧ s.tripleExpression? label = none) ∨
        ∃ chain : Nat → TripleExpr, chain 0 = e ∧ ∀ i, s.Links (chain i) (chain (i + 1))) ∧
    ∀ n, s.tripleExpressions.length + 1 ≤ n → s.follow? n e = s.resolveTriple? e := by
  have hsome : ∀ x, s.resolveTriple? e = some x ↔
      Relation.ReflTransGen s.Links e x ∧ ∀ label, x ≠ .ref label :=
    fun x => follow?_eq_some_iff (Nat.le_refl _)
  refine ⟨hsome, ⟨fun h => ?_, fun h => ?_⟩, fun n hn => Option.ext fun x => ?_⟩
  · exact (exists_unknown_or_not_acc (Nat.le_refl _) h).imp_right
      not_acc_iff_exists_descending_chain.1
  · refine Option.eq_none_iff_forall_ne_some.2 fun x hx => ?_
    obtain ⟨hlinks, hend⟩ := (hsome x).1 hx
    have hstops : s.Stops x := stops_of_ne_ref hend
    rcases h with ⟨label, hlabel, hunknown⟩ | hchain
    · exact hend label (hstops.unique (stops_ref hunknown) hlinks hlabel)
    · exact not_acc_iff_exists_descending_chain.2 hchain (hstops.acc hlinks)
  · rw [follow?_eq_some_iff hn, hsome]

/-- Two labels, of which the first one is linked to the second one. -/
def chained : Schema :=
  (empty.addTripleExpression (.iri ⟨"T"⟩) (.ref (.iri ⟨"U"⟩))).addTripleExpression (.iri ⟨"U"⟩)
    (.eachOf ⟨[], none, []⟩)

/-- One step fewer would cut off a chain that passes all labels. -/
example : chained.resolveTriple? (.ref (.iri ⟨"T"⟩)) = some (.eachOf ⟨[], none, []⟩) ∧
    chained.follow? chained.tripleExpressions.length (.ref (.iri ⟨"T"⟩)) = none := ⟨rfl, rfl⟩

end ShEx.Schema
