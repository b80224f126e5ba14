import Mathlib.Data.List.Forall2
import Mathlib.Data.Option.Defs
import ShEx.Proofs.Subexpressions

/-!
# Slots with other value expressions

Compiling a triple expression never looks at value expressions, and neither does the search for a
way to place arcs.  So where triple expressions differ in nothing else, they have the same formula
over slots that correspond to each other (`compileAllWith_alike`, `compileGroup_alike`), and about
slots that are `TripleConstraint.Alike` the search decides the same (`decideAssignment_alike`).
-/

set_option autoImplicit false

namespace ShEx

open ShEx.Rdf

/-- Lists whose members correspond to each other do so at every place. -/
theorem rel_getElem? {α β : Type} {R : α → β → Prop} {xs : List α} {ys : List β}
    (h : List.Forall₂ R xs ys) (i : Nat) : Option.Rel R xs[i]? ys[i]? := by
  induction h generalizing i with
  | nil => exact .none
  | cons h _ ih =>
    cases i with
    | zero => exact .some h
    | succ i => exact ih i

/-! ## The search -/

/-- Two triple constraints accept the same numbers of the same arcs, but may ask for different
things at the other ends. -/
structure TripleConstraint.Alike (t t' : TripleConstraint) : Prop where
  predicate : t'.predicate = t.predicate
  inverse : t'.inverse = t.inverse
  cardinality : t'.cardinality = t.cardinality

/-- Triple constraints that are alike are about the same arcs. -/
theorem concerns_alike {t t' : TripleConstraint} (h : t.Alike t') (arc : Arc) :
    t'.concerns arc = t.concerns arc := by
  rw [TripleConstraint.concerns, TripleConstraint.concerns, h.inverse, h.predicate]

section Slots

variable {slots slots' : List TripleConstraint}

/-- Slots that are alike look at the arcs to the node in the same cases. -/
theorem any_inverse_alike (h : List.Forall₂ TripleConstraint.Alike slots slots') :
    slots'.any (·.inverse) = slots.any (·.inverse) := by
  induction h with
  | nil => rfl
  | cons ht _ ih => rw [List.any_cons, List.any_cons, ih, ht.inverse]

/-- Slots that are alike mention the same predicates. -/
theorem mentioned_alike (h : List.Forall₂ TripleConstraint.Alike slots slots') :
    mentioned slots' = mentioned slots := by
  unfold mentioned
  induction h with
  | nil => rfl
  | cons ht _ ih =>
    rw [List.filter_cons, List.filter_cons, ht.inverse]
    split
    · rw [List.map_cons, List.map_cons, ih, ht.predicate]
    · exact ih

/-- Over slots that are alike the same arcs may be left without a place. -/
theorem allowsExtra_alike (h : List.Forall₂ TripleConstraint.Alike slots slots') (shape : Shape)
    (expression : Option TripleExpr) (predicate : Iri) :
    ({ shape with expression := expression } : Shape).allowsExtra slots' predicate =
      shape.allowsExtra slots predicate := by
  unfold Shape.allowsExtra
  rw [mentioned_alike h]

mutual

/-- A formula has the same value over slots that are alike. -/
theorem Formula.evaluate_alike (h : List.Forall₂ TripleConstraint.Alike slots slots')
    (counts : List Nat) : ∀ f : Formula, f.evaluate slots' counts = f.evaluate slots counts
  | .all parts => congrArg Satisfaction.all (Formula.evaluateAll_alike h counts parts)
  | .one parts => congrArg Satisfaction.one (Formula.evaluateAll_alike h counts parts)
  | .value _ => rfl
  | .slot i => by
    have hslot := rel_getElem? h i
    unfold Formula.evaluate
    generalize slots[i]? = t, slots'[i]? = t' at hslot
    cases hslot with
    | none => rfl
    | some ht => simp only [TripleConstraint.satisfaction, ht.cardinality]

/-- The parts of a formula have the same values over slots that are alike. -/
theorem Formula.evaluateAll_alike (h : List.Forall₂ TripleConstraint.Alike slots slots')
    (counts : List Nat) :
    ∀ fs : List Formula, Formula.evaluateAll slots' counts fs = Formula.evaluateAll slots counts fs
  | [] => rfl
  | f :: fs =>
    congrArg₂ List.cons (f.evaluate_alike h counts) (Formula.evaluateAll_alike h counts fs)

end

/-- The same choices can be made over slots that are alike, since only formulas and counts
matter. -/
theorem assignable_alike (h : List.Forall₂ TripleConstraint.Alike slots slots') (f : Formula)
    (choices : List (List Choice)) (counts : List Nat) :
    assignable f slots' choices counts = assignable f slots choices counts := by
  induction choices generalizing counts with
  | nil => rw [assignable, assignable, f.evaluate_alike h]
  | cons options rest ih => simp only [assignable, ih]

/-- What the search decides about arcs does not depend on value expressions. -/
theorem decideAssignment_alike (h : List.Forall₂ TripleConstraint.Alike slots slots') (limit : Nat)
    (f : Formula) (items : List (List Choice)) :
    decideAssignment limit f slots' items = decideAssignment limit f slots items := by
  unfold decideAssignment
  rw [h.length_eq]
  simp only [assignable_alike h]

end Slots

/-! ## Compiling -/

section Compile

variable {α β : Type} {S : TripleConstraint → TripleConstraint → Prop}

/-- Two results of compiling are the same failure, or the same but for slots that correspond to each
other. -/
inductive SameUpTo (S : TripleConstraint → TripleConstraint → Prop) :
    Except Failure (α × List TripleConstraint) → Except Failure (α × List TripleConstraint) → Prop
  | ok (a : α) {slots slots' : List TripleConstraint} (h : List.Forall₂ S slots slots') :
      SameUpTo S (.ok (a, slots)) (.ok (a, slots'))
  | error (failure : Failure) : SameUpTo S (.error failure) (.error failure)

/-- Behind slots that correspond to each other, what is compiled does so too. -/
def CompilesAlike (S : TripleConstraint → TripleConstraint → Prop)
    (x x' : List TripleConstraint → Except Failure (α × List TripleConstraint)) : Prop :=
  ∀ before before', List.Forall₂ S before before' → SameUpTo S (x before) (x' before')

/-- Two compilations that fail in the same way are alike. -/
theorem compilesAlike_error (failure : Failure) :
    CompilesAlike (α := α) S (fun _ => .error failure) (fun _ => .error failure) :=
  fun _ _ _ => .error failure

/-- Compilations that are alike stay so with what comes behind them, if it is alike for each
result. -/
theorem CompilesAlike.bind
    {x x' : List TripleConstraint → Except Failure (α × List TripleConstraint)}
    {f f' : α → List TripleConstraint → Except Failure (β × List TripleConstraint)}
    (hx : CompilesAlike S x x') (hf : ∀ a, CompilesAlike S (f a) (f' a)) :
    CompilesAlike S (fun slots => x slots >>= fun r => f r.1 r.2)
      (fun slots => x' slots >>= fun r => f' r.1 r.2) := by
  intro before before' hb
  have hx := hx before before' hb
  dsimp only
  generalize x before = r, x' before' = r' at hx
  cases hx with
  | ok a hslots => exact hf a _ _ hslots
  | error failure => exact .error failure

/-- What is concluded from the same results is the same. -/
theorem CompilesAlike.conclude
    {x x' : List TripleConstraint → Except Failure (α × List TripleConstraint)}
    (hx : CompilesAlike S x x') (f : α → β) :
    CompilesAlike S (fun slots => x slots >>= fun r => .ok (f r.1, r.2))
      (fun slots => x' slots >>= fun r => .ok (f r.1, r.2)) :=
  hx.bind fun a _ _ hb => .ok (f a) hb

variable {expand expand' : Label → List TripleConstraint → Except Failure Compiled}
  {T : TripleExpr → TripleExpr → Prop}

/-- Lists of triple expressions are compiled alike if their members are, one by one. -/
theorem compileAllWith_alike {es es' : List TripleExpr} (h : List.Forall₂ T es es')
    (he : ∀ e ∈ es, ∀ e', T e e' →
      CompilesAlike S (e.compileWith expand) (e'.compileWith expand')) :
    CompilesAlike S (TripleExpr.compileAllWith expand es)
      (TripleExpr.compileAllWith expand' es') := by
  induction h with
  | nil => exact fun _ _ hb => .ok [] hb
  | @cons e e' es es' hee' _ ih =>
    have hes := ih fun e hmem => he e (List.mem_cons_of_mem _ hmem)
    exact (he e List.mem_cons_self e' hee').bind fun f => hes.bind fun fs _ _ hb => .ok (f :: fs) hb

/-- The members of a group are compiled one after the other. -/
theorem compileGroup_alike {g : TripleGroup} {members : List TripleExpr}
    (h : List.Forall₂ T g.members members)
    (he : ∀ e ∈ g.members, ∀ e', T e e' →
      CompilesAlike S (e.compileWith expand) (e'.compileWith expand')) :
    CompilesAlike S (g.compileWith expand)
      (({ g with members := members } : TripleGroup).compileWith expand') := by
  obtain ⟨members', cardinality, acts⟩ := g
  intro before before' hb
  simp only [TripleGroup.compileWith]
  split
  · exact .error _
  · cases rejectActs acts with
    | error failure => exact .error failure
    | ok u => exact compileAllWith_alike h he before before' hb

/-- Conjunctions of triple expressions are compiled alike if their members are. -/
theorem compileEachOf_alike {g : TripleGroup} {members : List TripleExpr}
    (h : List.Forall₂ T g.members members)
    (he : ∀ e ∈ g.members, ∀ e', T e e' →
      CompilesAlike S (e.compileWith expand) (e'.compileWith expand')) :
    CompilesAlike S ((TripleExpr.eachOf g).compileWith expand)
      ((TripleExpr.eachOf { g with members := members }).compileWith expand') :=
  (compileGroup_alike h he).conclude Formula.all

/-- Alternatives of triple expressions are compiled alike if their members are. -/
theorem compileOneOf_alike {g : TripleGroup} {members : List TripleExpr}
    (h : List.Forall₂ T g.members members)
    (he : ∀ e ∈ g.members, ∀ e', T e e' →
      CompilesAlike S (e.compileWith expand) (e'.compileWith expand')) :
    CompilesAlike S ((TripleExpr.oneOf g).compileWith expand)
      ((TripleExpr.oneOf { g with members := members }).compileWith expand') :=
  (compileGroup_alike h he).conclude Formula.one

/-- Triple constraints that differ in their value expressions are compiled alike, each to one
slot. -/
theorem compileTripleConstraint_alike {t : TripleConstraint} {value : Option ShapeExpr}
    (h : S t { t with value := value }) :
    CompilesAlike S ((TripleExpr.triple t).compileWith expand)
      ((TripleExpr.triple { t with value := value }).compileWith expand') := by
  intro before before' hb
  simp only [TripleExpr.compileWith]
  cases rejectActs t.acts with
  | error failure => exact .error failure
  | ok u =>
    rw [hb.length_eq]
    exact .ok (Formula.slot before'.length) (List.rel_append hb (.cons h .nil))

/-- A triple expression compiles as it does itself behind other slots, if labels do. -/
theorem compileWith_self (hS : ∀ t, S t t)
    (hl : ∀ label, CompilesAlike S (expand label) (expand label)) (te : TripleExpr) :
    CompilesAlike S (te.compileWith expand) (te.compileWith expand) := by
  have hmembers (es : List TripleExpr) : List.Forall₂ (· = ·) es es := by rw [List.forall₂_eq_eq_eq]
  induction te using TripleExpr.memberInduction with
  | eachOf g ih =>
    obtain ⟨members, cardinality, acts⟩ := g
    refine compileEachOf_alike (hmembers members) fun e he e' heq => ?_
    rw [← heq]
    exact ih e he
  | oneOf g ih =>
    obtain ⟨members, cardinality, acts⟩ := g
    refine compileOneOf_alike (hmembers members) fun e he e' heq => ?_
    rw [← heq]
    exact ih e he
  | triple t =>
    obtain ⟨predicate, inverse, value, cardinality, acts⟩ := t
    exact compileTripleConstraint_alike (hS _)
  | ref label => exact hl label

end Compile

end ShEx
