import Mathlib.Data.List.Flatten
import Mathlib.Data.List.Nodup
import ShEx.Proofs.KeptAnswers
import ShEx.Proofs.Expansion
import ShEx.Proofs.Redeclaration
import ShEx.ShExJ.Load

/-!
# Numbered constraints

The answers of node constraints are kept by the number of the constraint, so two constraints with
one number would answer for each other.  In a schema that is built step by step (`Schema.Built`), as
every loaded one is (`ShExJ.Document.built_of_load`), each number belongs to one constraint
(`Schema.Built.wellNumbered`).

So the answers of constraints and the compiled patterns that a session keeps are what evaluating
without them gives (`Session.Sound`), and a constraint is answered as if nothing was kept
(`Setting.evaluateConstraint_sound`).
-/

set_option autoImplicit false

namespace ShEx

open ShEx.Rdf

/-! ## The numbers of an expression -/

/-- Constraints have the numbers from one number up to another, each in its place. -/
structure Consecutive (first last : Nat) (cs : List NodeConstraint) : Prop where
  le : first ≤ last
  ids_eq : cs.map (·.id) = (List.range' first (last - first)).map some

namespace Consecutive

variable {first middle last : Nat} {cs cs' : List NodeConstraint}

/-- No constraints need no numbers. -/
theorem nil (n : Nat) : Consecutive n n [] := ⟨Nat.le_refl n, by simp⟩

/-- Constraints that have been numbered one after the other are numbered as a whole. -/
theorem append (h : Consecutive first middle cs) (h' : Consecutive middle last cs') :
    Consecutive first last (cs ++ cs') := by
  have hle := h.le
  have hle' := h'.le
  have hrange : List.range' first (last - first) =
      List.range' first (middle - first) ++ List.range' middle (last - middle) := by
    have hmiddle : first + (middle - first) = middle := by omega
    have hlast : middle - first + (last - middle) = last - first := by omega
    have happend := List.range'_append_1 (s := first) (m := middle - first) (n := last - middle)
    rw [hmiddle, hlast] at happend
    exact happend.symm
  refine ⟨by omega, ?_⟩
  rw [List.map_append, h.ids_eq, h'.ids_eq, hrange, List.map_append]

/-- Each of the constraints has a number in the range. -/
theorem exists_id (h : Consecutive first last cs) {c : NodeConstraint} (hc : c ∈ cs) :
    ∃ i, c.id = some i ∧ first ≤ i ∧ i < last := by
  have hid : c.id ∈ (List.range' first (last - first)).map some := by
    rw [← h.ids_eq]
    exact List.mem_map_of_mem hc
  obtain ⟨i, hi, heq⟩ := List.mem_map.1 hid
  rw [List.mem_range'_1] at hi
  exact ⟨i, heq.symm, by omega, by omega⟩

/-- No two places have the same number. -/
theorem nodup (h : Consecutive first last cs) : (cs.map (·.id)).Nodup := by
  rw [h.ids_eq]
  exact (List.nodup_range' 1).map fun _ _ => Option.some.inj

end Consecutive

mutual

/-- Numbering an expression gives its constraints consecutive numbers, in reading order. -/
theorem ShapeExpr.numbered_consecutive (n : Nat) : ∀ e : ShapeExpr,
    Consecutive n (e.numbered n).2 (e.numbered n).1.constraints
  | .or operands => ShapeExpr.numberedAll_consecutive n operands
  | .and operands => ShapeExpr.numberedAll_consecutive n operands
  | .not operand => operand.numbered_consecutive n
  | .node c => by
    refine ⟨Nat.le_succ n, ?_⟩
    show [some n] = (List.range' n (n + 1 - n)).map some
    rw [Nat.add_sub_cancel_left]
    rfl
  | .shape s => s.numbered_consecutive n
  | .external => .nil n
  | .ref _ => .nil n

/-- Operands are numbered one after the other. -/
theorem ShapeExpr.numberedAll_consecutive (n : Nat) : ∀ es : List ShapeExpr,
    Consecutive n (ShapeExpr.numberedAll n es).2
      (ShapeExpr.constraintsOfAll (ShapeExpr.numberedAll n es).1)
  | [] => .nil n
  | e :: es => (e.numbered_consecutive n).append (ShapeExpr.numberedAll_consecutive _ es)

/-- A shape is numbered as its triple expression is. -/
theorem Shape.numbered_consecutive (n : Nat) : ∀ s : Shape,
    Consecutive n (s.numbered n).2 (s.numbered n).1.constraints
  | ⟨_, _, none, _, _, _⟩ => .nil n
  | ⟨_, _, some e, _, _, _⟩ => e.numbered_consecutive n

/-- The constraints in value expressions get consecutive numbers. -/
theorem TripleExpr.numbered_consecutive (n : Nat) : ∀ e : TripleExpr,
    Consecutive n (e.numbered n).2 (e.numbered n).1.constraints
  | .eachOf g => g.numbered_consecutive n
  | .oneOf g => g.numbered_consecutive n
  | .triple t => t.numbered_consecutive n
  | .ref _ => .nil n

/-- A group is numbered as its members are. -/
theorem TripleGroup.numbered_consecutive (n : Nat) : ∀ g : TripleGroup,
    Consecutive n (g.numbered n).2 (g.numbered n).1.constraints
  | ⟨members, _, _⟩ => TripleExpr.numberedAll_consecutive n members

/-- Members are numbered one after the other. -/
theorem TripleExpr.numberedAll_consecutive (n : Nat) : ∀ es : List TripleExpr,
    Consecutive n (TripleExpr.numberedAll n es).2
      (TripleExpr.constraintsOfAll (TripleExpr.numberedAll n es).1)
  | [] => .nil n
  | e :: es => (e.numbered_consecutive n).append (TripleExpr.numberedAll_consecutive _ es)

/-- A triple constraint is numbered as its value expression is. -/
theorem TripleConstraint.numbered_consecutive (n : Nat) : ∀ t : TripleConstraint,
    Consecutive n (t.numbered n).2 (t.numbered n).1.constraints
  | ⟨_, _, none, _, _⟩ => .nil n
  | ⟨_, _, some e, _, _⟩ => e.numbered_consecutive n

end

/-! ## The numbers of a schema -/

/-- A number belongs to one constraint. -/
def WellNumbered (cs : List NodeConstraint) : Prop :=
  ∀ c ∈ cs, ∀ c' ∈ cs, ∀ i, c.id = some i → c'.id = some i → c = c'

namespace Schema

/-- The schemas that are built step by step. -/
inductive Built : Schema → Prop
  | empty : Built .empty
  | addShape {s : Schema} (h : Built s) (d : Declaration) : Built (s.addShape d)
  | addTripleExpression {s : Schema} (h : Built s) (label : Label) (e : TripleExpr) :
      Built (s.addTripleExpression label e)
  | setStart {s : Schema} (h : Built s) (e : ShapeExpr) : Built (s.setStart e)
  | addImport {s : Schema} (h : Built s) (iri : Iri) : Built (s.addImport iri)
  | addStartAct {s : Schema} (h : Built s) (act : SemanticAction) : Built (s.addStartAct act)

/-- The constraints of a schema are numbered below the next number. -/
structure Numbered (s : Schema) : Prop where
  ids : ∀ c ∈ s.constraints, ∃ i, c.id = some i ∧ i < s.nextConstraint
  wellNumbered : WellNumbered s.constraints

/-- Placing a declaration adds it and keeps others. -/
theorem exists_placed_perm (d : Declaration) (ds : List Declaration) :
    ∃ kept, kept.Sublist ds ∧ (placed d ds).Perm (d :: kept) := by
  induction ds with
  | nil => exact ⟨[], .slnil, .refl _⟩
  | cons first rest ih =>
    unfold placed
    split
    · exact ⟨rest, List.sublist_cons_self first rest, .refl _⟩
    · obtain ⟨kept, hkept, hperm⟩ := ih
      exact ⟨first :: kept, hkept.cons_cons first, (hperm.cons first).trans (.swap d first kept)⟩

/-- Placing a labelled triple expression adds it and keeps others. -/
theorem exists_placedTriple_perm (label : Label) (te : TripleExpr)
    (entries : List (Label × TripleExpr)) : ∃ kept, kept.Sublist entries ∧
      (placedTriple label te entries).Perm ((label, te) :: kept) := by
  induction entries with
  | nil => exact ⟨[], .slnil, .refl _⟩
  | cons first rest ih =>
    unfold placedTriple
    split
    · exact ⟨rest, List.sublist_cons_self first rest, .refl _⟩
    · obtain ⟨kept, hkept, hperm⟩ := ih
      exact ⟨first :: kept, hkept.cons_cons first, (hperm.cons first).trans (.swap _ first kept)⟩

/-- What there is behind the placing of a declaration is this one, or was there before. -/
theorem mem_placed {d e : Declaration} {ds : List Declaration} (h : e ∈ placed d ds) :
    e = d ∨ e ∈ ds := by
  obtain ⟨kept, hkept, hperm⟩ := exists_placed_perm d ds
  exact (List.mem_cons.1 (hperm.subset h)).imp_right fun he => hkept.subset he

/-- The constraints of a schema are those of its declarations, of its labelled triple expressions
and of its start expression. -/
theorem mem_constraints {s : Schema} {c : NodeConstraint} : c ∈ s.constraints ↔
    (∃ d ∈ s.declarations, c ∈ d.expression.constraints) ∨
      (∃ entry ∈ s.tripleExpressions, c ∈ entry.2.constraints) ∨
        ∃ e, s.start = some e ∧ c ∈ e.constraints := by
  rw [constraints, List.append_assoc, List.mem_append, List.mem_append, List.mem_flatMap,
    List.mem_flatMap]
  refine or_congr Iff.rfl (or_congr Iff.rfl ?_)
  cases s.start with
  | none => simp
  | some e => simp

/-- Constraints with new numbers in the place of some others leave all numbers different. -/
theorem distinct_extend {first last : Nat} {cs old kept all : List NodeConstraint}
    (hcs : Consecutive first last cs) (hkept : kept.Sublist old) (hall : all.Perm (cs ++ kept))
    (hids : ∀ c ∈ old, ∃ i, c.id = some i ∧ i < first) (hnodup : (old.map (·.id)).Nodup) :
    (∀ c ∈ all, ∃ i, c.id = some i ∧ i < last) ∧ (all.map (·.id)).Nodup := by
  have hle := hcs.le
  constructor
  · intro c hc
    rcases List.mem_append.1 (hall.subset hc) with hc | hc
    · obtain ⟨i, hi, -, hlt⟩ := hcs.exists_id hc
      exact ⟨i, hi, hlt⟩
    · obtain ⟨i, hi, hlt⟩ := hids c (hkept.subset hc)
      exact ⟨i, hi, by omega⟩
  · rw [(hall.map _).nodup_iff, List.map_append]
    refine hcs.nodup.append ((hkept.map _).nodup hnodup) fun id hid hid' => ?_
    obtain ⟨c, hc, rfl⟩ := List.mem_map.1 hid
    obtain ⟨c', hc', heq⟩ := List.mem_map.1 hid'
    obtain ⟨i, hi, hge, -⟩ := hcs.exists_id hc
    obtain ⟨j, hj, hlt⟩ := hids c' (hkept.subset hc')
    rw [hi, hj] at heq
    cases heq
    omega

/-- In a schema that is built step by step every constraint has a number, below the next one, and no
two places have the same. -/
theorem Built.distinct {s : Schema} (h : Built s) :
    (∀ c ∈ s.constraints, ∃ i, c.id = some i ∧ i < s.nextConstraint) ∧
      (s.constraints.map (·.id)).Nodup := by
  induction h with
  | empty => exact ⟨nofun, List.nodup_nil⟩
  | @addShape s _ d ih =>
    obtain ⟨kept, hkept, hperm⟩ :=
      exists_placed_perm { d with expression := (d.expression.numbered s.nextConstraint).1 }
        s.declarations
    refine distinct_extend (d.expression.numbered_consecutive s.nextConstraint)
      (((hkept.flatMap _).append (.refl _)).append (.refl _)) ?_ ih.1 ih.2
    have h := ((hperm.flatMap_right fun d => d.expression.constraints).append_right
      (s.tripleExpressions.flatMap fun entry => entry.2.constraints)).append_right
        (s.start.elim [] ShapeExpr.constraints)
    refine List.Perm.trans h (.of_eq ?_)
    simp only [List.flatMap_cons, List.append_assoc]
  | @addTripleExpression s _ label e ih =>
    obtain ⟨kept, hkept, hperm⟩ :=
      exists_placedTriple_perm label (e.numbered s.nextConstraint).1 s.tripleExpressions
    refine distinct_extend (e.numbered_consecutive s.nextConstraint)
      (((List.Sublist.refl _).append (hkept.flatMap _)).append (.refl _)) ?_ ih.1 ih.2
    have h := ((hperm.flatMap_right fun entry => entry.2.constraints).append_left
      (s.declarations.flatMap fun d => d.expression.constraints)).append_right
        (s.start.elim [] ShapeExpr.constraints)
    refine List.Perm.trans h ?_
    simp only [List.flatMap_cons, List.append_assoc]
    exact List.perm_append_comm_assoc _ _ _
  | @setStart s _ e ih =>
    refine distinct_extend (e.numbered_consecutive s.nextConstraint)
      (List.sublist_append_left _ _) ?_ ih.1 ih.2
    exact List.perm_append_comm
  | addImport _ _ ih => exact ih
  | addStartAct _ _ ih => exact ih

/-- In a schema that is built step by step the constraints are numbered. -/
theorem Built.numbered {s : Schema} (h : Built s) : s.Numbered := by
  obtain ⟨hids, hnodup⟩ := h.distinct
  refine ⟨hids, fun c hc c' hc' i hi hi' => ?_⟩
  exact List.inj_on_of_nodup_map hnodup hc hc' (hi.trans hi'.symm)

/-- In a schema that is built step by step a number belongs to one constraint. -/
theorem Built.wellNumbered {s : Schema} (h : Built s) : WellNumbered s.constraints :=
  h.numbered.wellNumbered

/-! ## Several steps -/

/-- Every operation goes on with building a schema. -/
theorem Built.apply {s : Schema} (h : s.Built) (o : Operation) : (s.apply o).Built := by
  cases o with
  | addShape d => exact .addShape h d
  | addTripleExpression label e => exact .addTripleExpression h label e
  | setStart e => exact .setStart h e
  | addImport iri => exact .addImport h iri
  | addStartAct act => exact .addStartAct h act

/-- What is built step by step stays so behind one operation for each member of a list. -/
theorem Built.foldl {α : Type} {s : Schema} (h : s.Built) (f : α → Operation) (xs : List α) :
    (xs.foldl (fun s x => s.apply (f x)) s).Built := by
  induction xs generalizing s with
  | nil => exact h
  | cons x rest ih => exact ih (h.apply (f x))

/-- Imports come one behind the other, and nothing else changes. -/
theorem foldl_addImport (s : Schema) (imports : List Iri) :
    imports.foldl addImport s = { s with imports := s.imports ++ imports } := by
  induction imports generalizing s with
  | nil => simp
  | cons iri rest ih => simp [ih, addImport]

/-- Start actions come one behind the other, and nothing else changes. -/
theorem foldl_addStartAct (s : Schema) (acts : List SemanticAction) :
    acts.foldl addStartAct s = { s with startActs := s.startActs ++ acts } := by
  induction acts generalizing s with
  | nil => simp
  | cons act rest ih => simp [ih, addStartAct]

end Schema

/-- Every schema that is loaded is built step by step. -/
theorem ShExJ.Document.built_of_load {d : ShExJ.Document} {s : Schema} (h : d.load = .ok s) :
    s.Built := by
  unfold load at h
  obtain ⟨imports, -, h⟩ := exists_of_bind_eq_ok h
  obtain ⟨startActs, -, h⟩ := exists_of_bind_eq_ok h
  obtain ⟨declarations, -, h⟩ := exists_of_bind_eq_ok h
  obtain ⟨start, -, h⟩ := exists_of_bind_eq_ok h
  obtain ⟨inline, -, h⟩ := exists_of_bind_eq_ok h
  obtain ⟨triples, -, h⟩ := exists_of_bind_eq_ok h
  cases h
  have hbase : Schema.Built { Schema.empty with imports := imports, startActs := startActs } := by
    have himports : (imports.foldl Schema.addImport .empty).Built :=
      Schema.Built.empty.foldl .addImport imports
    rw [Schema.foldl_addImport] at himports
    have hacts : (startActs.foldl Schema.addStartAct _).Built :=
      himports.foldl .addStartAct startActs
    rwa [Schema.foldl_addStartAct] at hacts
  refine Schema.Built.foldl (Schema.Built.foldl ?_ .addShape _)
    (fun entry => .addTripleExpression entry.1 entry.2) triples
  cases start with
  | none => exact hbase
  | some e => exact hbase.setStart e

/-! ## Answers of constraints -/

/-- The patterns that are known are what compiling them gives. -/
def PatternsSound (limit : Nat) (known : KnownPatterns) : Prop :=
  ∀ facet r, known.lookup facet = some r → Pattern.compileWithin limit facet = .ok r

/-- If no pattern is known, none is known wrongly. -/
theorem patternsSound_nil (limit : Nat) : PatternsSound limit [] := nofun

/-- Known patterns do not change a result, and those known then are sound. -/
def SoundWith {α : Type} (limit : Nat) (f : PatternUse α) : Prop :=
  ∀ known, PatternsSound limit known → (f known).1 = (f []).1 ∧ PatternsSound limit (f known).2

/-- A pattern that is known is found as it would be compiled, and one that is compiled now is known
rightly. -/
theorem findPattern_sound (limit : Nat) (facet : PatternFacet) :
    SoundWith limit (findPattern limit facet) := by
  intro known hknown
  have hnil : (findPattern limit facet []).1 =
      (Pattern.compileWithin limit facet).mapError (.malformedPattern facet.pattern) := by
    unfold findPattern
    rw [List.lookup_nil]
    cases Pattern.compileWithin limit facet <;> rfl
  rw [hnil]
  unfold findPattern
  cases hk : known.lookup facet with
  | some r =>
    refine ⟨?_, hknown⟩
    rw [hknown facet r hk]
    rfl
  | none =>
    cases hc : Pattern.compileWithin limit facet with
    | error fault => exact ⟨rfl, hknown⟩
    | ok r =>
      refine ⟨rfl, fun facet' r' h => ?_⟩
      rw [List.lookup_cons] at h
      split at h
      · next heq =>
        cases h
        rw [beq_iff_eq.1 heq]
        exact hc
      · exact hknown facet' r' h

/-- What is composed of lookups does not depend on the patterns that are known: the second of two
uses has the same answer whatever the first one leaves behind. -/
theorem PatternUse.Composed.soundWith {α : Type} {limit limit' : Nat} {facets : List StringFacet}
    {f f' : PatternUse α} (h : Composed limit limit' facets f f') : SoundWith limit f := by
  induction h with
  | answer a => exact fun known hknown => ⟨rfl, hknown⟩
  | find _ => exact findPattern_sound limit _
  | @andThen α β f f' g g' _ _ first second =>
    intro known hknown
    obtain ⟨hsame, hlater⟩ := first known hknown
    have hlater' := (first [] (patternsSound_nil limit)).2
    rcases hr : f known with ⟨r, later⟩
    rcases hr' : f [] with ⟨r', later'⟩
    rw [hr, hr'] at hsame
    rw [hr] at hlater
    rw [hr'] at hlater'
    cases hsame
    cases r with
    | error failure =>
      rw [andThen_of_error hr, andThen_of_error hr']
      exact ⟨rfl, hlater⟩
    | ok a =>
      rw [andThen_of_ok hr, andThen_of_ok hr']
      have hsecond := second a later hlater
      exact ⟨hsecond.1.trans (second a later' hlater').1.symm, hsecond.2⟩

/-- The answer of a facet does not depend on the patterns that are known. -/
theorem StringFacet.evaluate_sound (limit : Nat) (text : String) (facet : StringFacet) :
    SoundWith limit fun known => facet.evaluate limit text known :=
  (facet.evaluate_composed limit limit text).soundWith

/-- The answer of a constraint does not depend on the patterns that are known. -/
theorem NodeConstraint.evaluate_sound (c : NodeConstraint) (limit : Nat) (node : Term) :
    SoundWith limit (c.evaluate limit node) :=
  (c.evaluate_composed limit limit node).soundWith

/-- Does a node satisfy a constraint, if nothing is kept? -/
def Setting.constraintAnswer (w : Setting) (c : NodeConstraint) (node : Term) :
    Except Failure Bool :=
  (c.evaluate w.limits.maxRegexLength node []).1

/-- What a session keeps about patterns and about the constraints of the schema is right. -/
structure Session.Sound (w : Setting) (s : Session) : Prop where
  patterns : PatternsSound w.limits.maxRegexLength s.patterns
  constraints : ∀ c ∈ w.schema.constraints, ∀ i, c.id = some i → ∀ node b,
    s.constraints.answer? i node = some b → w.constraintAnswer c node = .ok b

/-- A new session holds nothing that could be wrong. -/
theorem Session.sound_initial (w : Setting) : Session.initial.Sound w := by
  refine ⟨patternsSound_nil _, fun c _ i _ node b h => ?_⟩
  cases h

/-- A declaration that begins changes nothing about constraints and patterns. -/
theorem Session.Sound.enter {w : Setting} {s : Session} (h : s.Sound w) (index : Nat)
    (node : Term) : (s.enter index node).Sound w :=
  ⟨h.patterns, h.constraints⟩

/-- A declaration that is settled changes nothing about constraints and patterns. -/
theorem Session.Sound.settle {w : Setting} {s : Session} (h : s.Sound w) (index : Nat)
    (node : Term) (b : Bool) : (s.settle index node b).Sound w :=
  ⟨h.patterns, h.constraints⟩

/-- A declaration that is abandoned changes nothing about constraints and patterns. -/
theorem Session.Sound.abandon {w : Setting} {s : Session} (h : s.Sound w) (index : Nat)
    (node : Term) : (s.abandon index node).Sound w :=
  ⟨h.patterns, h.constraints⟩

/-- The constraints of an expression have no number, or belong to the schema. -/
def ShapeExpr.NumberedIn (s : Schema) (e : ShapeExpr) : Prop :=
  ∀ c ∈ e.constraints, c.id = none ∨ c ∈ s.constraints

namespace Setting

variable {w : Setting}

/-- A constraint is answered as if nothing was kept, and what is kept stays right. -/
theorem evaluateConstraint_sound (hw : WellNumbered w.schema.constraints) {c : NodeConstraint}
    (hc : c.id = none ∨ c ∈ w.schema.constraints) {node : Term} {s t : Session}
    {r : Except Failure Bool} (hs : s.Sound w) (h : w.evaluateConstraint c node s = some (r, t)) :
    r = w.constraintAnswer c node ∧ t.Sound w ∧ t.declarations = s.declarations := by
  obtain ⟨hfresh, hpatterns⟩ := c.evaluate_sound w.limits.maxRegexLength node s.patterns hs.patterns
  have hanew : ∀ {r t}, w.evaluateFresh c node s = some (r, t) → r = w.constraintAnswer c node ∧
      t.Sound w ∧ t.declarations = s.declarations ∧ t.constraints = s.constraints := by
    intro r t h
    obtain ⟨rfl, rfl⟩ := evaluateFresh_eq_some_iff.1 h
    exact ⟨hfresh, ⟨hpatterns, hs.constraints⟩, rfl, rfl⟩
  cases evaluateConstraint_eq_some_iff.1 h with
  | @held i b hid ha =>
    have hmem : c ∈ w.schema.constraints := hc.resolve_left (by rw [hid]; exact nofun)
    exact ⟨(hs.constraints c hmem i hid node b ha).symm, hs, rfl⟩
  | unnumbered _ hf =>
    obtain ⟨h1, h2, h3, -⟩ := hanew hf
    exact ⟨h1, h2, h3⟩
  | @recorded i b t hid ha hf =>
    have hmem : c ∈ w.schema.constraints := hc.resolve_left (by rw [hid]; exact nofun)
    obtain ⟨h1, h2, h3, h4⟩ := hanew hf
    refine ⟨h1, ⟨h2.patterns, fun c' hc' j hj m b' hb => ?_⟩, h3⟩
    rcases Answers.answer?_hold_cases hb with ⟨⟨rfl, rfl⟩, rfl⟩ | ⟨-, hb⟩
    · rw [← hw c hmem c' hc' i hid hj]
      exact h1.symm
    · exact h2.constraints c' hc' j hj m b' hb
  | failed _ _ hf =>
    obtain ⟨h1, h2, h3, -⟩ := hanew hf
    exact ⟨h1, h2, h3⟩

end Setting

end ShEx
