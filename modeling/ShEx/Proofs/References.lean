import ShEx.Proofs.Acyclic
import ShEx.Proofs.Compilation
import ShEx.Schema.Check

/-!
# Schemas without dangling references

The check of references walks over the expressions of a schema once, and accepts it if and only if
every label that stands anywhere in it is known (`Schema.checkReferences_eq`).  An evaluation walks
over them in its own order: it goes from operand to operand, from a shape over labelled triple
expressions to value expressions, and from a reference to a declaration, as often as the graph asks
for it.

What an evaluation does with an unknown label is made a parameter here, the `Fallback`.  All that a
request for something declared comes to stands in the schema, and so does every label that a shape
reveals on the way (`Schema.names_of_reveals`).  So in a schema that is accepted no request depends
on the fallback, be it another answer, a failure or no end (`Session.checkReferences_sound`).
-/

set_option autoImplicit false

namespace ShEx

open ShEx.Rdf

/-! ## The references in a schema -/

/-- A shape expression refers to something itself, not only by an expression inside. -/
inductive ShapeExpr.Cites : ShapeExpr → Reference → Prop
  | ref (label : Label) : Cites (.ref label) (.shape label)
  | extended {shape : Shape} {label : Label} (h : label ∈ shape.extended) :
      Cites (.shape shape) (.shape label)
  | restricted {shape : Shape} {label : Label} (h : label ∈ shape.restricted) :
      Cites (.shape shape) (.shape label)
  | expression {shape : Shape} {te : TripleExpr} {label : Label}
      (hte : shape.expression = some te) (h : label ∈ te.labels) :
      Cites (.shape shape) (.tripleExpr label)

/-- Operands refer to what each of them refers to. -/
theorem ShapeExpr.referencesOfAll_eq (es : List ShapeExpr) :
    ShapeExpr.referencesOfAll es = es.flatMap ShapeExpr.references := by
  induction es with
  | nil => rfl
  | cons e es ih => rw [ShapeExpr.referencesOfAll, ih, List.flatMap_cons]

/-- A shape refers to what it extends and restricts, and to what its triple expression refers to. -/
theorem Shape.references_eq (shape : Shape) : shape.references =
    (shape.extended ++ shape.restricted).map .shape ++
      shape.expression.elim [] TripleExpr.references := by
  obtain ⟨closed, extra, expression, extended, restricted, acts⟩ := shape
  cases expression with
  | none => exact (List.append_nil _).symm
  | some te => rfl

/-- Value expressions are those of triple constraints. -/
theorem exists_value_iff {ts : List TripleConstraint} {P : ShapeExpr → Prop} :
    (∃ t ∈ ts, ∃ v, t.value = some v ∧ P v) ↔ ∃ v ∈ ts.filterMap (·.value), P v := by
  constructor
  · rintro ⟨t, ht, v, hv, hP⟩
    exact ⟨v, List.mem_filterMap.2 ⟨t, ht, hv⟩, hP⟩
  · rintro ⟨v, hmem, hP⟩
    obtain ⟨t, ht, hv⟩ := List.mem_filterMap.1 hmem
    exact ⟨t, ht, v, hv, hP⟩

/-- The references of a shape are its own and those of its value expressions. -/
theorem Shape.mem_references {shape : Shape} {r : Reference} : r ∈ shape.references ↔
    (ShapeExpr.shape shape).Cites r ∨
      ∃ v ∈ (ShapeExpr.shape shape).children, r ∈ v.references := by
  have hvalues : ∀ te, shape.expression = some te →
      ((∃ t ∈ te.triples, ∃ v, t.value = some v ∧ r ∈ v.references) ↔
        ∃ v ∈ (ShapeExpr.shape shape).children, r ∈ v.references) := by
    intro te hte
    have hchildren : (ShapeExpr.shape shape).children = te.triples.filterMap (·.value) := by
      rw [ShapeExpr.children, Shape.triples, hte]
      rfl
    rw [hchildren]
    exact exists_value_iff
  rw [Shape.references_eq, List.mem_append]
  constructor
  · rintro (hmem | hmem)
    · obtain ⟨label, hlabel, rfl⟩ := List.mem_map.1 hmem
      rcases List.mem_append.1 hlabel with hlabel | hlabel
      · exact .inl (.extended hlabel)
      · exact .inl (.restricted hlabel)
    · cases hte : shape.expression with
      | none =>
        rw [hte] at hmem
        cases hmem
      | some te =>
        rw [hte] at hmem
        rcases TripleExpr.mem_references.1 hmem with ⟨label, hlabel, rfl⟩ | hvalue
        · exact .inl (.expression hte hlabel)
        · exact .inr ((hvalues te hte).1 hvalue)
  · rintro (hcites | hvalue)
    · cases hcites with
      | extended h => exact .inl (List.mem_map_of_mem (List.mem_append_left _ h))
      | restricted h => exact .inl (List.mem_map_of_mem (List.mem_append_right _ h))
      | expression hte h =>
        rw [hte]
        exact .inr (TripleExpr.mem_references.2 (.inl ⟨_, h, rfl⟩))
    · cases hte : shape.expression with
      | none =>
        obtain ⟨v, hmem, -⟩ := hvalue
        rw [ShapeExpr.children, Shape.triples, hte] at hmem
        cases hmem
      | some te => exact .inr (TripleExpr.mem_references.2 (.inr ((hvalues te hte).2 hvalue)))

/-- The references of an expression are its own and those of what is directly inside. -/
theorem ShapeExpr.mem_references_iff_children {e : ShapeExpr} {r : Reference} :
    r ∈ e.references ↔ e.Cites r ∨ ∃ c ∈ e.children, r ∈ c.references := by
  have hnone : ∀ {e : ShapeExpr}, (∀ label, e ≠ .ref label) → (∀ shape, e ≠ .shape shape) →
      ¬e.Cites r := by
    intro e href hshape hcites
    cases hcites with
    | ref label => exact href label rfl
    | _ => exact hshape _ rfl
  cases e with
  | or operands =>
    rw [references, referencesOfAll_eq, List.mem_flatMap]
    exact (or_iff_right (hnone (by simp) (by simp))).symm
  | and operands =>
    rw [references, referencesOfAll_eq, List.mem_flatMap]
    exact (or_iff_right (hnone (by simp) (by simp))).symm
  | not operand =>
    rw [or_iff_right (hnone (by simp) (by simp))]
    simp [references, children]
  | shape shape => exact Shape.mem_references
  | ref label =>
    constructor
    · intro hr
      rw [List.mem_singleton.1 hr]
      exact .inl (.ref label)
    · rintro (hcites | ⟨c, hc, -⟩)
      · cases hcites
        exact List.mem_singleton.2 rfl
      · cases hc
  | _ =>
    refine iff_of_false List.not_mem_nil ?_
    rintro (hcites | ⟨c, hc, -⟩)
    · exact hnone (by simp) (by simp) hcites
    · cases hc

/-- The references that are collected from an expression are those that stand in it, at any
depth. -/
theorem ShapeExpr.mem_references {e : ShapeExpr} {r : Reference} :
    r ∈ e.references ↔ ∃ p ∈ e.parts, p.Cites r := by
  induction e using ShapeExpr.childInduction with
  | h e ih =>
    rw [mem_references_iff_children, parts_eq, List.exists_mem_cons_iff]
    refine or_congr_right ?_
    constructor
    · rintro ⟨c, hc, hr⟩
      obtain ⟨p, hp, hcites⟩ := (ih c hc).1 hr
      exact ⟨p, List.mem_flatMap.2 ⟨c, hc, hp⟩, hcites⟩
    · rintro ⟨p, hp, hcites⟩
      obtain ⟨c, hc, hp⟩ := List.mem_flatMap.1 hp
      exact ⟨c, hc, (ih c hc).2 ⟨p, hp, hcites⟩⟩

/-- The references that are collected from a triple expression are its labels and those that stand
in its value expressions. -/
theorem TripleExpr.mem_references_iff_parts {te : TripleExpr} {r : Reference} : r ∈ te.references ↔
    (∃ l ∈ te.labels, r = .tripleExpr l) ∨ ∃ e ∈ valueParts te.triples, e.Cites r := by
  rw [mem_references, exists_value_iff]
  refine or_congr_right ?_
  constructor
  · rintro ⟨v, hv, hr⟩
    obtain ⟨e, he, hcites⟩ := ShapeExpr.mem_references.1 hr
    exact ⟨e, List.mem_flatMap.2 ⟨v, hv, he⟩, hcites⟩
  · rintro ⟨e, he, hcites⟩
    obtain ⟨v, hv, he⟩ := List.mem_flatMap.1 he
    exact ⟨v, hv, ShapeExpr.mem_references.2 ⟨e, he, hcites⟩⟩

namespace Schema

variable {s : Schema}

/-- A label stands somewhere in a schema: in an expression of the schema at any depth, or in a
labelled triple expression. -/
inductive Names (s : Schema) : Reference → Prop
  | cites {e : ShapeExpr} {r : Reference} (he : e ∈ s.expressions) (h : e.Cites r) : Names s r
  | labelled {label l : Label} {te : TripleExpr} (he : (label, te) ∈ s.tripleExpressions)
      (h : l ∈ te.labels) : Names s (.tripleExpr l)

/-- A reference is to a declaration or a labelled triple expression of the schema. -/
def Resolves (s : Schema) : Reference → Prop
  | .shape label => ∃ d ∈ s.declarations, d.label = label
  | .tripleExpr label => ∃ te, (label, te) ∈ s.tripleExpressions

/-- The references that are collected from a schema are those that stand in it. -/
theorem mem_references {r : Reference} : r ∈ s.references ↔ s.Names r := by
  constructor
  · intro hr
    rw [references, List.append_assoc, List.mem_append, List.mem_append] at hr
    rcases hr with hr | hr | hr
    · obtain ⟨d, hd, hr⟩ := List.mem_flatMap.1 hr
      obtain ⟨e, he, hcites⟩ := ShapeExpr.mem_references.1 hr
      exact .cites (mem_expressions.2 (.inl ⟨d, hd, he⟩)) hcites
    · obtain ⟨⟨label, te⟩, hentry, hr⟩ := List.mem_flatMap.1 hr
      rcases TripleExpr.mem_references_iff_parts.1 hr with ⟨l, hl, rfl⟩ | ⟨e, he, hcites⟩
      · exact .labelled hentry hl
      · exact .cites (mem_expressions.2 (.inr (.inl ⟨_, hentry, he⟩))) hcites
    · cases hstart : s.start with
      | none =>
        rw [hstart] at hr
        cases hr
      | some start =>
        rw [hstart] at hr
        obtain ⟨e, he, hcites⟩ := ShapeExpr.mem_references.1 hr
        exact .cites (mem_expressions.2 (.inr (.inr ⟨start, hstart, he⟩))) hcites
  · intro hnames
    rw [references, List.append_assoc, List.mem_append, List.mem_append]
    cases hnames with
    | cites he hcites =>
      rcases mem_expressions.1 he with ⟨d, hd, he⟩ | ⟨entry, hentry, he⟩ | ⟨start, hstart, he⟩
      · exact .inl (List.mem_flatMap.2 ⟨d, hd, ShapeExpr.mem_references.2 ⟨_, he, hcites⟩⟩)
      · have hr := TripleExpr.mem_references_iff_parts.2 (.inr ⟨_, he, hcites⟩)
        exact .inr (.inl (List.mem_flatMap.2 ⟨entry, hentry, hr⟩))
      · rw [hstart]
        exact .inr (.inr (ShapeExpr.mem_references.2 ⟨_, he, hcites⟩))
    | @labelled label l te hentry hl =>
      have hr := TripleExpr.mem_references_iff_parts.2 (.inl ⟨l, hl, rfl⟩)
      exact .inr (.inl (List.mem_flatMap.2 ⟨(label, te), hentry, hr⟩))

/-- The check of one reference finds out whether it resolves. -/
theorem defines_iff {r : Reference} : s.defines r = true ↔ s.Resolves r := by
  cases r with
  | shape label =>
    rw [defines, declarationIndex?, List.findIdx?_isSome, List.any_eq_true]
    simp only [Resolves, decide_eq_true_eq]
  | tripleExpr label =>
    rw [defines, Option.isSome_iff_ne_none, Ne, tripleExpression?_eq_none_iff, Resolves]
    simp

/-- The check of references accepts a schema in which every label that stands somewhere is known,
and no other.  What it reports is a label that is not. -/
theorem checkReferences_eq (s : Schema) :
    (s.checkReferences = .ok () ↔ ∀ r, s.Names r → s.Resolves r) ∧
      ∀ failure, s.checkReferences = .error failure →
        ∃ r, s.Names r ∧ ¬s.Resolves r ∧ failure = .unresolvedReference r.label := by
  unfold checkReferences
  cases hfind : s.references.find? fun r => !s.defines r with
  | none =>
    have hall : ∀ r, s.Names r → s.Resolves r := by
      intro r hr
      have hdefines := List.find?_eq_none.1 hfind r (mem_references.2 hr)
      exact defines_iff.1 (by simpa using hdefines)
    exact ⟨iff_of_true rfl hall, nofun⟩
  | some r =>
    have hnames : s.Names r := mem_references.1 (List.mem_of_find?_eq_some hfind)
    have hundefined : ¬s.Resolves r := by
      have hdefines := List.find?_some hfind
      rw [← defines_iff]
      simpa using hdefines
    refine ⟨iff_of_false nofun fun hall => hundefined (hall r hnames), ?_⟩
    intro failure hfailure
    cases hfailure
    exact ⟨r, hnames, hundefined, rfl⟩

end Schema

/-! ## What is done with unknown labels -/

/-- What is done with a label that is unknown where a reference to a declaration is evaluated, and
where a reference to a triple expression is compiled. -/
structure Fallback where
  shape : Label → Term → Evaluation Bool
  tripleExpr : Label → List TripleConstraint → Except Failure Compiled

/-- An unknown label holds nowhere and is never satisfied. -/
def Fallback.usual : Fallback where
  shape _ _ := pure false
  tripleExpr _ slots := .ok (.value .unsatisfied, slots)

namespace Schema

/-- `compileTriple` with a fallback for unknown labels. -/
def compileTripleOr (s : Schema) (u : Fallback) :
    Nat → List Label → TripleExpr → List TripleConstraint → Except Failure Compiled
  | 0, _, e, slots =>
    e.compileWith (fun _ _ => .error (.notImplemented .recursiveTripleReferences)) slots
  | n + 1, expanding, e, slots =>
    e.compileWith
      (fun label slots =>
        if expanding.contains label then
          .error (.notImplemented .recursiveTripleReferences)
        else
          match s.resolveTriple? (.ref label) with
          | some target => s.compileTripleOr u n (label :: expanding) target slots
          | none =>
            if (s.tripleExpression? label).isSome then
              .error (.notImplemented .recursiveTripleReferences)
            else u.tripleExpr label slots)
      slots

/-- `compile` with a fallback for unknown labels. -/
def compileOr (s : Schema) (u : Fallback) : Option TripleExpr → Except Failure Compiled
  | none => .ok (.value .satisfied, [])
  | some e => s.compileTripleOr u (s.tripleExpressions.length + 1) [] e []

end Schema

namespace Setting

/-- `evaluateShape` with a fallback for unknown labels. -/
def evaluateShapeOr (w : Setting) (u : Fallback) (eval : Evaluator) (shape : Shape) (node : Term) :
    Evaluation Bool := do
  Evaluation.rejectIf (!shape.acts.isEmpty) .semanticActions
  Evaluation.rejectIf (!shape.extended.isEmpty) .extension
  Evaluation.rejectIf (!shape.restricted.isEmpty) .restriction
  let (formula, slots) ← Evaluation.ofExcept (w.schema.compileOr u shape.expression)
  match ← arcOptions eval shape slots (w.arcsOf slots node) with
  | none => pure false
  | some items =>
    Evaluation.ofExcept (decideAssignment w.limits.maxSearchSpace formula slots items)

/-- `evaluateReference` with a fallback for unknown labels. -/
def evaluateReferenceOr (w : Setting) (u : Fallback) (eval : Evaluator) (label : Label)
    (node : Term) : Evaluation Bool :=
  match w.schema.find? label with
  | none => u.shape label node
  | some (index, d) => w.evaluateDeclaration eval index d node

/-- `step` with a fallback for unknown labels. -/
def stepOr (w : Setting) (u : Fallback) (eval : Evaluator) : Evaluator
  | .shape s, node => w.evaluateShapeOr u eval s node
  | .ref label, node => w.evaluateReferenceOr u eval label node
  | e, node => w.step eval e node

/-- `evaluate` with a fallback for unknown labels. -/
def evaluateOr (w : Setting) (u : Fallback) : Nat → Evaluator
  | 0, _, _ => Evaluation.unending
  | n + 1, e, node => w.stepOr u (w.evaluateOr u n) e node

/-- `ask` with a fallback for unknown labels. -/
def askOr (w : Setting) (u : Fallback) (nesting : Nat) (node : Term) (label : Option Label) :
    Evaluation Bool := do
  Evaluation.rejectIf (!w.schema.imports.isEmpty) .imports
  Evaluation.rejectIf (!w.schema.startActs.isEmpty) .semanticActions
  match label with
  | some label => w.evaluateReferenceOr u (w.evaluateOr u nesting) label node
  | none =>
    match w.schema.start with
    | some e => w.evaluateOr u nesting e node
    | none => pure false

end Setting

/-- `validate` with a fallback for unknown labels. -/
def Session.validateOr (u : Fallback) (s : Session) (w : Setting) (node : Term)
    (label : Option Label) : Option (Except Failure Bool × Session) :=
  w.askOr u (w.nestingBound 0) node label s

/-! ## Compiling without unknown labels -/

namespace Schema

variable {s : Schema}

section CompileWith

variable {expand expand' : Label → List TripleConstraint → Except Failure Compiled}

/-- Members are compiled alike if each of them is, behind any slots. -/
theorem compileAllWith_congr {es : List TripleExpr} {slots : List TripleConstraint}
    (h : ∀ e ∈ es, ∀ slots, e.compileWith expand slots = e.compileWith expand' slots) :
    TripleExpr.compileAllWith expand es slots = TripleExpr.compileAllWith expand' es slots := by
  induction es generalizing slots with
  | nil => rfl
  | cons e es ih =>
    have hes : ∀ slots, TripleExpr.compileAllWith expand es slots =
        TripleExpr.compileAllWith expand' es slots :=
      fun _ => ih fun e' he' => h e' (List.mem_cons_of_mem _ he')
    simp only [TripleExpr.compileAllWith, h e List.mem_cons_self, hes]

/-- A group is compiled alike if its members are. -/
theorem groupCompileWith_congr {g : TripleGroup} {slots : List TripleConstraint}
    (h : ∀ e ∈ g.members, ∀ slots, e.compileWith expand slots = e.compileWith expand' slots) :
    g.compileWith expand slots = g.compileWith expand' slots := by
  obtain ⟨members, cardinality, acts⟩ := g
  simp only [TripleGroup.compileWith, compileAllWith_congr h]

/-- What is compiled of a triple expression depends on how its own labels are expanded only. -/
theorem compileWith_congr {te : TripleExpr} {slots : List TripleConstraint}
    (h : ∀ label ∈ te.labels, ∀ slots, expand label slots = expand' label slots) :
    te.compileWith expand slots = te.compileWith expand' slots := by
  induction te using TripleExpr.memberInduction generalizing slots with
  | eachOf g ih =>
    have hg : g.compileWith expand slots = g.compileWith expand' slots :=
      groupCompileWith_congr fun e he _ =>
        ih e he fun label hl => h label (TripleGroup.labels_of_member he hl)
    simp only [TripleExpr.compileWith, hg]
  | oneOf g ih =>
    have hg : g.compileWith expand slots = g.compileWith expand' slots :=
      groupCompileWith_congr fun e he _ =>
        ih e he fun label hl => h label (TripleGroup.labels_of_member he hl)
    simp only [TripleExpr.compileWith, hg]
  | triple t => rfl
  | ref label => exact h label (List.mem_singleton.2 rfl) slots

end CompileWith

/-- The labels of a triple expression are revealed. -/
theorem reveals_label {te : TripleExpr} {label : Label} (h : label ∈ te.labels) :
    s.Reveals te (.ref label) := by
  induction te using TripleExpr.memberInduction with
  | eachOf g ih =>
    have h : label ∈ g.labels := h
    rw [TripleGroup.labels_eq] at h
    obtain ⟨e, he, h⟩ := List.mem_flatMap.1 h
    exact .head (.eachOf he) (ih e he h)
  | oneOf g ih =>
    have h : label ∈ g.labels := h
    rw [TripleGroup.labels_eq] at h
    obtain ⟨e, he, h⟩ := List.mem_flatMap.1 h
    exact .head (.oneOf he) (ih e he h)
  | triple t => cases h
  | ref l =>
    rw [List.mem_singleton.1 h]
    exact .refl

/-- With the usual fallback, by which an unknown label is never satisfied, compiling is the same. -/
theorem compileTripleOr_usual (n : Nat) (expanding : List Label) (te : TripleExpr)
    (slots : List TripleConstraint) :
    s.compileTripleOr .usual n expanding te slots = s.compileTriple n expanding te slots := by
  induction n generalizing expanding te slots with
  | zero => rfl
  | succ n ih =>
    simp only [compileTripleOr, compileTriple, ih]
    rfl

/-- With the usual fallback the triple expression of a shape is compiled as without one. -/
theorem compileOr_usual (expression : Option TripleExpr) :
    s.compileOr .usual expression = s.compile expression := by
  cases expression with
  | none => rfl
  | some te => exact compileTripleOr_usual _ _ _ _

/-- A triple expression that reveals only known labels is compiled without the fallback. -/
theorem compileTripleOr_of_known {u : Fallback} {n : Nat} {expanding : List Label}
    {te : TripleExpr} {slots : List TripleConstraint}
    (h : ∀ label, s.Reveals te (.ref label) → s.tripleExpression? label ≠ none) :
    s.compileTripleOr u n expanding te slots = s.compileTriple n expanding te slots := by
  induction n generalizing expanding te slots with
  | zero => rfl
  | succ n ih =>
    refine compileWith_congr fun label hl slots => ?_
    have hreveals : s.Reveals te (.ref label) := reveals_label hl
    have hknown : (s.tripleExpression? label).isSome := Option.isSome_iff_ne_none.2 (h _ hreveals)
    cases hr : s.resolveTriple? (.ref label) with
    | none => simp only [hknown, if_true]
    | some target =>
      have htarget := (transGen_of_resolveTriple? hr).to_reflTransGen
      simp only [ih fun l hl => h l (hreveals.trans (htarget.trans hl))]

/-- What a triple expression reveals has only labels that stand in the schema, if it has itself. -/
theorem names_of_reveals {te e : TripleExpr} (hte : ∀ l ∈ te.labels, s.Names (.tripleExpr l))
    (h : s.Reveals te e) : ∀ l ∈ e.labels, s.Names (.tripleExpr l) := by
  induction h with
  | refl => exact hte
  | tail _ hopens ih =>
    intro l hl
    cases hopens with
    | eachOf he => exact ih l (TripleGroup.labels_of_member he hl)
    | oneOf he => exact ih l (TripleGroup.labels_of_member he hl)
    | ref hlabel => exact .labelled (mem_of_tripleExpression? hlabel) hl

/-- A shape in a schema without dangling references reveals only labels that are known. -/
theorem known_of_reveals (hall : ∀ r, s.Names r → s.Resolves r) {shape : Shape} {te : TripleExpr}
    {label : Label} (hshape : .shape shape ∈ s.expressions) (hte : shape.expression = some te)
    (h : s.Reveals te (.ref label)) : s.tripleExpression? label ≠ none := by
  have hnames : ∀ l ∈ te.labels, s.Names (.tripleExpr l) := by
    intro l hl
    exact .cites hshape (.expression hte hl)
  obtain ⟨te', hmem⟩ := hall _ (names_of_reveals hnames h label (List.mem_singleton.2 rfl))
  intro hnone
  exact tripleExpression?_eq_none_iff.1 hnone _ hmem rfl

/-- A shape in a schema without dangling references is compiled without the fallback. -/
theorem compileOr_of_resolves (hall : ∀ r, s.Names r → s.Resolves r) (u : Fallback)
    {shape : Shape} (hshape : .shape shape ∈ s.expressions) :
    s.compileOr u shape.expression = s.compile shape.expression := by
  cases hte : shape.expression with
  | none => rfl
  | some te => exact compileTripleOr_of_known fun _ => known_of_reveals hall hshape hte

/-- A declared label is found. -/
theorem find?_ne_none_of_resolves {label : Label} (h : s.Resolves (.shape label)) :
    s.find? label ≠ none := by
  obtain ⟨d, hd, hlabel⟩ := h
  intro hnone
  exact find?_eq_none_iff.1 hnone d hd hlabel

end Schema

/-! ## Evaluating without unknown labels -/

namespace Setting

variable {w : Setting}

/-- A reference depends on the evaluator only at declarations. -/
theorem evaluateReference_congr {eval eval' : Evaluator} {node : Term}
    (heval : ∀ d ∈ w.schema.declarations, eval d.expression node = eval' d.expression node)
    (label : Label) :
    w.evaluateReference eval label node = w.evaluateReference eval' label node := by
  unfold evaluateReference
  cases hl : w.schema.find? label with
  | none => rfl
  | some entry =>
    have hd := heval entry.2 (Schema.mem_of_find? hl).1
    dsimp only
    unfold evaluateDeclaration
    rw [hd]

/-- One step of an evaluation depends on the evaluator only at what the expression can come to. -/
theorem step_congr {all : List ShapeExpr} (hall : w.schema.Closed all) {eval eval' : Evaluator}
    (heval : ∀ e ∈ all, ∀ node, eval e node = eval' e node) {e : ShapeExpr} (he : e ∈ all)
    (node : Term) : w.step eval e node = w.step eval' e node := by
  by_cases hc : e.isCompound
  · rw [w.step_of_compound eval node hc, w.step_of_compound eval' node hc]
    refine Inquiry.run_congr fun e' node' hm => heval e' ?_ node'
    exact hall.embeds e e' (embeds_of_mentions hc hm).1 he
  · cases e with
    | node c => rfl
    | ref label =>
      exact evaluateReference_congr (fun d hd => heval _ (hall.declared d hd) node) label
    | _ => exact absurd rfl hc

/-- A fallback that is the usual one where the label is unknown changes nothing about a
reference. -/
theorem evaluateReferenceOr_eq {u : Fallback} {label : Label} {node : Term}
    (h : w.schema.find? label = none → u.shape label node = pure false) (eval : Evaluator) :
    w.evaluateReferenceOr u eval label node = w.evaluateReference eval label node := by
  unfold evaluateReferenceOr evaluateReference
  cases hl : w.schema.find? label with
  | none => exact h hl
  | some entry => rfl

/-- A step that comes to no unknown label does without the fallback. -/
theorem stepOr_eq_step {u : Fallback} {e : ShapeExpr} {node : Term}
    (hshape : ∀ shape, e = .shape shape →
      w.schema.compileOr u shape.expression = w.schema.compile shape.expression)
    (hlabel : ∀ label, e = .ref label → w.schema.find? label = none →
      u.shape label node = pure false) (eval : Evaluator) :
    w.stepOr u eval e node = w.step eval e node := by
  cases e with
  | shape shape =>
    show w.evaluateShapeOr u eval shape node = w.evaluateShape eval shape node
    have hcompile := hshape shape rfl
    unfold evaluateShapeOr evaluateShape
    exact hcompile ▸ rfl
  | ref label => exact evaluateReferenceOr_eq (hlabel label rfl) eval
  | _ => rfl

/-- The usual fallback is what an evaluation does without one. -/
theorem evaluateOr_usual (n : Nat) : w.evaluateOr .usual n = w.evaluate n := by
  induction n with
  | zero => rfl
  | succ n ih =>
    funext e node
    show w.stepOr .usual (w.evaluateOr .usual n) e node = _
    rw [ih]
    exact stepOr_eq_step (fun shape _ => Schema.compileOr_usual _) (fun _ _ _ => rfl) _

section Resolves

variable (hall : ∀ r, w.schema.Names r → w.schema.Resolves r) (u : Fallback)

include hall

/-- In a schema without dangling references an evaluation of what stands there does without the
fallback. -/
theorem evaluateOr_of_resolves (n : Nat) {e : ShapeExpr} (he : e ∈ w.schema.expressions)
    (node : Term) : w.evaluateOr u n e node = w.evaluate n e node := by
  induction n generalizing e node with
  | zero => rfl
  | succ n ih =>
    have hshape : ∀ shape, e = .shape shape →
        w.schema.compileOr u shape.expression = w.schema.compile shape.expression := by
      rintro shape rfl
      exact Schema.compileOr_of_resolves hall u he
    have hlabel : ∀ label, e = .ref label → w.schema.find? label = none →
        u.shape label node = pure false := by
      rintro label rfl hnone
      have hnames : w.schema.Names (.shape label) := .cites he (.ref label)
      exact absurd hnone (Schema.find?_ne_none_of_resolves (hall _ hnames))
    calc w.evaluateOr u (n + 1) e node
      _ = w.step (w.evaluateOr u n) e node := stepOr_eq_step hshape hlabel _
      _ = w.step (w.evaluate n) e node :=
        step_congr w.schema.closed_expressions (fun e he node => ih he node) he node

/-- So does a request for something declared. -/
theorem askOr_of_resolves (n : Nat) (node : Term) {label : Option Label}
    (hlabel : ∀ l, label = some l → w.schema.Resolves (.shape l)) :
    w.askOr u n node label = w.ask n node label := by
  unfold askOr ask
  cases label with
  | some l =>
    have hl : w.schema.find? l ≠ none := Schema.find?_ne_none_of_resolves (hlabel l rfl)
    have hdeclared : ∀ d ∈ w.schema.declarations,
        w.evaluateOr u n d.expression node = w.evaluate n d.expression node := by
      intro d hd
      exact evaluateOr_of_resolves hall u n (Schema.declared_mem_expressions hd) node
    have hreference : w.evaluateReferenceOr u (w.evaluateOr u n) l node =
        w.evaluateReference (w.evaluate n) l node :=
      (evaluateReferenceOr_eq (fun hnone => absurd hnone hl) _).trans
        (evaluateReference_congr hdeclared l)
    simp only [hreference]
  | none =>
    cases hs : w.schema.start with
    | none => rfl
    | some e =>
      have he := evaluateOr_of_resolves hall u n (Schema.start_mem_expressions hs) node
      simp only [he]

end Resolves

end Setting

namespace Session

/-- The usual fallback is what a request does without one. -/
theorem validateOr_usual (s : Session) (w : Setting) (node : Term) (label : Option Label) :
    s.validateOr .usual w node label = s.validate w node label := by
  have hreference : ∀ l, w.evaluateReferenceOr .usual (w.evaluate (w.nestingBound 0)) l node =
      w.evaluateReference (w.evaluate (w.nestingBound 0)) l node :=
    fun l => Setting.evaluateReferenceOr_eq (fun _ => rfl) _
  unfold validateOr validate Setting.askOr Setting.ask
  simp only [Setting.evaluateOr_usual]
  cases label with
  | some l => simp only [hreference]
  | none => rfl

/-- The check of references accepts a schema if and only if every label that stands in it, at any
depth of its declarations, labelled triple expressions and start expression, is known; otherwise it
reports a label that is not.

In a schema that it accepts, nothing hangs on what would be done with an unknown label: whatever
fallback takes the place of the usual one, every request for the start expression or a declared
label is answered as before, from every state of a session and about every graph, and leaves the
same state behind. -/
theorem checkReferences_sound (s : Schema) :
    (s.checkReferences = .ok () ↔ ∀ r, s.Names r → s.Resolves r) ∧
      (∀ failure, s.checkReferences = .error failure →
        ∃ r, s.Names r ∧ ¬s.Resolves r ∧ failure = .unresolvedReference r.label) ∧
      (∀ (t : Session) (w : Setting) (node : Term) (label : Option Label),
        t.validateOr .usual w node label = t.validate w node label) ∧
      (s.checkReferences = .ok () → ∀ (u : Fallback) (t : Session) (w : Setting) (node : Term)
        (label : Option Label), w.schema = s →
          (∀ l, label = some l → s.Resolves (.shape l)) →
            t.validateOr u w node label = t.validate w node label) := by
  refine ⟨(Schema.checkReferences_eq s).1, (Schema.checkReferences_eq s).2, validateOr_usual, ?_⟩
  rintro hok u t w node label rfl hlabel
  have hall := (Schema.checkReferences_eq w.schema).1.1 hok
  exact congrFun (Setting.askOr_of_resolves hall u (w.nestingBound 0) node hlabel) t

end Session

/-! ## References of every kind -/

/-- A labelled triple expression that asks for a node of a declaration, and the declaration of a
shape with that triple expression. -/
def Setting.linked : Setting where
  schema :=
    (Schema.empty.addTripleExpression (.iri ⟨"T"⟩)
      (.triple (.to ⟨"p"⟩ (.ref (.iri ⟨"A"⟩))))).addShape
        ⟨.iri ⟨"A"⟩, false, .shape (.ofLabel (.iri ⟨"T"⟩))⟩
  graph := circle
  listing := circle.asInserted
  limits := .standard

namespace Session

/-- A schema that passes the check, and in which the labels of a shape and of a triple expression
are followed. -/
theorem checkReferences_sound_linked :
    Setting.linked.schema.checkReferences = .ok () ∧
      Setting.linked.schema.Resolves (.shape (.iri ⟨"A"⟩)) ∧
      ∀ u node, initial.validateOr u .linked node (some (.iri ⟨"A"⟩)) =
        initial.validate .linked node (some (.iri ⟨"A"⟩)) := by
  have hok : Setting.linked.schema.checkReferences = .ok () := by rfl
  have hdeclared : Setting.linked.schema.Resolves (.shape (.iri ⟨"A"⟩)) :=
    ⟨_, List.mem_singleton.2 rfl, rfl⟩
  refine ⟨hok, hdeclared, fun u node => ?_⟩
  refine (checkReferences_sound Setting.linked.schema).2.2.2 hok u _ _ _ _ rfl ?_
  intro l hl
  cases hl
  exact hdeclared

/-- A request for a label that is not declared is answered by the fallback. -/
example : initial.validateOr ⟨fun _ _ => pure true, Fallback.usual.tripleExpr⟩ .linked
      (.iri ⟨"n"⟩) (some (.iri ⟨"B"⟩)) = some (.ok true, .initial) ∧
    initial.validate .linked (.iri ⟨"n"⟩) (some (.iri ⟨"B"⟩)) = some (.ok false, .initial) :=
  ⟨rfl, rfl⟩

end Session

end ShEx
