import ShEx.Proofs.OneOf
import ShEx.Proofs.Redeclaration
import ShEx.Proofs.Slots

/-!
# Filling in external shapes

A schema is filled in (`Schema.Filled`) when anything is put in the place of external shapes, at any
depth, and of abstract declarations.  Schemas that are built in the same steps, with and without
what is filled in, are related so (`Schema.Filled.addShape`); only their node constraints have other
numbers.

Labels, references and triple expressions stay as they are, so that a shape has the same formula
over slots that are filled in (`Schema.Filled.compile`).
-/

set_option autoImplicit false

namespace ShEx

open ShEx.Rdf

/-! ## Expressions -/

mutual

/-- A shape expression is filled in: anything may stand in the place of external shapes.  The
numbers of node constraints do not count. -/
inductive ShapeExpr.Filled : ShapeExpr → ShapeExpr → Prop
  | external (e : ShapeExpr) : ShapeExpr.Filled .external e
  | or {es es' : List ShapeExpr} (h : List.Forall₂ ShapeExpr.Filled es es') :
      ShapeExpr.Filled (.or es) (.or es')
  | and {es es' : List ShapeExpr} (h : List.Forall₂ ShapeExpr.Filled es es') :
      ShapeExpr.Filled (.and es) (.and es')
  | not {e e' : ShapeExpr} (h : ShapeExpr.Filled e e') : ShapeExpr.Filled (.not e) (.not e')
  | node (c : NodeConstraint) (id : Option Nat) :
      ShapeExpr.Filled (.node c) (.node { c with id := id })
  | shape {s : Shape} {expression : Option TripleExpr}
      (h : Option.Rel TripleExpr.Filled s.expression expression) :
      ShapeExpr.Filled (.shape s) (.shape { s with expression := expression })
  | ref (label : Label) : ShapeExpr.Filled (.ref label) (.ref label)

/-- A triple expression is filled in. -/
inductive TripleExpr.Filled : TripleExpr → TripleExpr → Prop
  | eachOf {g : TripleGroup} {members : List TripleExpr}
      (h : List.Forall₂ TripleExpr.Filled g.members members) :
      TripleExpr.Filled (.eachOf g) (.eachOf { g with members := members })
  | oneOf {g : TripleGroup} {members : List TripleExpr}
      (h : List.Forall₂ TripleExpr.Filled g.members members) :
      TripleExpr.Filled (.oneOf g) (.oneOf { g with members := members })
  | triple {t : TripleConstraint} {value : Option ShapeExpr}
      (h : Option.Rel ShapeExpr.Filled t.value value) :
      TripleExpr.Filled (.triple t) (.triple { t with value := value })
  | ref (label : Label) : TripleExpr.Filled (.ref label) (.ref label)

end

/-! ## Numbering -/

mutual

/-- What is filled in stays so when node constraints are numbered, from whichever number on. -/
theorem ShapeExpr.Filled.numbered : ∀ {e e' : ShapeExpr} (n m : Nat), e.Filled e' →
    (e.numbered n).1.Filled (e'.numbered m).1
  | .or _, _, n, m, .or h => .or (ShapeExpr.filled_numberedAll n m h)
  | .and _, _, n, m, .and h => .and (ShapeExpr.filled_numberedAll n m h)
  | .not _, _, n, m, .not h => .not (h.numbered n m)
  | .node _, _, n, m, .node c _ => .node { c with id := some n } (some m)
  | .shape ⟨_, _, none, _, _, _⟩, _, _, _, .shape .none => .shape .none
  | .shape ⟨_, _, some _, _, _, _⟩, _, n, m, .shape (.some h) =>
    .shape (.some (h.numbered n m))
  | .external, _, _, m, .external e => .external (e.numbered m).1
  | .ref _, _, _, _, .ref label => .ref label

/-- Operands that are filled in stay so when they are numbered one after the other. -/
theorem ShapeExpr.filled_numberedAll : ∀ {es es' : List ShapeExpr} (n m : Nat),
    List.Forall₂ ShapeExpr.Filled es es' →
      List.Forall₂ ShapeExpr.Filled (ShapeExpr.numberedAll n es).1 (ShapeExpr.numberedAll m es').1
  | [], _, _, _, .nil => .nil
  | _ :: _, _, n, m, .cons h hs =>
    .cons (h.numbered n m) (ShapeExpr.filled_numberedAll _ _ hs)

/-- A triple expression that is filled in stays so when the constraints in its value expressions are
numbered. -/
theorem TripleExpr.Filled.numbered : ∀ {e e' : TripleExpr} (n m : Nat), e.Filled e' →
    (e.numbered n).1.Filled (e'.numbered m).1
  | .eachOf ⟨_, _, _⟩, _, n, m, .eachOf h => .eachOf (TripleExpr.filled_numberedAll n m h)
  | .oneOf ⟨_, _, _⟩, _, n, m, .oneOf h => .oneOf (TripleExpr.filled_numberedAll n m h)
  | .triple ⟨_, _, none, _, _⟩, _, _, _, .triple .none => .triple .none
  | .triple ⟨_, _, some _, _, _⟩, _, n, m, .triple (.some h) => .triple (.some (h.numbered n m))
  | .ref _, _, _, _, .ref label => .ref label

/-- Members that are filled in stay so when they are numbered one after the other. -/
theorem TripleExpr.filled_numberedAll : ∀ {es es' : List TripleExpr} (n m : Nat),
    List.Forall₂ TripleExpr.Filled es es' →
      List.Forall₂ TripleExpr.Filled (TripleExpr.numberedAll n es).1
        (TripleExpr.numberedAll m es').1
  | [], _, _, _, .nil => .nil
  | _ :: _, _, n, m, .cons h hs =>
    .cons (h.numbered n m) (TripleExpr.filled_numberedAll _ _ hs)

end

/-! ## Schemas -/

/-- A declaration that is filled in.  Of an abstract one only the label stays. -/
structure Declaration.Filled (d d' : Declaration) : Prop where
  label : d'.label = d.label
  concrete : d.isAbstract = false → d'.isAbstract = false ∧ d.expression.Filled d'.expression

namespace Schema

/-- A schema whose expressions are filled in. -/
structure Filled (s s' : Schema) : Prop where
  declarations : List.Forall₂ Declaration.Filled s.declarations s'.declarations
  tripleExpressions : List.Forall₂ (fun entry entry' => entry'.1 = entry.1 ∧
    entry.2.Filled entry'.2) s.tripleExpressions s'.tripleExpressions
  start : Option.Rel ShapeExpr.Filled s.start s'.start
  imports : s'.imports = s.imports
  startActs : s'.startActs = s.startActs

variable {s s' : Schema}

/-! ### Building -/

/-- There is nothing to fill in in the empty schema. -/
theorem Filled.empty : Schema.empty.Filled .empty := ⟨.nil, .nil, .none, rfl, rfl⟩

/-- Declarations have the same labels filled in, so a further one goes to the same place in both
lists. -/
theorem filled_placed {ds ds' : List Declaration} (h : List.Forall₂ Declaration.Filled ds ds')
    {d d' : Declaration} (hd : d.Filled d') :
    List.Forall₂ Declaration.Filled (placed d ds) (placed d' ds') := by
  induction h with
  | nil => exact .cons hd .nil
  | @cons e e' rest rest' he hrest ih =>
    unfold placed
    rw [he.label, hd.label]
    split
    · exact .cons hd hrest
    · exact .cons he ih

/-- Labelled triple expressions keep their labels, so a further one goes to the same place in both
lists. -/
theorem filled_placedTriple {label : Label} {te te' : TripleExpr} (hte : te.Filled te')
    {entries entries' : List (Label × TripleExpr)}
    (h : List.Forall₂ (fun entry entry' => entry'.1 = entry.1 ∧ entry.2.Filled entry'.2) entries
      entries') :
    List.Forall₂ (fun entry entry' => entry'.1 = entry.1 ∧ entry.2.Filled entry'.2)
      (placedTriple label te entries) (placedTriple label te' entries') := by
  induction h with
  | nil => exact .cons ⟨rfl, hte⟩ .nil
  | @cons e e' rest rest' he hrest ih =>
    unfold placedTriple
    rw [he.1]
    split
    · exact .cons ⟨rfl, hte⟩ hrest
    · exact .cons he ih

/-- A declaration and what it is filled in as, declared in a schema and in one that is filled in. -/
theorem Filled.addShape (h : s.Filled s') {d d' : Declaration} (hd : d.Filled d') :
    (s.addShape d).Filled (s'.addShape d') := by
  refine ⟨filled_placed h.declarations ⟨hd.label, fun hc => ?_⟩, h.tripleExpressions, h.start,
    h.imports, h.startActs⟩
  obtain ⟨hc', he⟩ := hd.concrete hc
  exact ⟨hc', he.numbered _ _⟩

/-- A triple expression that is added to both schemas leaves the one filled in. -/
theorem Filled.addTripleExpression (h : s.Filled s') (label : Label) {te te' : TripleExpr}
    (hte : te.Filled te') :
    (s.addTripleExpression label te).Filled (s'.addTripleExpression label te') :=
  ⟨h.declarations, filled_placedTriple (hte.numbered _ _) h.tripleExpressions, h.start, h.imports,
    h.startActs⟩

/-- A start expression that is set in both schemas leaves the one filled in. -/
theorem Filled.setStart (h : s.Filled s') {e e' : ShapeExpr} (he : e.Filled e') :
    (s.setStart e).Filled (s'.setStart e') :=
  ⟨h.declarations, h.tripleExpressions, .some (he.numbered _ _), h.imports, h.startActs⟩

/-! ### Looking up -/

/-- A declaration keeps its place. -/
theorem Filled.declarationIndex?_eq (h : s.Filled s') (label : Label) :
    s'.declarationIndex? label = s.declarationIndex? label := by
  have hlabels : s'.declarations.map (·.label) = s.declarations.map (·.label) := by
    have h := h.declarations
    generalize s.declarations = ds, s'.declarations = ds' at h
    induction h with
    | nil => rfl
    | cons hd _ ih => rw [List.map_cons, List.map_cons, hd.label, ih]
  rw [Schema.declarationIndex?_eq, Schema.declarationIndex?_eq, hlabels]

/-- What is found for a label is found where it was. -/
theorem Filled.rel_find? (h : s.Filled s') (label : Label) :
    Option.Rel (fun found found' => found'.1 = found.1 ∧ found.2.Filled found'.2)
      (s.find? label) (s'.find? label) := by
  unfold find?
  rw [h.declarationIndex?_eq]
  cases s.declarationIndex? label with
  | none => exact .none
  | some index =>
    have hd : Option.Rel Declaration.Filled (s.declaration? index) (s'.declaration? index) :=
      rel_getElem? h.declarations index
    dsimp only
    generalize s.declaration? index = d, s'.declaration? index = d' at hd
    cases hd with
    | none => exact .none
    | some hd => exact .some ⟨rfl, hd⟩

/-- A label that is not declared is not declared filled in either. -/
theorem Filled.find?_eq_none (h : s.Filled s') {label : Label} (hl : s.find? label = none) :
    s'.find? label = none := by
  have hfound := h.rel_find? label
  rw [hl] at hfound
  generalize s'.find? label = found' at hfound
  cases hfound
  rfl

/-- A label that is declared has the same number filled in, and a declaration that is filled in. -/
theorem Filled.exists_find? (h : s.Filled s') {label : Label} {index : Nat} {d : Declaration}
    (hl : s.find? label = some (index, d)) :
    ∃ d', s'.find? label = some (index, d') ∧ d.Filled d' := by
  have hfound := h.rel_find? label
  rw [hl] at hfound
  generalize s'.find? label = found' at hfound
  obtain ⟨hindex, hd⟩ | _ := hfound
  cases hindex
  exact ⟨_, rfl, hd⟩

/-- A label of a triple expression stands for something in both schemas or in none. -/
theorem Filled.rel_tripleExpression? (h : s.Filled s') (label : Label) :
    Option.Rel TripleExpr.Filled (s.tripleExpression? label) (s'.tripleExpression? label) := by
  unfold tripleExpression?
  have h := h.tripleExpressions
  generalize s.tripleExpressions = entries, s'.tripleExpressions = entries' at h
  induction h with
  | nil => exact .none
  | @cons entry entry' rest rest' he hrest ih =>
    obtain ⟨l, te⟩ := entry
    obtain ⟨l', te'⟩ := entry'
    obtain ⟨rfl, hte⟩ := he
    rw [List.lookup_cons, List.lookup_cons]
    cases label == l' with
    | true => exact .some hte
    | false => exact ih

/-- Chains of references are as they were. -/
theorem Filled.rel_follow? (h : s.Filled s') (n : Nat) {te te' : TripleExpr}
    (hte : te.Filled te') : Option.Rel TripleExpr.Filled (s.follow? n te) (s'.follow? n te') := by
  induction n generalizing te te' with
  | zero => exact .none
  | succ n ih =>
    cases hte with
    | ref label =>
      have hl := h.rel_tripleExpression? label
      simp only [follow?]
      generalize s.tripleExpression? label = te, s'.tripleExpression? label = te' at hl
      cases hl with
      | none => exact .none
      | some hte => exact ih hte
    | eachOf h => exact .some (.eachOf h)
    | oneOf h => exact .some (.oneOf h)
    | triple h => exact .some (.triple h)

/-- A chain of references ends in both schemas or in none, and what it ends with is filled in. -/
theorem Filled.rel_resolveTriple? (h : s.Filled s') {te te' : TripleExpr} (hte : te.Filled te') :
    Option.Rel TripleExpr.Filled (s.resolveTriple? te) (s'.resolveTriple? te') := by
  unfold resolveTriple?
  rw [h.tripleExpressions.length_eq]
  exact h.rel_follow? _ hte

end Schema

/-! ## Compiling -/

/-- A slot that is filled in. -/
abbrev FilledSlot (t t' : TripleConstraint) : Prop := (TripleExpr.triple t).Filled (.triple t')

/-- Slots that are filled in. -/
abbrev FilledSlots : List TripleConstraint → List TripleConstraint → Prop := List.Forall₂ FilledSlot

/-- A slot that is filled in asks for the same arcs in the same numbers. -/
theorem FilledSlot.alike {t t' : TripleConstraint} (h : FilledSlot t t') : t.Alike t' := by
  cases h
  exact ⟨rfl, rfl, rfl⟩

/-- Slots that are filled in ask for the same arcs in the same numbers, one by one. -/
theorem FilledSlots.alike {slots slots' : List TripleConstraint} (h : FilledSlots slots slots') :
    List.Forall₂ TripleConstraint.Alike slots slots' := h.imp fun _ _ => FilledSlot.alike

namespace Schema

variable {s s' : Schema}

/-- What is filled in compiles as it does without, if the labels do that it refers to. -/
theorem compileWith_filled
    {expand expand' : Label → List TripleConstraint → Except Failure Compiled}
    {te te' : TripleExpr} (h : te.Filled te')
    (hl : ∀ label, CompilesAlike FilledSlot (expand label) (expand' label)) :
    CompilesAlike FilledSlot (te.compileWith expand) (te'.compileWith expand') := by
  induction te using TripleExpr.memberInduction generalizing te' with
  | eachOf g ih =>
    cases h with
    | eachOf hmembers => exact compileEachOf_alike hmembers fun e he e' => ih e he
  | oneOf g ih =>
    cases h with
    | oneOf hmembers => exact compileOneOf_alike hmembers fun e he e' => ih e he
  | triple t =>
    cases h with
    | triple hvalue => exact compileTripleConstraint_alike (.triple hvalue)
  | ref label =>
    cases h
    exact hl label

/-- A triple expression that is filled in is compiled in the same steps; only what slots ask for at
the other ends may differ. -/
theorem Filled.compileTriple (h : s.Filled s') (n : Nat) (expanding : List Label)
    {te te' : TripleExpr} (hte : te.Filled te') :
    CompilesAlike FilledSlot (s.compileTriple n expanding te)
      (s'.compileTriple n expanding te') := by
  induction n generalizing expanding te te' with
  | zero => exact compileWith_filled hte fun _ => compilesAlike_error _
  | succ n ih =>
    refine compileWith_filled hte fun label => ?_
    have htarget := h.rel_resolveTriple? (.ref label)
    have hknown := h.rel_tripleExpression? label
    cases expanding.contains label with
    | true => exact compilesAlike_error _
    | false =>
      generalize s.resolveTriple? (.ref label) = target,
        s'.resolveTriple? (.ref label) = target' at htarget
      cases htarget with
      | some htarget => exact ih _ htarget
      | none =>
        generalize s.tripleExpression? label = known, s'.tripleExpression? label = known' at hknown
        cases hknown with
        | some _ => exact compilesAlike_error _
        | none => exact fun _ _ hb => .ok _ hb

/-- A triple expression compiles as it does when the schema is filled in. -/
theorem Filled.compile (h : s.Filled s') {expression expression' : Option TripleExpr}
    (he : Option.Rel TripleExpr.Filled expression expression') :
    SameUpTo FilledSlot (s.compile expression) (s'.compile expression') := by
  cases he with
  | none => exact .ok _ .nil
  | some he =>
    unfold Schema.compile
    rw [← h.tripleExpressions.length_eq]
    exact h.compileTriple _ _ he _ _ .nil

end Schema

end ShEx
