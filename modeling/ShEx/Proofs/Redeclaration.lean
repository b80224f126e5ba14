import ShEx.Schema.Basic
import Mathlib.Data.List.Basic
import Mathlib.Data.List.Induction
import Mathlib.Data.Option.Defs

/-!
# Declaring labels again

A schema that is given several declarations, or several labelled triple expressions, knows each
label for the last one that carries it (`Schema.rel_getLast?_foldl_addShape`,
`Schema.rel_tripleExpression?_withTriples`).  The declarations stand in the order in which their
labels first came, whatever else the schema is given between them (`Schema.labels_build`).
-/

set_option autoImplicit false

namespace ShEx

open ShEx.Rdf

/-- A member that comes once more at the end of a list adds nothing to its different members. -/
theorem eraseDups_concat {α : Type} [DecidableEq α] (xs : List α) (x : α) :
    (xs ++ [x]).eraseDups = if x ∈ xs then xs.eraseDups else xs.eraseDups ++ [x] := by
  rw [List.eraseDups_append]
  by_cases hx : x ∈ xs <;> simp [List.removeAll, List.eraseDups_cons, hx]

/-- Removing repetitions leaves none. -/
theorem nodup_eraseDups {α : Type} [DecidableEq α] (xs : List α) : xs.eraseDups.Nodup := by
  induction xs using List.reverseRecOn with
  | nil => exact List.nodup_nil
  | append_singleton xs x ih =>
    rw [eraseDups_concat]
    split
    · exact ih
    · next hx =>
      refine List.nodup_append.2 ⟨ih, by simp, fun y hy z hz => ?_⟩
      rw [List.mem_singleton.1 hz]
      exact fun heq => hx (heq ▸ List.mem_eraseDups.1 hy)

namespace Schema

/-- The number of a label is the place where it comes first among the labels. -/
theorem declarationIndex?_eq (s : Schema) (label : Label) : s.declarationIndex? label =
    (s.declarations.map (·.label)).findIdx? fun l => l = label := by
  rw [List.findIdx?_map]
  rfl

/-- At the number of a label stands a declaration with this label. -/
theorem label_of_declarationIndex? {s : Schema} {label : Label} {i : Nat}
    (h : s.declarationIndex? label = some i) :
    (s.declaration? i).map (·.label) = some label := by
  rw [declarationIndex?_eq] at h
  obtain ⟨hlt, hlabel, -⟩ := List.findIdx?_eq_some_iff_getElem.1 h
  rw [declaration?, ← List.getElem?_map, List.getElem?_eq_getElem hlt]
  exact congrArg some (of_decide_eq_true hlabel)

/-- A label is found with its number and the declaration that has this number. -/
theorem find?_eq_some_iff {s : Schema} {label : Label} {i : Nat} {d : Declaration} :
    s.find? label = some (i, d) ↔
      s.declarationIndex? label = some i ∧ s.declaration? i = some d := by
  unfold find?
  cases h : s.declarationIndex? label with
  | none => simp
  | some j =>
    simp only [Option.map_eq_some_iff, Prod.mk.injEq, Option.some.injEq]
    constructor
    · rintro ⟨d', hd, rfl, rfl⟩
      exact ⟨rfl, hd⟩
    · rintro ⟨rfl, hd⟩
      exact ⟨d, hd, rfl, rfl⟩

/-- The declaration with a label is the first one in the list of declarations. -/
theorem map_find? (s : Schema) (label : Label) :
    (s.find? label).map (·.2) = s.declarations.find? fun d => d.label = label := by
  unfold find? declarationIndex? declaration?
  cases hi : s.declarations.findIdx? fun d => d.label = label with
  | none =>
    refine (List.find?_eq_none.2 fun d hd => ?_).symm
    simpa using List.findIdx?_eq_none_iff.1 hi d hd
  | some index =>
    obtain ⟨hlt, hlabel, hbefore⟩ := List.findIdx?_eq_some_iff_getElem.1 hi
    dsimp only
    rw [List.getElem?_eq_getElem hlt, eq_comm]
    exact List.find?_eq_some_iff_getElem.2 ⟨hlabel, index, hlt, rfl, by simpa using hbefore⟩

/-- A label is not found if no declaration has it. -/
theorem find?_eq_none_iff {s : Schema} {label : Label} :
    s.find? label = none ↔ ∀ d ∈ s.declarations, d.label ≠ label := by
  rw [← Option.map_eq_none_iff (f := (·.2)), map_find?, List.find?_eq_none]
  simp

/-- A declaration that is placed is found under its label, and the others are found as before. -/
theorem find?_placed (d : Declaration) (ds : List Declaration) (label : Label) :
    (placed d ds).find? (fun e => e.label = label) =
      if d.label = label then some d else ds.find? fun e => e.label = label := by
  induction ds with
  | nil => by_cases h : d.label = label <;> simp [placed, h]
  | cons e rest ih =>
    unfold placed
    by_cases he : e.label = d.label
    · rw [if_pos he]
      by_cases h : d.label = label
      · simp [h]
      · have h' : e.label ≠ label := fun heq => h (he ▸ heq)
        simp [h, h']
    · rw [if_neg he, List.find?_cons, ih]
      by_cases h : d.label = label
      · have h' : e.label ≠ label := fun heq => he (heq.trans h.symm)
        simp [h, h']
      · simp [List.find?_cons, h]

/-- A triple expression that is placed is found under its label, and the others are found as
before. -/
theorem lookup_placedTriple (l : Label) (e : TripleExpr) (entries : List (Label × TripleExpr))
    (label : Label) : (placedTriple l e entries).lookup label =
      if l = label then some e else entries.lookup label := by
  induction entries with
  | nil =>
    by_cases h : l = label
    · simp [placedTriple, h]
    · have h' : (label == l) = false := by simpa using fun heq => h heq.symm
      simp [placedTriple, List.lookup_cons, h, h']
  | cons entry rest ih =>
    obtain ⟨l', e'⟩ := entry
    unfold placedTriple
    by_cases hl : l' = l
    · rw [if_pos hl]
      by_cases h : l = label
      · simp [h]
      · have h' : (label == l) = false := by simpa using fun heq => h heq.symm
        simp [List.lookup_cons, hl, h, h']
    · rw [if_neg hl, List.lookup_cons, List.lookup_cons, ih]
      by_cases h : l = label
      · have h' : (label == l') = false := by simpa using fun heq => hl (heq.symm.trans h.symm)
        rw [h', if_pos h]
      · rw [if_neg h, if_neg h]

/-- A declaration with a label that does not come in front is placed behind. -/
theorem placed_append {d : Declaration} {ds more : List Declaration}
    (h : ∀ e ∈ ds, e.label ≠ d.label) : placed d (ds ++ more) = ds ++ placed d more := by
  induction ds with
  | nil => rfl
  | cons e rest ih =>
    rw [List.cons_append, placed, if_neg (h e List.mem_cons_self),
      ih fun e' he' => h e' (List.mem_cons_of_mem _ he'), List.cons_append]

/-- Placing a declaration adds its label behind the others if it is not among them. -/
theorem labels_placed (d : Declaration) (ds : List Declaration) :
    (placed d ds).map (·.label) =
      if d.label ∈ ds.map (·.label) then ds.map (·.label) else ds.map (·.label) ++ [d.label] := by
  induction ds with
  | nil => simp [placed]
  | cons e rest ih =>
    unfold placed
    by_cases he : e.label = d.label
    · simp [he]
    · have he' : d.label ≠ e.label := fun h => he h.symm
      rw [if_neg he, List.map_cons, List.map_cons, ih]
      by_cases h : d.label ∈ rest.map (·.label)
      · rw [if_pos h, if_pos (List.mem_cons_of_mem _ h)]
      · rw [if_neg h, if_neg (by simpa [he'] using h), List.cons_append]

/-! ## Operations in a row -/

/-- An operation that builds a schema. -/
inductive Operation where
  | addShape (d : Declaration)
  | addTripleExpression (label : Label) (e : TripleExpr)
  | setStart (e : ShapeExpr)
  | addImport (iri : Iri)
  | addStartAct (act : SemanticAction)

/-- The schema behind an operation. -/
def apply (s : Schema) : Operation → Schema
  | .addShape d => s.addShape d
  | .addTripleExpression label e => s.addTripleExpression label e
  | .setStart e => s.setStart e
  | .addImport iri => s.addImport iri
  | .addStartAct act => s.addStartAct act

/-- The schema behind several operations. -/
def build (s : Schema) (operations : List Operation) : Schema := operations.foldl apply s

/-- The declaration that an operation adds. -/
def Operation.declaration? : Operation → Option Declaration
  | .addShape d => some d
  | _ => none

/-- The declarations that operations add. -/
def declared (operations : List Operation) : List Declaration :=
  operations.filterMap Operation.declaration?

/-- Operations one after the other build on what the first ones have built. -/
theorem build_append (s : Schema) (before later : List Operation) :
    s.build (before ++ later) = (s.build before).build later :=
  List.foldl_append

/-- Operations one after the other declare what each of them declares. -/
theorem declared_append (before later : List Operation) :
    declared (before ++ later) = declared before ++ declared later :=
  List.filterMap_append

/-- Only a declaration changes what is declared. -/
theorem declarations_apply_of_none {s : Schema} {o : Operation} (h : o.declaration? = none) :
    (s.apply o).declarations = s.declarations := by
  cases o with
  | addShape d => cases h
  | _ => rfl

/-- The labels stand in the order in which they first came. -/
theorem labels_build {base : Schema} (hbase : base.declarations = [])
    (operations : List Operation) :
    (base.build operations).declarations.map (·.label) =
      ((declared operations).map (·.label)).eraseDups := by
  induction operations using List.reverseRecOn with
  | nil => simp [build, declared, hbase]
  | append_singleton operations o ih =>
    rw [build_append, declared_append]
    show ((base.build operations).apply o).declarations.map _ = _
    cases o with
    | addShape d =>
      show (placed _ _).map _ = ((declared operations ++ [d]).map _).eraseDups
      rw [labels_placed, ih, List.map_append, List.map_singleton, eraseDups_concat]
      simp only [List.mem_eraseDups]
    | _ =>
      show _ = ((declared operations ++ []).map _).eraseDups
      rw [declarations_apply_of_none rfl, List.append_nil, ih]

/-- A declaration is kept with its node constraints numbered. -/
def KeptAs (d d' : Declaration) : Prop :=
  ∃ n, d' = { d with expression := (d.expression.numbered n).1 }

/-- Of several declarations with a label the last one is kept. -/
theorem rel_getLast?_foldl_addShape {base : Schema} (hbase : base.declarations = [])
    (ds : List Declaration) (label : Label) :
    Option.Rel KeptAs (ds.filter fun d => d.label = label).getLast?
      ((ds.foldl addShape base).declarations.find? fun d => d.label = label) := by
  induction ds using List.reverseRecOn with
  | nil =>
    rw [List.foldl_nil, hbase]
    exact .none
  | append_singleton ds d ih =>
    rw [List.foldl_concat, List.filter_append, List.getLast?_append]
    show Option.Rel _ _ ((placed _ _).find? _)
    rw [find?_placed]
    by_cases h : d.label = label
    · rw [if_pos h, List.filter_cons_of_pos (by simpa using h)]
      exact .some ⟨_, rfl⟩
    · rw [if_neg h, List.filter_cons_of_neg (by simpa using h)]
      exact ih

/-- Declarations that are added to none have each label once, where it comes first. -/
theorem labels_foldl_addShape {base : Schema} (hbase : base.declarations = [])
    (ds : List Declaration) :
    (ds.foldl addShape base).declarations.map (·.label) = (ds.map (·.label)).eraseDups := by
  have h := labels_build hbase (ds.map .addShape)
  have hdeclared : declared (ds.map .addShape) = ds := by
    simp [declared, Function.comp_def, Operation.declaration?]
  rwa [hdeclared, build, List.foldl_map] at h

/-- Adding declarations leaves the labelled triple expressions as they are. -/
theorem tripleExpressions_foldl_addShape (base : Schema) (ds : List Declaration) :
    (ds.foldl addShape base).tripleExpressions = base.tripleExpressions := by
  induction ds using List.reverseRecOn with
  | nil => rfl
  | append_singleton ds d ih =>
    rw [List.foldl_concat]
    exact ih

/-- The schema with further labelled triple expressions. -/
def withTriples (base : Schema) (entries : List (Label × TripleExpr)) : Schema :=
  entries.foldl (fun s entry => s.addTripleExpression entry.1 entry.2) base

/-- Adding labelled triple expressions leaves the declarations as they are. -/
theorem declarations_withTriples (base : Schema) (entries : List (Label × TripleExpr)) :
    (base.withTriples entries).declarations = base.declarations := by
  induction entries using List.reverseRecOn with
  | nil => rfl
  | append_singleton entries entry ih =>
    rw [withTriples, List.foldl_concat]
    exact ih

/-- Of several triple expressions with a label the last one is kept. -/
theorem rel_tripleExpression?_withTriples {base : Schema} (hbase : base.tripleExpressions = [])
    (entries : List (Label × TripleExpr)) (label : Label) :
    Option.Rel (fun entry e => ∃ n, e = (entry.2.numbered n).1)
      (entries.filter fun entry => entry.1 = label).getLast?
      ((base.withTriples entries).tripleExpression? label) := by
  induction entries using List.reverseRecOn with
  | nil =>
    rw [withTriples, List.foldl_nil, tripleExpression?, hbase]
    exact .none
  | append_singleton entries entry ih =>
    rw [withTriples, List.foldl_concat, List.filter_append, List.getLast?_append]
    show Option.Rel _ _ ((placedTriple _ _ _).lookup _)
    rw [lookup_placedTriple]
    by_cases h : entry.1 = label
    · rw [if_pos h, List.filter_cons_of_pos (by simpa using h)]
      exact .some ⟨_, rfl⟩
    · rw [if_neg h, List.filter_cons_of_neg (by simpa using h)]
      exact ih

end Schema

end ShEx
