import Mathlib.Data.Finset.Card
import ShEx.Proofs.Redeclaration

/-!
# Numbers of declarations

A session keeps its answers under the numbers of declarations, so a number has to stand for one
label for good.  In a schema that operations build from the empty one it does: no label is declared
twice, declarations that are added later leave the numbers as they are, and a label stands for the
last declaration with it (`Schema.declaredBy_build`).

To find a number, a schema goes through its declarations.  It could as well look the label up in an
index that is kept beside them (`Schema.Indexed`): an entry is made for each new label, and none is
touched when a declaration is replaced.  The index never points to a place where nothing stands, and
both ways give the same numbers (`Schema.Indexed.run?_eq`).
-/

set_option autoImplicit false

namespace ShEx.Schema

open ShEx.Rdf

variable {s : Schema} {label : Label} {i : Nat}

/-! ## Where a label stands -/

/-- A label has no number if and only if it is not declared. -/
theorem declarationIndex?_eq_none_iff :
    s.declarationIndex? label = none ↔ label ∉ s.declarations.map (·.label) := by
  rw [declarationIndex?_eq, List.findIdx?_eq_none_iff]
  constructor
  · intro h hmem
    simpa using h label hmem
  · intro h l hl
    have hne : l ≠ label := fun heq => h (heq ▸ hl)
    simpa using hne

/-- A label that has a number is declared. -/
theorem mem_labels_of_declarationIndex? (h : s.declarationIndex? label = some i) :
    label ∈ s.declarations.map (·.label) := by
  by_contra hnew
  rw [declarationIndex?_eq_none_iff.2 hnew] at h
  cases h

/-- If no label stands twice, the number of a label is the only place where it stands. -/
theorem declarationIndex?_eq_some_iff (h : (s.declarations.map (·.label)).Nodup) :
    s.declarationIndex? label = some i ↔ (s.declaration? i).map (·.label) = some label := by
  refine ⟨label_of_declarationIndex?, fun hlabel => ?_⟩
  rw [declaration?, ← List.getElem?_map] at hlabel
  obtain ⟨hlt, hlabel⟩ := List.getElem?_eq_some_iff.1 hlabel
  rw [declarationIndex?_eq, List.findIdx?_eq_some_iff_getElem]
  refine ⟨hlt, decide_eq_true hlabel, fun j hj hother => ?_⟩
  have heq := (of_decide_eq_true hother).trans hlabel.symm
  have hji : j = i := h.getElem_inj_iff.1 heq
  omega

/-! ## What operations do to the declarations -/

/-- A declaration as it is kept: its node constraints get the numbers that come next. -/
def entered (s : Schema) (d : Declaration) : Declaration :=
  { d with expression := (d.expression.numbered s.nextConstraint).1 }

/-- A declaration goes to its place with its constraints numbered, and further constraints get later
numbers. -/
theorem addShape_eq (s : Schema) (d : Declaration) :
    s.addShape d = { s with
      declarations := placed (s.entered d) s.declarations
      nextConstraint := (d.expression.numbered s.nextConstraint).2 } := rfl

/-- Operations that add no declaration leave the declarations as they are. -/
theorem declarations_build_of_none {later : List Operation} (h : declared later = []) :
    (s.build later).declarations = s.declarations := by
  induction later generalizing s with
  | nil => rfl
  | cons o rest ih =>
    have hnone := List.filterMap_eq_nil_iff.1 h
    have hrest : declared rest = [] :=
      List.filterMap_eq_nil_iff.2 fun o' ho' => hnone o' (List.mem_cons_of_mem o ho')
    exact (ih hrest).trans (declarations_apply_of_none (hnone o List.mem_cons_self))

/-- An operation that does not declare a label leaves what the label stands for. -/
theorem find?_declarations_apply {o : Operation}
    (h : ∀ d, o.declaration? = some d → d.label ≠ label) :
    (s.apply o).declarations.find? (fun d => d.label = label) =
      s.declarations.find? fun d => d.label = label := by
  cases o with
  | addShape d =>
    show (placed (s.entered d) s.declarations).find? _ = _
    rw [find?_placed]
    exact if_neg (h d rfl)
  | _ => rfl

/-- A label that is not declared again stands for what it stood for. -/
theorem find?_declarations_build {later : List Operation}
    (h : ∀ d ∈ declared later, d.label ≠ label) :
    (s.build later).declarations.find? (fun d => d.label = label) =
      s.declarations.find? fun d => d.label = label := by
  induction later generalizing s with
  | nil => rfl
  | cons o rest ih =>
    have hhead : ∀ d, o.declaration? = some d → d.label ≠ label := by
      intro d hd
      exact h d (List.mem_filterMap.2 ⟨o, List.mem_cons_self, hd⟩)
    have hrest : ∀ d ∈ declared rest, d.label ≠ label := by
      intro d hd
      obtain ⟨o', ho', hd⟩ := List.mem_filterMap.1 hd
      exact h d (List.mem_filterMap.2 ⟨o', List.mem_cons_of_mem o ho', hd⟩)
    exact (ih hrest).trans (find?_declarations_apply hhead)

/-! ## What operations do to the numbers -/

/-- A label that is declared again stays where it is, and a new one comes last. -/
theorem labels_addShape (s : Schema) (d : Declaration) :
    (s.addShape d).declarations.map (·.label) =
      if d.label ∈ s.declarations.map (·.label) then s.declarations.map (·.label)
      else s.declarations.map (·.label) ++ [d.label] :=
  labels_placed (s.entered d) s.declarations

/-- A label that is declared again leaves all numbers as they are. -/
theorem declarationIndex?_addShape_of_known {d : Declaration}
    (h : d.label ∈ s.declarations.map (·.label)) (label : Label) :
    (s.addShape d).declarationIndex? label = s.declarationIndex? label := by
  rw [declarationIndex?_eq, labels_addShape, if_pos h, ← declarationIndex?_eq]

/-- A label that is new gets the next number. -/
theorem declarationIndex?_addShape_of_new {d : Declaration}
    (h : d.label ∉ s.declarations.map (·.label)) (label : Label) :
    (s.addShape d).declarationIndex? label =
      if d.label = label then some s.size else s.declarationIndex? label := by
  rw [declarationIndex?_eq, labels_addShape, if_neg h, List.findIdx?_append,
    ← declarationIndex?_eq]
  by_cases hl : d.label = label
  · subst hl
    simp [declarationIndex?_eq_none_iff.2 h, size]
  · simp [hl]

/-- A label that is declared has its old number, or the next one if it had none. -/
theorem declarationIndex?_addShape_self (s : Schema) (d : Declaration) :
    (s.addShape d).declarationIndex? d.label =
      some ((s.declarationIndex? d.label).getD s.size) := by
  cases h : s.declarationIndex? d.label with
  | some i =>
    rw [declarationIndex?_addShape_of_known (mem_labels_of_declarationIndex? h), h]
    rfl
  | none =>
    rw [declarationIndex?_addShape_of_new (declarationIndex?_eq_none_iff.1 h), if_pos rfl]
    rfl

/-- The labels stay where they are. -/
theorem prefix_labels_apply (s : Schema) (o : Operation) :
    s.declarations.map (·.label) <+: (s.apply o).declarations.map (·.label) := by
  cases o with
  | addShape d =>
    show _ <+: (s.addShape d).declarations.map _
    rw [labels_addShape]
    split
    · exact List.prefix_rfl
    · exact List.prefix_append _ _
  | _ => exact List.prefix_rfl

/-- However a schema is built on, its labels stay where they are. -/
theorem prefix_labels_build (s : Schema) (later : List Operation) :
    s.declarations.map (·.label) <+: (s.build later).declarations.map (·.label) := by
  induction later generalizing s with
  | nil => exact List.prefix_rfl
  | cons o rest ih => exact (prefix_labels_apply s o).trans (ih (s.apply o))

/-- A label that has a number keeps it. -/
theorem declarationIndex?_build (h : s.declarationIndex? label = some i)
    (later : List Operation) : (s.build later).declarationIndex? label = some i := by
  rw [declarationIndex?_eq] at h ⊢
  exact (prefix_labels_build s later).findIdx?_eq_some h

/-- The number of the declaration that an operation adds. -/
def numberOf? (s : Schema) (o : Operation) : Option Nat :=
  o.declaration?.bind fun d => s.declarationIndex? d.label

/-- What is done later does not change the number that a declaration was given. -/
theorem numberOf?_build (s : Schema) (o : Operation) (later : List Operation) :
    ((s.apply o).build later).numberOf? o = (s.apply o).numberOf? o := by
  cases o with
  | addShape d =>
    have hnumber := declarationIndex?_addShape_self s d
    exact (declarationIndex?_build hnumber later).trans hnumber.symm
  | _ => rfl

/-! ## The place of a declaration -/

/-- The declaration replaces the one at the first place of its label. -/
theorem placed_eq_set {d : Declaration} {ds : List Declaration}
    (h : (ds.map (·.label)).findIdx? (fun l => l = d.label) = some i) :
    placed d ds = ds.set i d := by
  induction ds generalizing i with
  | nil => cases h
  | cons e rest ih =>
    rw [List.map_cons, List.findIdx?_cons] at h
    unfold placed
    by_cases he : e.label = d.label
    · rw [if_pos (decide_eq_true he)] at h
      cases h
      exact if_pos he
    · rw [if_neg (by simpa using he)] at h
      obtain ⟨j, hj, rfl⟩ := Option.map_eq_some_iff.1 h
      rw [if_neg he, ih hj, List.set_cons_succ]

/-- A declaration of a new label comes last. -/
theorem placed_eq_concat {d : Declaration} {ds : List Declaration}
    (h : d.label ∉ ds.map (·.label)) : placed d ds = ds ++ [d] := by
  have hne : ∀ e ∈ ds, e.label ≠ d.label := fun e he heq =>
    h (heq ▸ List.mem_map_of_mem he)
  have happend : placed d (ds ++ []) = ds ++ placed d [] := placed_append hne
  rw [List.append_nil] at happend
  exact happend

/-! ## An index of the labels -/

/-- A schema with an index of its declarations beside it. -/
structure Indexed where
  schema : Schema
  /-- The number of each label. -/
  index : List (Label × Nat)

namespace Indexed

variable {a : Indexed}

/-- The empty schema with an empty index. -/
def empty : Indexed := ⟨.empty, []⟩

/-- Adds a declaration, and gives its number.  A label that has an entry in the index keeps its
number, and the declaration with this number is replaced; if there is none, nothing is given.  Any
other label gets the next number, and an entry. -/
def addShape? (a : Indexed) (d : Declaration) : Option (Nat × Indexed) :=
  let ds := a.schema.declarations
  let next := (d.expression.numbered a.schema.nextConstraint).2
  match a.index.lookup d.label with
  | some i =>
    if i < ds.length then
      let replaced := ds.set i (a.schema.entered d)
      some (i, ⟨{ a.schema with declarations := replaced, nextConstraint := next }, a.index⟩)
    else none
  | none =>
    let longer := ds ++ [a.schema.entered d]
    some (ds.length, ⟨{ a.schema with declarations := longer, nextConstraint := next },
      (d.label, ds.length) :: a.index⟩)

/-- The indexed schema behind an operation, and the number that a declaration gives. -/
def step? (a : Indexed) : Operation → Option (Option Nat × Indexed)
  | .addShape d => (a.addShape? d).map fun (number, a) => (some number, a)
  | o => some (none, { a with schema := a.schema.apply o })

/-- The indexed schema behind several operations, and what each of them gives. -/
def run? (a : Indexed) : List Operation → Option (List (Option Nat) × Indexed)
  | [] => some ([], a)
  | o :: rest =>
    match a.step? o with
    | none => none
    | some (number, a) => (a.run? rest).map fun (numbers, a) => (number :: numbers, a)

/-- The declaration with a label, and its number, if the label is looked up in the index. -/
def find? (a : Indexed) (label : Label) : Option (Nat × Declaration) :=
  match a.index.lookup label with
  | none => none
  | some i => (a.schema.declaration? i).map fun d => (i, d)

/-- The index says where the labels stand. -/
def Agrees (a : Indexed) : Prop :=
  ∀ label, a.index.lookup label = a.schema.declarationIndex? label

/-- The empty index is right, since there is no label to look up. -/
theorem agrees_empty : empty.Agrees := fun _ => rfl

/-- If the index is right, looking a label up in it finds what a search through all declarations
finds. -/
theorem Agrees.find?_eq (h : a.Agrees) (label : Label) : a.find? label = a.schema.find? label := by
  rw [Indexed.find?, h label]
  rfl

/-- With a right index, a label that is declared again replaces a declaration and gets no further
entry. -/
theorem addShape?_of_known {d : Declaration} (hd : a.index.lookup d.label = some i)
    (hi : a.schema.declarationIndex? d.label = some i) :
    a.addShape? d = some (i, ⟨a.schema.addShape d, a.index⟩) := by
  rw [declarationIndex?_eq] at hi
  have hlt : i < a.schema.declarations.length := by
    obtain ⟨hlt, -⟩ := List.findIdx?_eq_some_iff_getElem.1 hi
    simpa using hlt
  unfold addShape?
  rw [hd, addShape_eq, placed_eq_set (d := a.schema.entered d) hi]
  exact if_pos hlt

/-- With a right index, a label that is new comes last and gets an entry with its number. -/
theorem addShape?_of_new {d : Declaration} (hd : a.index.lookup d.label = none)
    (hnew : d.label ∉ a.schema.declarations.map (·.label)) :
    a.addShape? d =
      some (a.schema.size, ⟨a.schema.addShape d, (d.label, a.schema.size) :: a.index⟩) := by
  unfold addShape?
  rw [hd, addShape_eq, placed_eq_concat (d := a.schema.entered d) hnew]
  rfl

/-- The index leads to the place of a declaration, and says where the labels stand then. -/
theorem Agrees.addShape? (h : a.Agrees) (d : Declaration) :
    ∃ i index, a.addShape? d = some (i, ⟨a.schema.addShape d, index⟩) ∧
      (a.schema.addShape d).declarationIndex? d.label = some i ∧
      Agrees ⟨a.schema.addShape d, index⟩ := by
  cases hi : a.schema.declarationIndex? d.label with
  | some i =>
    have hknown := mem_labels_of_declarationIndex? hi
    refine ⟨i, a.index, addShape?_of_known ((h d.label).trans hi) hi, ?_, ?_⟩
    · rw [declarationIndex?_addShape_self, hi, Option.getD_some]
    · intro label
      rw [declarationIndex?_addShape_of_known hknown]
      exact h label
  | none =>
    have hnew := declarationIndex?_eq_none_iff.1 hi
    refine ⟨a.schema.size, _, addShape?_of_new ((h d.label).trans hi) hnew, ?_, ?_⟩
    · rw [declarationIndex?_addShape_self, hi, Option.getD_none]
    · intro label
      rw [declarationIndex?_addShape_of_new hnew, List.lookup_cons]
      by_cases hl : d.label = label
      · simp [hl]
      · have hne : (label == d.label) = false := by simpa using fun heq => hl heq.symm
        rw [hne, if_neg hl]
        exact h label

/-- Every operation can be done on an indexed schema; it gives the number of its declaration, and
the index is right behind it too. -/
theorem Agrees.step? (h : a.Agrees) (o : Operation) :
    ∃ index, a.step? o = some ((a.schema.apply o).numberOf? o, ⟨a.schema.apply o, index⟩) ∧
      Agrees ⟨a.schema.apply o, index⟩ := by
  cases o with
  | addShape d =>
    obtain ⟨i, index, hadd, hi, hagrees⟩ := h.addShape? d
    refine ⟨index, ?_, hagrees⟩
    show (a.addShape? d).map _ = some ((a.schema.addShape d).declarationIndex? d.label, _)
    rw [hadd, hi]
    rfl
  | _ => exact ⟨a.index, rfl, h⟩

/-- An index that is kept along with the declarations always leads to one, and says where the labels
stand.  The number that a declaration gives is the one that its label has at the end. -/
theorem run?_eq (h : a.Agrees) (operations : List Operation) :
    ∃ index, a.run? operations =
        some (operations.map (a.schema.build operations).numberOf?,
          ⟨a.schema.build operations, index⟩) ∧
      Agrees ⟨a.schema.build operations, index⟩ := by
  induction operations generalizing a with
  | nil => exact ⟨a.index, rfl, h⟩
  | cons o rest ih =>
    obtain ⟨index, happly, hagrees⟩ := h.step? o
    obtain ⟨index', hrun, hagrees'⟩ := ih hagrees
    refine ⟨index', ?_, hagrees'⟩
    simp only [run?, happly, hrun, Option.map_some, List.map_cons]
    rw [← numberOf?_build a.schema o rest]
    rfl

end Indexed

/-! ## Schemas that operations build -/

/-- What is declared in a schema that operations have built from the empty one. -/
structure DeclaredBy (operations : List Operation) (s : Schema) : Prop where
  /-- No two declarations have the same label. -/
  nodup : (s.declarations.map (·.label)).Nodup
  /-- The labels stand in the order in which they first came. -/
  labels : s.declarations.map (·.label) = ((declared operations).map (·.label)).eraseDups
  /-- There are as many declarations as different labels have been added. -/
  size_eq : s.size = ((declared operations).map (·.label)).toFinset.card
  /-- A label has a number if and only if it stands there. -/
  index_iff : ∀ label i,
    s.declarationIndex? label = some i ↔ (s.declaration? i).map (·.label) = some label
  /-- What was never declared is not found. -/
  unknown : ∀ label, s.find? label = none ↔ ∀ d ∈ declared operations, d.label ≠ label
  /-- A label, and its number, lead to the last declaration with the label. -/
  last : ∀ before d later, operations = before ++ .addShape d :: later →
    (∀ d' ∈ declared later, d'.label ≠ d.label) → ∃ i,
      s.find? d.label = some (i, (empty.build before).entered d) ∧
        s.declaration? i = some ((empty.build before).entered d)
  /-- A number stands for the same label from then on. -/
  lasting : ∀ later label i, s.declarationIndex? label = some i →
    (s.build later).declarationIndex? label = some i ∧
      ((s.build later).declaration? i).map (·.label) = some label
  /-- Operations that add no declaration change none. -/
  unchanged : ∀ later, declared later = [] → (s.build later).declarations = s.declarations
  /-- An index that was kept along says where the labels stand, and declarations are found by it.
  Each of them has given the number of its label when it was added. -/
  indexed : ∃ index, Indexed.empty.run? operations = some (operations.map s.numberOf?, ⟨s, index⟩) ∧
    (∀ label, index.lookup label = s.declarationIndex? label) ∧
      ∀ label, Indexed.find? ⟨s, index⟩ label = s.find? label

/-- However a schema is built from the empty one, no label stands twice. -/
theorem nodup_labels_build (operations : List Operation) :
    ((empty.build operations).declarations.map (·.label)).Nodup := by
  rw [labels_build rfl]
  exact nodup_eraseDups _

/-- The last declaration with a label is found. -/
theorem find?_last (s : Schema) (before : List Operation) {later : List Operation}
    {d : Declaration} (h : ∀ d' ∈ declared later, d'.label ≠ d.label) :
    ∃ i, (s.build (before ++ .addShape d :: later)).find? d.label =
      some (i, (s.build before).entered d) := by
  have hfound : ((s.build (before ++ .addShape d :: later)).find? d.label).map (·.2) =
      some ((s.build before).entered d) := by
    rw [map_find?, build_append]
    show (((s.build before).addShape d).build later).declarations.find? _ = _
    rw [find?_declarations_build h, addShape_eq, find?_placed]
    exact if_pos rfl
  obtain ⟨⟨i, d'⟩, hfind, rfl⟩ := Option.map_eq_some_iff.1 hfound
  exact ⟨i, hfind⟩

/-- Whatever operations build a schema, each label has one number, which it keeps, and stands for
the last declaration with it. -/
theorem declaredBy_build (operations : List Operation) :
    DeclaredBy operations (empty.build operations) where
  nodup := nodup_labels_build operations
  labels := labels_build rfl operations
  size_eq := by
    rw [size, ← List.length_map (·.label),
      ← List.toFinset_card_of_nodup (nodup_labels_build operations), labels_build rfl]
    congr 1
    ext label
    simp
  index_iff _ _ := declarationIndex?_eq_some_iff (nodup_labels_build operations)
  unknown label := by
    have hmem : label ∈ (empty.build operations).declarations.map (·.label) ↔
        label ∈ (declared operations).map (·.label) := by
      rw [labels_build rfl, List.mem_eraseDups]
    rw [find?_eq_none_iff]
    simpa using not_congr hmem
  last before d later heq h := by
    obtain ⟨i, hfind⟩ := find?_last empty before h
    rw [← heq] at hfind
    exact ⟨i, hfind, (find?_eq_some_iff.1 hfind).2⟩
  lasting later label i h := by
    have hlater := declarationIndex?_build h later
    refine ⟨hlater, ?_⟩
    rw [← build_append] at hlater ⊢
    exact (declarationIndex?_eq_some_iff (nodup_labels_build _)).1 hlater
  unchanged later h := declarations_build_of_none h
  indexed := by
    obtain ⟨index, hrun, hagrees⟩ := Indexed.run?_eq Indexed.agrees_empty operations
    exact ⟨index, hrun, hagrees, hagrees.find?_eq⟩

/-- Two labels, one of which is declared again behind other operations. -/
def redeclaring : List Operation :=
  [.addShape ⟨.iri ⟨"A"⟩, false, .node .any⟩, .addTripleExpression (.iri ⟨"A"⟩) (.ref (.iri ⟨"T"⟩)),
    .addShape ⟨.iri ⟨"B"⟩, false, .node .any⟩, .setStart (.node .any), .addImport ⟨"i"⟩,
    .addShape ⟨.iri ⟨"A"⟩, true, .node .any⟩, .addStartAct ⟨⟨"a"⟩, none⟩]

/-- The label that is declared again has its first number, and stands for the abstract declaration,
also behind a third label. -/
theorem declaredBy_build_redeclaring :
    (empty.build redeclaring).size = 2 ∧
      (∃ index, Indexed.empty.run? redeclaring = some
        ([some 0, none, some 1, none, none, some 0, none], ⟨empty.build redeclaring, index⟩)) ∧
      (empty.build redeclaring).find? (.iri ⟨"A"⟩) =
        some (0, ⟨.iri ⟨"A"⟩, true, .node { NodeConstraint.any with id := some 3 }⟩) ∧
      ((empty.build redeclaring).build [.addShape ⟨.iri ⟨"C"⟩, false, .external⟩]).declarationIndex?
        (.iri ⟨"A"⟩) = some 0 := by
  have h := declaredBy_build redeclaring
  obtain ⟨index, hrun, -⟩ := h.indexed
  have hfirst : (empty.build redeclaring).declarationIndex? (.iri ⟨"A"⟩) = some 0 :=
    (h.index_iff _ 0).2 rfl
  obtain ⟨i, hfind, -⟩ := h.last (redeclaring.take 5) ⟨.iri ⟨"A"⟩, true, .node .any⟩
    (redeclaring.drop 6) rfl nofun
  obtain rfl : 0 = i := Option.some.inj (hfirst.symm.trans (find?_eq_some_iff.1 hfind).1)
  exact ⟨h.size_eq.trans rfl, ⟨index, hrun⟩, hfind, (h.lasting _ _ 0 hfirst).1⟩

end ShEx.Schema
