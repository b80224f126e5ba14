import ShEx.Proofs.Correspondence
import ShEx.Proofs.Expansion
import ShEx.Proofs.PostOrder
import ShEx.Proofs.Redeclaration

/-!
# The labels of a schema document

Which labels a loaded schema knows, and what it knows them for (`indexedBy_of_load`).

The expressions of a document that carry a label are declared in post-order, and the entries of the
shapes list behind them (`exists_of_load`).  So a label of the shapes list stands for the last entry
with it, and any other label for the last expression with it inside of another one
(`Document.Declares`).
-/

set_option autoImplicit false

namespace ShEx

open ShEx.Rdf

/-! ## Corresponding lists -/

/-- Lists whose members correspond to each other end alike. -/
theorem rel_getLast? {α β : Type} {R : α → β → Prop} {xs : List α} {ys : List β}
    (h : List.Forall₂ R xs ys) : Option.Rel R xs.getLast? ys.getLast? := by
  have hreverse := List.forall₂_reverse_iff.2 h
  rw [← List.head?_reverse, ← List.head?_reverse]
  generalize xs.reverse = xs' at hreverse
  generalize ys.reverse = ys' at hreverse
  cases hreverse with
  | nil => exact .none
  | cons hlast _ => exact .some hlast

/-- What corresponds to a value is a value. -/
theorem exists_of_rel_some {α β : Type} {R : α → β → Prop} {x : Option α} {b : β}
    (h : Option.Rel R x (some b)) : ∃ a, x = some a ∧ R a b := by
  cases h with
  | some h => exact ⟨_, rfl, h⟩

/-- What corresponds has a value on both sides or on none. -/
theorem isSome_eq_of_rel {α β : Type} {R : α → β → Prop} {x : Option α} {y : Option β}
    (h : Option.Rel R x y) : x.isSome = y.isSome := by
  cases h <;> rfl

/-- Two correspondences one after the other make a third one. -/
theorem rel_through {α β γ : Type} {R : α → β → Prop} {S : β → γ → Prop} {T : α → γ → Prop}
    {x : Option α} {y : Option β} {z : Option γ} (h : Option.Rel R x y) (h' : Option.Rel S y z)
    (hT : ∀ a b c, R a b → S b c → T a c) : Option.Rel T x z := by
  cases h with
  | none =>
    cases h'
    exact .none
  | some hR =>
    cases h' with
    | some hS => exact .some (hT _ _ _ hR hS)

namespace ShExJ

/-! ## What a document declares -/

/-- The label of a shape expression, if its `id` gives one. -/
def ShapeEntry.label? (e : ShapeEntry) : Option Label :=
  e.id?.bind fun id => (resource id).toOption

/-- The label of a triple expression, if its `id` gives one. -/
def TripleEntry.label? (e : TripleEntry) : Option Label :=
  e.id?.bind fun id => (resource id).toOption

/-- Is an entry an abstract declaration? -/
def ShapeEntry.isAbstract : ShapeEntry → Bool
  | .declaration _ isAbstract _ => isAbstract
  | _ => false

/-- The expression that an entry of the shapes list declares. -/
def ShapeEntry.declared : ShapeEntry → ShapeEntry
  | .declaration _ _ e => e
  | e => e

/-- The last of several shape expressions with a label. -/
def lastShape? (es : List ShapeEntry) (label : Label) : Option ShapeEntry :=
  (es.filter fun e => e.label? = some label).getLast?

/-- The last of several triple expressions with a label. -/
def lastTriple? (es : List TripleEntry) (label : Label) : Option TripleEntry :=
  (es.filter fun e => e.label? = some label).getLast?

namespace Document

/-- What a label stands for: the last entry of the shapes list with this label, and if there is none
the last expression inside of another one with it, which is not abstract. -/
inductive Declares (d : Document) (label : Label) : Bool → ShapeExpr → Prop
  | listed {e : ShapeEntry} {x : ShapeExpr} (h : lastShape? d.shapes label = some e)
      (hx : e.declared.expression = .ok x) : Declares d label e.isAbstract x
  | inline {e : ShapeEntry} {x : ShapeExpr} (hnone : lastShape? d.shapes label = none)
      (h : lastShape? d.inlineShapes label = some e) (hx : e.expression = .ok x) :
      Declares d label false x

/-- A schema knows the labels of a document for what the document says that they stand for. -/
structure IndexedBy (d : Document) (s : Schema) : Prop where
  /-- Declared are the labels of the shape expressions in the document. -/
  isSome_find?_iff : ∀ label, (s.find? label).isSome ↔
    ∃ e, d.Contains (.shape e) ∧ e.label? = some label
  /-- A declaration is what its label stands for, with node constraints that have got numbers. -/
  declares : ∀ label index decl, s.find? label = some (index, decl) →
    ∃ x n, d.Declares label decl.isAbstract x ∧ decl.expression = (x.numbered n).1
  /-- Known for triple expressions are the labels of those in the document. -/
  isSome_tripleExpression?_iff : ∀ label, (s.tripleExpression? label).isSome ↔
    ∃ e, d.Contains (.triple e) ∧ e.label? = some label
  /-- A triple expression is the last one with its label, with node constraints that have got
  numbers. -/
  last_triple : ∀ label te, s.tripleExpression? label = some te → ∃ e x n,
    lastTriple? d.tripleEntries label = some e ∧ e.expression = .ok x ∧ te = (x.numbered n).1
  /-- The declarations stand in the order in which their labels first come, those inside of other
  expressions before the shapes list. -/
  labels : s.declarations.map (·.label) =
    (d.inlineShapes.filterMap ShapeEntry.label? ++
      d.shapes.filterMap ShapeEntry.label?).eraseDups

end Document

/-! ## What becomes of labelled expressions -/

/-- The labelled expressions of a list correspond to what is made of them, if the label of each one
counts. -/
theorem forall₂_of_underId {E D : Type} {id? : E → Option String} {S : String × E → D → Prop}
    {R : E → D → Prop} {p : E → Bool} {es : List E} {ds : List D}
    (h : List.Forall₂ S (es.flatMap fun e => (id? e |>.map (·, e)).toList) ds)
    (hnone : ∀ e, id? e = none → p e = false)
    (hsome : ∀ id e d, id? e = some id → S (id, e) d → p e = true ∧ R e d) :
    List.Forall₂ R (es.filter p) ds := by
  induction es generalizing ds with
  | nil =>
    cases h
    exact .nil
  | cons e rest ih =>
    rw [List.flatMap_cons] at h
    cases hid : id? e with
    | none =>
      rw [hid] at h
      rw [List.filter_cons_of_neg (by simp [hnone e hid])]
      exact ih h
    | some id =>
      rw [hid] at h
      obtain _ | ⟨hd, hds⟩ := h
      obtain ⟨hp, hR⟩ := hsome id e _ hid hd
      rw [List.filter_cons_of_pos hp]
      exact .cons hR (ih hds)

/-- A declaration says what an entry of the shapes list says. -/
structure Listed (e : ShapeEntry) (d : Declaration) : Prop where
  label : e.label? = some d.label
  isAbstract : d.isAbstract = e.isAbstract
  expression : e.declared.expression = .ok d.expression

/-- A declaration says what a labelled expression inside another one says. -/
structure Inline (e : ShapeEntry) (d : Declaration) : Prop where
  label : e.label? = some d.label
  isAbstract : d.isAbstract = false
  expression : e.expression = .ok d.expression

/-- A labelled triple expression says what an entry says. -/
structure LabelledAs (e : TripleEntry) (entry : Label × TripleExpr) : Prop where
  label : e.label? = some entry.1
  expression : e.expression = .ok entry.2

/-- An entry of the shapes list that is loaded becomes a declaration that says the same, whatever
kind of expression it is. -/
theorem listed_of_toDeclaration {e : ShapeEntry} {d : Declaration} (h : e.toDeclaration = .ok d) :
    Listed e d := by
  cases e with
  | reference => cases h
  | declaration id isAbstract e =>
    obtain ⟨label, hlabel, h⟩ := exists_of_bind_eq_ok h
    obtain ⟨x, hx, h⟩ := exists_of_bind_eq_ok h
    cases h
    refine ⟨?_, rfl, hx⟩
    show (resource id).toOption = _
    rw [hlabel]
    rfl
  | or id | and id | not id | node id | shape id | external id =>
    obtain ⟨label, hlabel, h⟩ := exists_of_bind_eq_ok h
    cases id with
    | none =>
      cases hlabel
      cases h
    | some id =>
      obtain ⟨l, hl, hlabel⟩ := exists_of_bind_eq_ok hlabel
      cases hlabel
      obtain ⟨x, hx, h⟩ := exists_of_bind_eq_ok h
      cases h
      refine ⟨?_, rfl, hx⟩
      show (resource id).toOption = _
      rw [hl]
      rfl

/-- A labelled expression inside another one becomes a declaration that is not abstract and says the
same. -/
theorem inline_of_inlineDeclaration {id : String} {e : ShapeEntry} {d : Declaration}
    (hid : e.id? = some id) (h : inlineDeclaration (id, e) = .ok d) : Inline e d := by
  obtain ⟨label, hlabel, h⟩ := exists_of_bind_eq_ok h
  obtain ⟨x, hx, h⟩ := exists_of_bind_eq_ok h
  cases h
  refine ⟨?_, rfl, hx⟩
  rw [ShapeEntry.label?, hid, Option.bind_some, hlabel]
  rfl

/-- A labelled triple expression keeps its label and its meaning. -/
theorem labelledAs_of_labelledTriple {id : String} {e : TripleEntry} {entry : Label × TripleExpr}
    (hid : e.id? = some id) (h : labelledTriple (id, e) = .ok entry) : LabelledAs e entry := by
  obtain ⟨label, hlabel, h⟩ := exists_of_bind_eq_ok h
  obtain ⟨x, hx, h⟩ := exists_of_bind_eq_ok h
  cases h
  refine ⟨?_, hx⟩
  rw [TripleEntry.label?, hid, Option.bind_some, hlabel]
  rfl

/-- How a loaded schema comes about: the labelled expressions are declared first, the entries of the
shapes list behind them. -/
theorem exists_of_load {d : Document} {s : Schema} (h : d.load = .ok s) :
    ∃ base inline listed triples, base.declarations = [] ∧ base.tripleExpressions = [] ∧
      List.Forall₂ Inline (d.inlineShapes.filter fun e => e.label?.isSome) inline ∧
      List.Forall₂ Listed d.shapes listed ∧
      List.Forall₂ LabelledAs (d.tripleEntries.filter fun e => e.label?.isSome) triples ∧
      s = ((inline ++ listed).foldl Schema.addShape base).withTriples triples := by
  unfold Document.load at h
  obtain ⟨imports, -, h⟩ := exists_of_bind_eq_ok h
  obtain ⟨startActs, -, h⟩ := exists_of_bind_eq_ok h
  obtain ⟨listed, hlisted, h⟩ := exists_of_bind_eq_ok h
  obtain ⟨start, -, h⟩ := exists_of_bind_eq_ok h
  obtain ⟨inline, hinline, h⟩ := exists_of_bind_eq_ok h
  obtain ⟨triples, htriples, h⟩ := exists_of_bind_eq_ok h
  cases h
  refine ⟨_, inline, listed, triples, ?_, ?_, ?_, ?_, ?_, rfl⟩
  · cases start <;> rfl
  · cases start <;> rfl
  · rw [Document.labelled_eq] at hinline
    refine forall₂_of_underId (mapM_eq_ok_iff.1 hinline) (fun e hid => ?_)
      fun id e d hid hd => ?_
    · rw [ShapeEntry.label?, hid]
      rfl
    · have hR := inline_of_inlineDeclaration hid hd
      exact ⟨by rw [hR.label]; rfl, hR⟩
  · exact (mapM_eq_ok_iff.1 hlisted).imp fun _ _ => listed_of_toDeclaration
  · rw [Document.labelledTriples_eq] at htriples
    refine forall₂_of_underId (mapM_eq_ok_iff.1 htriples) (fun e hid => ?_)
      fun id e d hid hd => ?_
    · rw [TripleEntry.label?, hid]
      rfl
    · have hR := labelledAs_of_labelledTriple hid hd
      exact ⟨by rw [hR.label]; rfl, hR⟩

section

variable {E D : Type} {R : E → D → Prop} {labelE : E → Option Label} {labelD : D → Label}
  {es : List E} {ds : List D}

/-- Corresponding lists carry the same labels. -/
theorem filterMap_label_eq (h : List.Forall₂ R es ds)
    (hR : ∀ e d, R e d → labelE e = some (labelD d)) : es.filterMap labelE = ds.map labelD := by
  induction h with
  | nil => rfl
  | cons h _ ih => rw [List.filterMap_cons_some (hR _ _ h), List.map_cons, ih]

/-- The last members with a label correspond to each other. -/
theorem rel_last (h : List.Forall₂ R es ds) (hR : ∀ e d, R e d → labelE e = some (labelD d))
    (label : Label) : Option.Rel R (es.filter fun e => labelE e = some label).getLast?
      (ds.filter fun d => labelD d = label).getLast? := by
  refine rel_getLast? (List.rel_filter (fun e d hed => ?_) h)
  simp [hR e d hed]

/-- What has no label does not count for the labels of a list. -/
theorem filterMap_filter_isSome (es : List E) :
    (es.filter fun e => (labelE e).isSome).filterMap labelE = es.filterMap labelE := by
  induction es with
  | nil => rfl
  | cons e rest ih => cases h : labelE e <;> simp [h, ih]

/-- What has no label does not count for the members with a label. -/
theorem filter_filter_isSome (es : List E) (label : Label) :
    ((es.filter fun e => (labelE e).isSome).filter fun e => labelE e = some label) =
      es.filter fun e => labelE e = some label := by
  rw [List.filter_filter]
  refine List.filter_congr fun e _ => ?_
  cases labelE e <;> simp

end

/-! ## The labels of a loaded schema -/

section

variable {d : Document} {s : Schema} (h : d.load = .ok s)
include h

/-- The declarations stand in the order in which their labels first come, those inside of other
expressions before the shapes list. -/
theorem labels_of_load : s.declarations.map (·.label) =
    (d.inlineShapes.filterMap ShapeEntry.label? ++
      d.shapes.filterMap ShapeEntry.label?).eraseDups := by
  obtain ⟨base, inline, listed, triples, hbase, -, hinline, hlisted, -, rfl⟩ := exists_of_load h
  rw [Schema.declarations_withTriples, Schema.labels_foldl_addShape hbase, List.map_append,
    ← filterMap_label_eq hinline fun _ _ => Inline.label, filterMap_filter_isSome,
    ← filterMap_label_eq hlisted fun _ _ => Listed.label]

/-- The labels that are declared are those of the shape expressions in the document. -/
theorem isSome_find?_iff (label : Label) :
    (s.find? label).isSome ↔ ∃ e, d.Contains (.shape e) ∧ e.label? = some label := by
  have hmem : (s.find? label).isSome ↔ label ∈ s.declarations.map (·.label) := by
    rw [← Option.isSome_map (f := (·.2)), Schema.map_find?, List.find?_isSome, List.mem_map]
    simp
  rw [hmem, labels_of_load h, List.mem_eraseDups, ← List.filterMap_append, List.mem_filterMap]
  simp only [Document.contains_shape_iff]

/-- What a label is found to stand for is the last entry with it: shapes of the list come after
those inside other expressions, and the last one replaces the ones before. -/
theorem declares_of_find? {label : Label} {index : Nat} {decl : Declaration}
    (hfind : s.find? label = some (index, decl)) :
    ∃ x n, d.Declares label decl.isAbstract x ∧ decl.expression = (x.numbered n).1 := by
  obtain ⟨base, inline, listed, triples, hbase, -, hinline, hlisted, -, rfl⟩ := exists_of_load h
  have hkept := Schema.rel_getLast?_foldl_addShape hbase (inline ++ listed) label
  have hfound := Schema.map_find? (((inline ++ listed).foldl Schema.addShape base).withTriples
    triples) label
  rw [hfind, Schema.declarations_withTriples] at hfound
  rw [← hfound, List.filter_append, List.getLast?_append] at hkept
  have hlisted := rel_last hlisted (fun _ _ => Listed.label) label
  have hinline := rel_last hinline (fun _ _ => Inline.label) label
  rw [filter_filter_isSome] at hinline
  cases hlast : (listed.filter fun d => d.label = label).getLast? with
  | some d' =>
    rw [hlast] at hkept hlisted
    obtain ⟨_, heq, n, hn⟩ := exists_of_rel_some hkept
    cases heq
    cases hn
    obtain ⟨e, he, hR⟩ := exists_of_rel_some hlisted
    exact ⟨_, n, hR.isAbstract ▸ .listed he hR.expression, rfl⟩
  | none =>
    rw [hlast] at hkept hlisted
    obtain ⟨d', hd', n, hn⟩ := exists_of_rel_some hkept
    cases hn
    rw [Option.none_or] at hd'
    rw [hd'] at hinline
    obtain ⟨e, he, hR⟩ := exists_of_rel_some hinline
    have hnone : lastShape? d.shapes label = none :=
      Option.not_isSome_iff_eq_none.1 (isSome_eq_of_rel hlisted ▸ nofun)
    exact ⟨_, n, hR.isAbstract ▸ .inline hnone he hR.expression, rfl⟩

/-- A label stands for the last triple expression with it. -/
theorem rel_lastTriple? (label : Label) :
    Option.Rel (fun e te => ∃ x n, e.expression = .ok x ∧ te = (x.numbered n).1)
      (lastTriple? d.tripleEntries label) (s.tripleExpression? label) := by
  obtain ⟨base, inline, listed, triples, -, hbase, -, -, htriples, rfl⟩ := exists_of_load h
  have hbase : ((inline ++ listed).foldl Schema.addShape base).tripleExpressions = [] :=
    (Schema.tripleExpressions_foldl_addShape _ _).trans hbase
  have hkept := Schema.rel_tripleExpression?_withTriples hbase triples label
  have hlast := rel_last htriples (fun _ _ => LabelledAs.label) label
  rw [filter_filter_isSome] at hlast
  exact rel_through hlast hkept fun e entry te hR ⟨n, hn⟩ => ⟨entry.2, n, hR.expression, hn⟩

/-- The labels of triple expressions that are known are those in the document. -/
theorem isSome_tripleExpression?_iff (label : Label) :
    (s.tripleExpression? label).isSome ↔ ∃ e, d.Contains (.triple e) ∧ e.label? = some label := by
  rw [← isSome_eq_of_rel (rel_lastTriple? h label), lastTriple?, List.getLast?_filter,
    List.find?_isSome]
  simp [Document.contains_triple_iff]

end

/-- A document in which a label comes again: inside an expression, in the shapes list, and at the
start expression. -/
def repeatedLabels : List Json.Symbol :=
  let text :=
    "\x7b\"shapes\":[" ++
      "\x7b\"type\":\"ShapeNot\",\"id\":\"_:a\",\"shapeExpr\":" ++
        "\x7b\"type\":\"ShapeExternal\",\"id\":\"_:b\"\x7d\x7d," ++
      "\x7b\"type\":\"Shape\",\"id\":\"_:b\",\"expression\":" ++
        "\x7b\"type\":\"TripleConstraint\",\"id\":\"_:t\",\"predicate\":\"a:p\"\x7d\x7d]," ++
      "\"start\":\x7b\"type\":\"ShapeAnd\",\"id\":\"_:b\",\"shapeExprs\":[]\x7d\x7d"
  text.toList.map some

/-- A document that loads gives a schema that knows its labels. -/
theorem indexedBy_of_load {text : List Json.Symbol} {s : Schema} (h : load text = .ok s) :
    ∃ d, Document.ofText? text = some d ∧ d.IndexedBy s := by
  unfold load at h
  split at h
  · cases h
  · next d hd =>
    refine ⟨d, hd, isSome_find?_iff h, fun _ _ _ => declares_of_find? h,
      isSome_tripleExpression?_iff h, fun label te hte => ?_, labels_of_load h⟩
    obtain ⟨e, he, x, n, hx, hn⟩ := exists_of_rel_some (hte ▸ rel_lastTriple? h label)
    exact ⟨e, x, n, he, hx, hn⟩

/-- The document with repeated labels loads. -/
theorem indexedBy_of_load_repeatedLabels : ∃ s, load repeatedLabels = .ok s ∧
    ∃ d, Document.ofText? repeatedLabels = some d ∧ d.IndexedBy s := by
  have hloads : (load repeatedLabels).toOption.isSome = true := by decide +kernel
  cases h : load repeatedLabels with
  | error e =>
    rw [h] at hloads
    cases hloads
  | ok s => exact ⟨s, rfl, indexedBy_of_load h⟩

end ShExJ

end ShEx
