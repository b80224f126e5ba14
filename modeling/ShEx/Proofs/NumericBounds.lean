import ShEx.Proofs.Origins
import ShEx.Proofs.WrittenNumbers

/-!
# The bounds of a document are numbers

A bound of a node constraint is read off a number of the JSON text, by what is written for that
number, and this is always a word of the grammar of doubles.  So no part of a document that can be
read at all is refused for its numbers (`load_ne_invalidNumber`): reading puts only such texts into
node constraints, wherever they stand (`Document.numbered_of_ofText?`), and loading fails at a
number only if there is another text in one of them (`Entry.Numbered.numbersRead`).
-/

set_option autoImplicit false

namespace ShEx.ShExJ

open ShEx.Datatype ShEx.Json

/-! ## Loading without failure at a number -/

/-- The attempt does not fail at a number. -/
def NumbersRead {α : Type} (x : Except LoadError α) : Prop :=
  ∀ text, x ≠ .error (.invalidNumber text)

namespace NumbersRead

variable {α β : Type}

/-- Where nothing fails, nothing fails at a number. -/
theorem ok (a : α) : NumbersRead (.ok a) := nofun

/-- A fault of the schema is no failure at a number. -/
theorem invalidSchema (fault : SchemaFault) :
    NumbersRead (.error (.invalidSchema fault) : Except LoadError α) := nofun

/-- Two attempts one after the other fail at a number only where one of them does. -/
theorem bind {x : Except LoadError α} {f : α → Except LoadError β} (hx : NumbersRead x)
    (hf : ∀ a, NumbersRead (f a)) : NumbersRead (x >>= f) := by
  cases x with
  | error failure =>
    intro text h
    cases h
    exact hx text rfl
  | ok a => exact hf a

/-- What is made of a result does not matter for failures. -/
theorem map {x : Except LoadError α} (hx : NumbersRead x) (f : α → β) : NumbersRead (x.map f) := by
  cases x with
  | error failure =>
    intro text h
    cases h
    exact hx text rfl
  | ok a => exact ok (f a)

/-- Loading the items of a list fails at a number only where loading one of them does. -/
theorem mapM {f : α → Except LoadError β} {xs : List α} (h : ∀ x ∈ xs, NumbersRead (f x)) :
    NumbersRead (xs.mapM f) := by
  induction xs with
  | nil => exact ok []
  | cons x rest ih =>
    rw [List.mapM_cons]
    refine bind (h x List.mem_cons_self) fun y => bind (ih fun x' hx' => ?_) fun ys => ok _
    exact h x' (List.mem_cons_of_mem x hx')

/-- Loading what may be missing fails at a number only where loading it does. -/
theorem option_mapM {f : α → Except LoadError β} {x : Option α} (h : ∀ a ∈ x, NumbersRead (f a)) :
    NumbersRead (x.mapM f) := by
  cases x with
  | none => exact ok none
  | some a => exact (h a rfl).bind fun b => ok (some b)

end NumbersRead

/-- An IRI is refused for its text. -/
theorem numbersRead_iri (text : String) : NumbersRead (iri text) := by
  unfold iri
  split
  · exact .ok _
  · exact nofun

/-- A resource is refused for its text. -/
theorem numbersRead_resource (text : String) : NumbersRead (resource text) := by
  unfold resource
  split
  · split
    · exact .ok _
    · exact nofun
  · exact (numbersRead_iri text).map _

/-- A literal is refused for its datatype or its language. -/
theorem numbersRead_toLiteral (l : LiteralEntry) : NumbersRead l.toLiteral := by
  unfold LiteralEntry.toLiteral
  split
  · dsimp only
    split
    · exact .ok _
    · exact nofun
  · exact (numbersRead_iri _).map _
  · exact .ok _

/-- A semantic action is refused for its name. -/
theorem numbersRead_action (a : ActEntry) : NumbersRead a.action :=
  (numbersRead_iri a.name).bind fun _ => .ok _

/-- A cardinality is refused as one; its bounds are integers already. -/
theorem numbersRead_cardinality (min max : Option Int) : NumbersRead (cardinality min max) := by
  unfold cardinality
  dsimp only
  split
  · exact nofun
  · split
    · exact .ok _
    · exact nofun

/-- A value of a value set is refused for an IRI or a literal in it. -/
theorem numbersRead_toValue (v : ValueEntry) : NumbersRead v.toValue := by
  cases v with
  | iri text => exact (numbersRead_iri text).bind fun _ => .ok _
  | literal l => exact (numbersRead_toLiteral l).bind fun _ => .ok _
  | stem value => exact .ok value

/-- A label is refused for its text. -/
theorem numbersRead_labelOf? (id : Option String) : NumbersRead (labelOf? id) :=
  .option_mapM fun text _ => numbersRead_resource text

/-! ## Node constraints -/

/-- The text of a number of a JSON text is read as a number. -/
theorem number_eq_ok {v : Json} {text : String} (h : numberText? v = some text) :
    ∃ n, number text = .ok n := by
  obtain ⟨q, hq⟩ := exists_denotesNumber_of_numberText? h
  have hsome := (numericLiteral_parse?_isSome_iff text).2 (isDouble_iff_denotes.2 (.inr ⟨q, hq⟩))
  obtain ⟨n, hn⟩ := Option.isSome_iff_exists.1 hsome
  refine ⟨n, ?_⟩
  simp only [number, hn]

namespace NodeEntry

/-- The bounds of a node constraint, as they are written. -/
def bounds (c : NodeEntry) : List String :=
  c.minInclusive.toList ++ c.minExclusive.toList ++ c.maxInclusive.toList ++ c.maxExclusive.toList

/-- The bounds of a node constraint are written for numbers of a JSON text. -/
def Numbered (c : NodeEntry) : Prop := ∀ text ∈ c.bounds, ∃ v, numberText? v = some text

/-- A bound that is written for a number becomes a facet, and one that is missing becomes none. -/
theorem numbersRead_bound (facet : NumericLiteral → NumericFacet) {text : Option String}
    (h : ∀ t ∈ text, ∃ v, numberText? v = some t) : ∃ facets, bound facet text = .ok facets := by
  cases text with
  | none => exact ⟨[], rfl⟩
  | some t =>
    obtain ⟨v, hv⟩ := h t rfl
    obtain ⟨n, hn⟩ := number_eq_ok hv
    refine ⟨[facet n], ?_⟩
    rw [bound, hn]
    rfl

/-- Such bounds become facets. -/
theorem Numbered.numericFacets {c : NodeEntry} (h : c.Numbered) :
    ∃ facets, c.numericFacets = .ok facets := by
  have hmem : ∀ text, (text ∈ c.minInclusive ∨ text ∈ c.minExclusive ∨ text ∈ c.maxInclusive ∨
      text ∈ c.maxExclusive) → ∃ v, numberText? v = some text := by
    intro text htext
    refine h text ?_
    simp only [bounds, List.mem_append, Option.mem_toList]
    tauto
  obtain ⟨a, ha⟩ := numbersRead_bound .minInclusive fun t ht => hmem t (.inl ht)
  obtain ⟨b, hb⟩ := numbersRead_bound .minExclusive fun t ht => hmem t (.inr (.inl ht))
  obtain ⟨c', hc⟩ := numbersRead_bound .maxInclusive fun t ht => hmem t (.inr (.inr (.inl ht)))
  obtain ⟨d, hd⟩ := numbersRead_bound .maxExclusive fun t ht => hmem t (.inr (.inr (.inr ht)))
  simp only [NodeEntry.numericFacets, ha, hb, hc, hd]
  exact ⟨_, rfl⟩

/-- A node constraint fails at no number if its bounds are written for numbers. -/
theorem Numbered.numbersRead {c : NodeEntry} (h : c.Numbered) : NumbersRead c.expression := by
  obtain ⟨facets, hfacets⟩ := h.numericFacets
  refine .bind (.option_mapM fun text _ => numbersRead_iri text) fun datatype => ?_
  rw [hfacets]
  refine .bind (.ok facets) fun numbers => ?_
  split
  · exact .ok _
  · exact .bind (.mapM fun v _ => numbersRead_toValue v) fun _ => .ok _

end NodeEntry

/-! ## Expressions -/

namespace Entry

/-- The bounds of the node constraints in an expression are written for numbers. -/
def Numbered (e : Entry) : Prop := ∀ id c, Within (.shape (.node id c)) e → c.Numbered

/-- What is part of an expression has no other node constraints. -/
theorem Numbered.part {e part : Entry} (h : e.Numbered) (hpart : part ∈ e.parts) :
    part.Numbered := fun id c hc => h id c (.head hpart hc)

/-- Loading an expression does not fail at a number. -/
def NumbersRead : Entry → Prop
  | .shape e => ShExJ.NumbersRead e.expression
  | .triple e => ShExJ.NumbersRead e.expression

/-- Operands are loaded one by one. -/
theorem numbersRead_shapes {es : List ShapeEntry} (h : ∀ e ∈ es, (Entry.shape e).NumbersRead) :
    ShExJ.NumbersRead (ShapeEntry.expressions es) := by
  rw [ShapeEntry.expressions_eq]
  exact .mapM h

/-- Members are loaded one by one. -/
theorem numbersRead_triples {es : List TripleEntry}
    (h : ∀ e ∈ es, (Entry.triple e).NumbersRead) :
    ShExJ.NumbersRead (TripleEntry.expressions es) := by
  rw [TripleEntry.expressions_eq]
  exact .mapM h

/-- A shape fails at a number only where its triple expression does. -/
theorem numbersRead_toShape {body : ShapeBody}
    (h : ∀ e ∈ body.expression, (Entry.triple e).NumbersRead) :
    ShExJ.NumbersRead body.toShape := by
  obtain ⟨closed, extra, expression, extended, restricted, acts⟩ := body
  rw [ShapeBody.toShape]
  refine .bind (.mapM fun text _ => numbersRead_iri text) fun extra => ?_
  have hrest : ∀ te : Option TripleExpr, ShExJ.NumbersRead (do
      let extended ← extended.mapM resource
      let restricted ← restricted.mapM resource
      let acts ← acts.mapM ActEntry.action
      pure (⟨closed, extra, te, extended, restricted, acts⟩ : Shape)) := by
    intro te
    refine .bind (.mapM fun text _ => numbersRead_resource text) fun _ => ?_
    refine .bind (.mapM fun text _ => numbersRead_resource text) fun _ => ?_
    exact .bind (.mapM fun a _ => numbersRead_action a) fun _ => .ok _
  cases expression with
  | none => exact hrest none
  | some e =>
    have he : ShExJ.NumbersRead e.expression := h e rfl
    exact he.bind fun te => hrest (some te)

/-- A group fails at a number only where one of its members does. -/
theorem numbersRead_toGroup {g : GroupBody}
    (h : ∀ e ∈ g.members, (Entry.triple e).NumbersRead) : ShExJ.NumbersRead g.toGroup := by
  obtain ⟨members, min, max, acts⟩ := g
  rw [GroupBody.toGroup]
  refine (numbersRead_triples h).bind fun members => ?_
  have hrest : ∀ bounds : Option Cardinality, ShExJ.NumbersRead (do
      let acts ← acts.mapM ActEntry.action
      pure (⟨members, bounds, acts⟩ : TripleGroup)) := by
    intro bounds
    exact .bind (.mapM fun a _ => numbersRead_action a) fun _ => .ok _
  dsimp only
  split
  · exact hrest none
  · exact (numbersRead_cardinality min max).bind fun bounds => hrest (some bounds)

/-- A triple constraint fails at a number only where its value expression does. -/
theorem numbersRead_toConstraint {t : TripleBody}
    (h : ∀ e ∈ t.value, (Entry.shape e).NumbersRead) : ShExJ.NumbersRead t.toConstraint := by
  obtain ⟨inverse, predicate, value, min, max, acts⟩ := t
  rw [TripleBody.toConstraint]
  refine (numbersRead_iri predicate).bind fun predicate => ?_
  have hrest : ∀ value : Option ShapeExpr, ShExJ.NumbersRead (do
      let bounds ← cardinality min max
      let acts ← acts.mapM ActEntry.action
      pure (⟨predicate, inverse, value, bounds, acts⟩ : TripleConstraint)) := by
    intro value
    refine (numbersRead_cardinality min max).bind fun _ => ?_
    exact .bind (.mapM fun a _ => numbersRead_action a) fun _ => .ok _
  cases value with
  | none => exact hrest none
  | some e =>
    have he : ShExJ.NumbersRead e.expression := h e rfl
    exact he.bind fun value => hrest (some value)

/-- An expression whose bounds are written for numbers does not fail at a number. -/
theorem Numbered.numbersRead {e : Entry} (h : e.Numbered) : e.NumbersRead := by
  induction e using postOrder.induct with
  | case1 e ih =>
    -- The parts are read by induction, and each conversion is a chain of binds over them.
    have hparts : ∀ part ∈ e.parts, part.NumbersRead := by
      intro part hpart
      exact ih ⟨part, hpart⟩ (h.part hpart)
    cases e with
    | shape e =>
      cases e with
      | reference label =>
        simp only [NumbersRead, ShapeEntry.expression]
        exact (numbersRead_resource label).bind fun _ => .ok _
      | or id operands =>
        simp only [NumbersRead, ShapeEntry.expression]
        refine (numbersRead_labelOf? id).bind fun _ => (numbersRead_shapes ?_).bind fun _ => .ok _
        exact fun e he => hparts _ (List.mem_map_of_mem he)
      | and id operands =>
        simp only [NumbersRead, ShapeEntry.expression]
        refine (numbersRead_labelOf? id).bind fun _ => (numbersRead_shapes ?_).bind fun _ => .ok _
        exact fun e he => hparts _ (List.mem_map_of_mem he)
      | not id operand =>
        have hoperand : ShExJ.NumbersRead operand.expression :=
          hparts (.shape operand) List.mem_cons_self
        simp only [NumbersRead, ShapeEntry.expression]
        exact (numbersRead_labelOf? id).bind fun _ => hoperand.bind fun _ => .ok _
      | node id c =>
        simp only [NumbersRead, ShapeEntry.expression]
        exact (numbersRead_labelOf? id).bind fun _ => (h id c .refl).numbersRead
      | shape id body =>
        simp only [NumbersRead, ShapeEntry.expression]
        refine (numbersRead_labelOf? id).bind fun _ => (numbersRead_toShape ?_).bind fun _ => .ok _
        intro e he
        refine hparts _ (Option.mem_toList.2 ?_)
        exact Option.mem_map_of_mem Entry.triple he
      | external id =>
        simp only [NumbersRead, ShapeEntry.expression]
        exact (numbersRead_labelOf? id).bind fun _ => .ok _
      | declaration id isAbstract e =>
        simp only [NumbersRead, ShapeEntry.expression]
        exact (numbersRead_resource id).bind fun _ => .invalidSchema _
    | triple e =>
      cases e with
      | reference label =>
        simp only [NumbersRead, TripleEntry.expression]
        exact (numbersRead_resource label).bind fun _ => .ok _
      | eachOf id g =>
        simp only [NumbersRead, TripleEntry.expression]
        refine (numbersRead_labelOf? id).bind fun _ => (numbersRead_toGroup ?_).bind fun _ => .ok _
        exact fun e he => hparts _ (List.mem_map_of_mem he)
      | oneOf id g =>
        simp only [NumbersRead, TripleEntry.expression]
        refine (numbersRead_labelOf? id).bind fun _ => (numbersRead_toGroup ?_).bind fun _ => .ok _
        exact fun e he => hparts _ (List.mem_map_of_mem he)
      | triple id t =>
        simp only [NumbersRead, TripleEntry.expression]
        refine (numbersRead_labelOf? id).bind fun _ =>
          (numbersRead_toConstraint ?_).bind fun _ => .ok _
        intro e he
        refine hparts _ (Option.mem_toList.2 ?_)
        exact Option.mem_map_of_mem Entry.shape he

end Entry

/-! ## Reading node constraints -/

/-- A node constraint is read with bounds that are written for numbers. -/
theorem numbered_of_node? {v : Json} {id : Option String} {c : NodeEntry}
    (h : node? v = some (.node id c)) : c.Numbered := by
  obtain ⟨r, id', c', -, heq, -, hminInclusive, hminExclusive, hmaxInclusive, hmaxExclusive⟩ :=
    exists_fields_of_node? h
  cases heq
  have hnumber : ∀ {name : String} {found : Option String},
      r.optional? name numberText? = some found →
        ∀ text ∈ found, ∃ v, numberText? v = some text := by
    intro name found hfound text htext
    obtain ⟨v, -, hv⟩ := exists_of_optional? hfound text htext
    exact ⟨v, hv⟩
  intro text htext
  simp only [NodeEntry.bounds, List.mem_append, Option.mem_toList] at htext
  rcases htext with ((htext | htext) | htext) | htext
  · exact hnumber hminInclusive text htext
  · exact hnumber hminExclusive text htext
  · exact hnumber hmaxInclusive text htext
  · exact hnumber hmaxExclusive text htext

/-! ## Documents -/

namespace Document

/-- A document is read with bounds that are written for numbers. -/
theorem numbered_of_ofText? {text : List Symbol} {d : Document} (h : ofText? text = some d)
    {x : Entry} (hx : d.Contains x) : x.Numbered := by
  obtain ⟨root, -, hroot⟩ := Option.bind_eq_some_iff.1 h
  obtain ⟨e, he, hwithin⟩ := hx
  intro id c hc
  obtain ⟨v, -, hv⟩ := exists_node?_of_contains hroot ⟨e, he, hwithin.trans hc⟩
  exact numbered_of_node? hv

/-- A declaration fails at no number if the bounds in its expression are written for numbers. -/
theorem numbersRead_toDeclaration {e : ShapeEntry} (h : (Entry.shape e).Numbered) :
    NumbersRead e.toDeclaration := by
  have hexpression : NumbersRead e.expression := h.numbersRead
  cases e with
  | reference label => exact .invalidSchema _
  | declaration id isAbstract e =>
    have hinner : NumbersRead e.expression := (h.part List.mem_cons_self).numbersRead
    exact (numbersRead_resource id).bind fun _ => hinner.bind fun _ => .ok _
  | _ =>
    refine (numbersRead_labelOf? _).bind fun label => ?_
    cases label with
    | none => exact .invalidSchema _
    | some label => exact hexpression.bind fun _ => .ok _

/-- Loading a document whose bounds are written for numbers does not fail at a number. -/
theorem numbersRead_load {d : Document} (h : ∀ x, d.Contains x → x.Numbered) :
    NumbersRead d.load := by
  have hshapes : ∀ e ∈ d.shapes, (Entry.shape e).Numbered :=
    fun e he => h _ (contains_iff.2 (.inl ⟨e, he, rfl⟩))
  refine (NumbersRead.mapM fun text _ => numbersRead_iri text).bind fun _ => ?_
  refine (NumbersRead.mapM fun a _ => numbersRead_action a).bind fun _ => ?_
  refine (NumbersRead.mapM fun e he => numbersRead_toDeclaration (hshapes e he)).bind fun _ => ?_
  refine NumbersRead.bind (.option_mapM fun e he => ?_) fun _ => ?_
  · have hcontains : d.Contains (.shape e) :=
      ⟨e, List.mem_append_right _ (Option.mem_toList.2 he), .refl⟩
    exact (h _ hcontains).numbersRead
  refine NumbersRead.bind (.mapM fun entry hentry => ?_) fun _ => ?_
  · rw [labelled_eq, List.mem_flatMap] at hentry
    obtain ⟨e, he, hid⟩ := hentry
    obtain ⟨id, -, rfl⟩ := Option.map_eq_some_iff.1 (Option.mem_toList.1 hid)
    have hcontains := contains_shape_iff.2 (List.mem_append_left d.shapes he)
    have hexpression : NumbersRead e.expression := (h _ hcontains).numbersRead
    exact (numbersRead_resource id).bind fun _ => hexpression.bind fun _ => .ok _
  refine NumbersRead.bind (.mapM fun entry hentry => ?_) fun _ => .ok _
  rw [labelledTriples_eq, List.mem_flatMap] at hentry
  obtain ⟨e, he, hid⟩ := hentry
  obtain ⟨id, -, rfl⟩ := Option.map_eq_some_iff.1 (Option.mem_toList.1 hid)
  have hexpression : NumbersRead e.expression := (h _ (contains_triple_iff.2 he)).numbersRead
  exact (numbersRead_resource id).bind fun _ => hexpression.bind fun _ => .ok _

end Document

/-- No schema document is refused for one of its numbers. -/
theorem load_ne_invalidNumber (text : List Symbol) : NumbersRead (load text) := by
  unfold load
  split
  · exact nofun
  · rename_i d hd
    exact Document.numbersRead_load fun x hx => Document.numbered_of_ofText? hd hx

/-! ## Literals, texts and documents -/

/-- The text of a number of a JSON text is read as a number. -/
theorem number_eq_ok_of_numeral? {text : List Char} {n : Numeral}
    (h : numeral? (symbols text) = some (n, [])) : ∃ v, number (String.ofList text) = .ok v := by
  have hdouble : isDouble (String.ofList text).toList = true := by
    rw [String.toList_ofList]
    exact isDouble_iff_denotes.2 (.inr ⟨_, denotesNumber_of_numeral? h⟩)
  obtain ⟨v, hv⟩ := Option.isSome_iff_exists.1 ((numericLiteral_parse?_isSome_iff _).2 hdouble)
  refine ⟨v, ?_⟩
  simp only [number, hv]

/-- Numbers are read as the grammars say, wherever they come from.

A literal is parsed if and only if its datatype is numeric and it is valid.  A valid integer or
decimal denotes one rational number; it is parsed as the decimal of exactly this value if the number
is a multiple of `10⁻¹⁸` by an integer of 128 bits, else as the double nearest to it.

A text is read if and only if it follows the grammar of doubles, and as a decimal if and only if it
follows the grammar of decimals and denotes the value of one.  Each number of a JSON text does, and
so does what is written for it, so that no document is refused for a number. -/
theorem numbers_read_by_grammar :
    (∀ l : Rdf.Literal,
      (parseNumeric l).isSome = true ↔ isNumeric l.datatype = true ∧ isValid l = true) ∧
    (∀ l : Rdf.Literal, IsExact l.datatype → isValid l = true → ∃! q, HasValue l q) ∧
    (∀ (l : Rdf.Literal) (q : ℚ), HasValue l q →
      (Representable q → ∃ n, parseNumeric l = some (.decimal n) ∧ n.toRat = q) ∧
      (¬ Representable q → parseNumeric l = some (.double (nearestDouble q)))) ∧
    (∀ text : String,
      (NumericLiteral.parse? text).isSome = true ↔ text.toList ∈ Grammar.double.matches') ∧
    (∀ (text : String) (n : Number.Decimal),
      NumericLiteral.parse? text = some (.decimal n) ↔ DenotesDecimal text.toList n.toRat) ∧
    (∀ text : String,
      text.toList ∈ Grammar.decimal.matches' ↔ ∃! q, DenotesDecimal text.toList q) ∧
    (∀ q : ℚ, Representable q ↔ ∃ n : Number.Decimal, n.toRat = q) ∧
    (∀ (text : List Char) (n : Numeral), numeral? (symbols text) = some (n, []) →
      ∃ v, number (String.ofList text) = .ok v) ∧
    (∀ (v : Json) (text : String), numberText? v = some text → ∃ n, number text = .ok n) ∧
    ∀ (document : List Symbol) (text : String), load document ≠ .error (.invalidNumber text) := by
  refine ⟨parseNumeric_isSome_iff, fun l => existsUnique_hasValue, ?_, ?_,
    numericLiteral_parse?_eq_decimal_iff, fun text => mem_decimal_iff_denotes,
    fun q => representable_iff, fun text n => number_eq_ok_of_numeral?,
    fun v text => number_eq_ok, load_ne_invalidNumber⟩
  · intro l q h
    refine ⟨fun hq => ?_, h.parseNumeric_eq.2⟩
    obtain ⟨n, hn⟩ := representable_iff.1 hq
    exact ⟨n, (h.parseNumeric_eq.1 n).2 hn, hn⟩
  · intro text
    rw [numericLiteral_parse?_isSome_iff, isDouble_iff]

/-- Eighteen places and three more. -/
def narrowLiteral : Rdf.Literal :=
  .typed "-.000000000000000000001" (Rdf.Vocabulary.xsd "decimal")

/-- A literal with too many places for a decimal is read as the nearest double, and a document may
have exponents and integers as its numbers. -/
theorem numbers_read_by_grammar_narrow :
    IsExact narrowLiteral.datatype ∧ isValid narrowLiteral = true ∧
    (∃! q, HasValue narrowLiteral q) ∧ HasValue narrowLiteral (-1 / 10 ^ 21) ∧
    Representable 0 ∧ ¬ Representable (-1 / 10 ^ 21) ∧
    parseNumeric narrowLiteral = some (.double (nearestDouble (-1 / 10 ^ 21))) ∧
    (∃ n, numeral? (symbols "-0.5E+3".toList) = some (n, []) ∧
      ∃ v, number (String.ofList "-0.5E+3".toList) = .ok v) ∧
    numberText? (.integer 5) = some "5" ∧ ∃ n, number "5" = .ok n := by
  have hexact : IsExact narrowLiteral.datatype := ⟨"decimal", by simp [exactNames], rfl⟩
  have hvalid : isValid narrowLiteral = true := by decide
  have hvalue : HasValue narrowLiteral (-1 / 10 ^ 21) := by
    refine ⟨hexact, hvalid, ?_⟩
    have hfraction : decimalNumber "000000000000000000001".toList = 1 := by decide
    have hunsigned : DenotesUnsigned ([] ++ '.' :: "000000000000000000001".toList)
        (decimalNumber [] + decimalNumber "000000000000000000001".toList /
          10 ^ "000000000000000000001".toList.length) :=
      .pointed (Grammar.mem_digit_star.2 rfl) (Grammar.mem_digits.2 (by decide))
    rw [hfraction] at hunsigned
    have hminus := DenotesDecimal.minus hunsigned
    have hzero : decimalNumber [] = 0 := rfl
    have hlength : "000000000000000000001".toList.length = 21 := by decide
    rw [hzero, hlength] at hminus
    have heq : (-1 / 10 ^ 21 : ℚ) = -((0 : ℕ) + (1 : ℕ) / 10 ^ 21) := by norm_num
    rw [heq]
    exact hminus
  have hnot : ¬ Representable (-1 / 10 ^ 21) := by
    rintro ⟨k, -, -, hk⟩
    have hk : (k : ℚ) * 1000 = -1 := by
      field_simp at hk
      norm_num at hk ⊢
      linarith
    have hk : k * 1000 = -1 := by exact_mod_cast hk
    omega
  obtain ⟨-, hunique, hparse, -, -, -, -, hnumeral, hnumber, -⟩ := numbers_read_by_grammar
  exact ⟨hexact, hvalid, hunique _ hexact hvalid, hvalue, representable_zero, hnot,
    (hparse _ _ hvalue).2 hnot, ⟨_, rfl, hnumeral _ _ rfl⟩, rfl, hnumber (.integer 5) "5" rfl⟩

end ShEx.ShExJ
