import ShEx.Proofs.JsonRecords
import ShEx.Proofs.PostOrder
import ShEx.ShExJ.Decode

/-!
# Where the node constraints of a document are written

An expression is read level by level from values that stand in each other as its parts do.  So each
node constraint of a document, wherever it stands, is read from a record whose fields stand in the
JSON value of the document (`Document.exists_node?_of_contains`), and what is known of the reading
of one record is known of all node constraints of all documents.
-/

set_option autoImplicit false

namespace ShEx.ShExJ

open ShEx.Json

/-! ## Node constraints in an expression -/

namespace Entry

/-- The node constraints in an expression are read from records whose fields stand in a value. -/
def ReadIn (root : Json) (e : Entry) : Prop :=
  ∀ id c, Within (.shape (.node id c)) e →
    ∃ v, (∀ part ∈ v.parts, part.Within root) ∧ ShExJ.node? v = some (.node id c)

/-- Is the expression a node constraint? -/
def isNode : Entry → Bool
  | .shape (.node _ _) => true
  | _ => false

/-- The node constraints in another expression stand in its parts. -/
theorem readIn_of_parts {root : Json} {e : Entry} (hself : e.isNode = false)
    (hparts : ∀ part ∈ e.parts, part.ReadIn root) : e.ReadIn root := by
  intro id c hc
  rcases Relation.ReflTransGen.cases_head hc with rfl | ⟨part, hpart, hc⟩
  · cases hself
  · exact hparts part hpart id c hc

end Entry

/-! ## Reading expressions -/

/-- A node constraint is read from the fields of a record: the values from a list of them, and each
bound from a number. -/
theorem exists_fields_of_node? {v : Json} {e : ShapeEntry} (h : node? v = some e) :
    ∃ r id c, Record.of? nodeFields v = some r ∧ e = .node id c ∧
      r.optional? "values" (list? value?) = some c.values ∧
      r.optional? "mininclusive" numberText? = some c.minInclusive ∧
      r.optional? "minexclusive" numberText? = some c.minExclusive ∧
      r.optional? "maxinclusive" numberText? = some c.maxInclusive ∧
      r.optional? "maxexclusive" numberText? = some c.maxExclusive := by
  obtain ⟨r, hr, h⟩ := Option.bind_eq_some_iff.1 h
  obtain ⟨id, -, h⟩ := Option.bind_eq_some_iff.1 h
  obtain ⟨kind, -, h⟩ := Option.bind_eq_some_iff.1 h
  obtain ⟨datatype, -, h⟩ := Option.bind_eq_some_iff.1 h
  obtain ⟨values, hvalues, h⟩ := Option.bind_eq_some_iff.1 h
  obtain ⟨length, -, h⟩ := Option.bind_eq_some_iff.1 h
  obtain ⟨minLength, -, h⟩ := Option.bind_eq_some_iff.1 h
  obtain ⟨maxLength, -, h⟩ := Option.bind_eq_some_iff.1 h
  obtain ⟨pattern, -, h⟩ := Option.bind_eq_some_iff.1 h
  obtain ⟨flags, -, h⟩ := Option.bind_eq_some_iff.1 h
  obtain ⟨minInclusive, hminInclusive, h⟩ := Option.bind_eq_some_iff.1 h
  obtain ⟨minExclusive, hminExclusive, h⟩ := Option.bind_eq_some_iff.1 h
  obtain ⟨maxInclusive, hmaxInclusive, h⟩ := Option.bind_eq_some_iff.1 h
  obtain ⟨maxExclusive, hmaxExclusive, h⟩ := Option.bind_eq_some_iff.1 h
  obtain ⟨totalDigits, -, h⟩ := Option.bind_eq_some_iff.1 h
  obtain ⟨fractionDigits, -, h⟩ := Option.bind_eq_some_iff.1 h
  cases h
  exact ⟨r, _, _, hr, rfl, hvalues, hminInclusive, hminExclusive, hmaxInclusive, hmaxExclusive⟩

section Levels

variable {root : Json} {shape? : Json → Option ShapeEntry} {triple? : Json → Option TripleEntry}

/-- A node constraint that is read contains itself only, and its parts stand in the text. -/
theorem readIn_of_node? {v : Json} {e : ShapeEntry} (hv : ∀ part ∈ v.parts, part.Within root)
    (h : node? v = some e) : (Entry.shape e).ReadIn root := by
  obtain ⟨r, id', c', -, rfl, -⟩ := exists_fields_of_node? h
  intro id c hc
  rcases Relation.ReflTransGen.cases_head hc with heq | ⟨part, hpart, -⟩
  · cases heq
    exact ⟨v, hv, h⟩
  · cases hpart

/-- The operands that are read from a text read their node constraints from it too. -/
theorem readIn_of_operands?
    (hshape : ∀ v e, v.Within root → shape? v = some e → (Entry.shape e).ReadIn root)
    {v : Json} (hv : ∀ part ∈ v.parts, part.Within root) {id : Option String}
    {es : List ShapeEntry} (h : operands? shape? v = some (id, es)) :
    ∀ part ∈ es.map Entry.shape, part.ReadIn root := by
  obtain ⟨r, hr, h⟩ := Option.bind_eq_some_iff.1 h
  obtain ⟨id', -, h⟩ := Option.bind_eq_some_iff.1 h
  obtain ⟨es', hes, h⟩ := Option.bind_eq_some_iff.1 h
  cases h
  obtain ⟨list, hlist, hitems⟩ := required?_eq_some_iff.1 hes
  have hlist := hv list (mem_parts_of_lookup hr hlist)
  intro part hpart
  obtain ⟨e, he, rfl⟩ := List.mem_map.1 hpart
  obtain ⟨item, hitem, hread⟩ := exists_of_list? hitems e he
  exact hshape item e (hlist.part hitem) hread

/-- The members that are read from a text read their node constraints from it too. -/
theorem readIn_of_group?
    (htriple : ∀ v e, v.Within root → triple? v = some e → (Entry.triple e).ReadIn root)
    {v : Json} (hv : ∀ part ∈ v.parts, part.Within root) {id : Option String} {g : GroupBody}
    (h : group? triple? v = some (id, g)) :
    ∀ part ∈ g.members.map Entry.triple, part.ReadIn root := by
  obtain ⟨r, hr, h⟩ := Option.bind_eq_some_iff.1 h
  obtain ⟨id', -, h⟩ := Option.bind_eq_some_iff.1 h
  obtain ⟨members, hmembers, h⟩ := Option.bind_eq_some_iff.1 h
  obtain ⟨min, -, h⟩ := Option.bind_eq_some_iff.1 h
  obtain ⟨max, -, h⟩ := Option.bind_eq_some_iff.1 h
  obtain ⟨acts, -, h⟩ := Option.bind_eq_some_iff.1 h
  cases h
  obtain ⟨list, hlist, hitems⟩ := required?_eq_some_iff.1 hmembers
  have hlist := hv list (mem_parts_of_lookup hr hlist)
  intro part hpart
  obtain ⟨e, he, rfl⟩ := List.mem_map.1 hpart
  obtain ⟨item, hitem, hread⟩ := exists_of_list? hitems e he
  exact htriple item e (hlist.part hitem) hread

/-- A shape expression is read so if its parts are. -/
theorem readIn_of_shapeObject?
    (hshape : ∀ v e, v.Within root → shape? v = some e → (Entry.shape e).ReadIn root)
    (htriple : ∀ v e, v.Within root → triple? v = some e → (Entry.triple e).ReadIn root)
    {v : Json} (hv : v.Within root) {e : ShapeEntry}
    (h : shapeObject? shape? triple? v = some e) : (Entry.shape e).ReadIn root := by
  obtain ⟨variant, hvariant, h⟩ := Option.bind_eq_some_iff.1 h
  have hrest : ∀ part ∈ variant.2.parts, part.Within root :=
    fun part hpart => hv.part (parts_subset_of_variant? hvariant hpart)
  -- One case for each tag; only the fields that are parts matter.
  split at h
  · obtain ⟨⟨id, es⟩, hes, rfl⟩ := Option.map_eq_some_iff.1 h
    exact Entry.readIn_of_parts rfl (readIn_of_operands? hshape hrest hes)
  · obtain ⟨⟨id, es⟩, hes, rfl⟩ := Option.map_eq_some_iff.1 h
    exact Entry.readIn_of_parts rfl (readIn_of_operands? hshape hrest hes)
  · obtain ⟨r, hr, h⟩ := Option.bind_eq_some_iff.1 h
    obtain ⟨id, -, h⟩ := Option.bind_eq_some_iff.1 h
    obtain ⟨operand, hoperand, h⟩ := Option.bind_eq_some_iff.1 h
    cases h
    obtain ⟨v', hslot, hread⟩ := required?_eq_some_iff.1 hoperand
    refine Entry.readIn_of_parts rfl fun part hpart => ?_
    obtain rfl := List.mem_singleton.1 hpart
    exact hshape v' operand (hrest v' (mem_parts_of_lookup hr hslot)) hread
  · exact readIn_of_node? hrest h
  · obtain ⟨r, hr, h⟩ := Option.bind_eq_some_iff.1 h
    obtain ⟨id, -, h⟩ := Option.bind_eq_some_iff.1 h
    obtain ⟨closed, -, h⟩ := Option.bind_eq_some_iff.1 h
    obtain ⟨extra, -, h⟩ := Option.bind_eq_some_iff.1 h
    obtain ⟨expression, hexpression, h⟩ := Option.bind_eq_some_iff.1 h
    obtain ⟨extended, -, h⟩ := Option.bind_eq_some_iff.1 h
    obtain ⟨restricted, -, h⟩ := Option.bind_eq_some_iff.1 h
    obtain ⟨acts, -, h⟩ := Option.bind_eq_some_iff.1 h
    cases h
    refine Entry.readIn_of_parts rfl fun part hpart => ?_
    obtain ⟨te, hte, rfl⟩ := Option.map_eq_some_iff.1 (Option.mem_toList.1 hpart)
    obtain ⟨v', hslot, hread⟩ := exists_of_optional? hexpression te hte
    exact htriple v' te (hrest v' (mem_parts_of_lookup hr hslot)) hread
  · obtain ⟨r, -, h⟩ := Option.bind_eq_some_iff.1 h
    obtain ⟨id, -, h⟩ := Option.bind_eq_some_iff.1 h
    cases h
    exact Entry.readIn_of_parts rfl (List.forall_mem_nil _)
  · obtain ⟨r, hr, h⟩ := Option.bind_eq_some_iff.1 h
    obtain ⟨id, -, h⟩ := Option.bind_eq_some_iff.1 h
    obtain ⟨isAbstract, -, h⟩ := Option.bind_eq_some_iff.1 h
    obtain ⟨e', he', h⟩ := Option.bind_eq_some_iff.1 h
    cases h
    obtain ⟨v', hslot, hread⟩ := required?_eq_some_iff.1 he'
    refine Entry.readIn_of_parts rfl fun part hpart => ?_
    obtain rfl := List.mem_singleton.1 hpart
    exact hshape v' e' (hrest v' (mem_parts_of_lookup hr hslot)) hread
  · cases h

/-- A triple expression is read so if its parts are. -/
theorem readIn_of_tripleObject?
    (hshape : ∀ v e, v.Within root → shape? v = some e → (Entry.shape e).ReadIn root)
    (htriple : ∀ v e, v.Within root → triple? v = some e → (Entry.triple e).ReadIn root)
    {v : Json} (hv : v.Within root) {e : TripleEntry}
    (h : tripleObject? shape? triple? v = some e) : (Entry.triple e).ReadIn root := by
  obtain ⟨variant, hvariant, h⟩ := Option.bind_eq_some_iff.1 h
  have hrest : ∀ part ∈ variant.2.parts, part.Within root :=
    fun part hpart => hv.part (parts_subset_of_variant? hvariant hpart)
  split at h
  · obtain ⟨⟨id, g⟩, hg, rfl⟩ := Option.map_eq_some_iff.1 h
    exact Entry.readIn_of_parts rfl (readIn_of_group? htriple hrest hg)
  · obtain ⟨⟨id, g⟩, hg, rfl⟩ := Option.map_eq_some_iff.1 h
    exact Entry.readIn_of_parts rfl (readIn_of_group? htriple hrest hg)
  · obtain ⟨r, hr, h⟩ := Option.bind_eq_some_iff.1 h
    obtain ⟨id, -, h⟩ := Option.bind_eq_some_iff.1 h
    obtain ⟨inverse, -, h⟩ := Option.bind_eq_some_iff.1 h
    obtain ⟨predicate, -, h⟩ := Option.bind_eq_some_iff.1 h
    obtain ⟨value, hvalue, h⟩ := Option.bind_eq_some_iff.1 h
    obtain ⟨min, -, h⟩ := Option.bind_eq_some_iff.1 h
    obtain ⟨max, -, h⟩ := Option.bind_eq_some_iff.1 h
    obtain ⟨acts, -, h⟩ := Option.bind_eq_some_iff.1 h
    cases h
    refine Entry.readIn_of_parts rfl fun part hpart => ?_
    obtain ⟨e', he', rfl⟩ := Option.map_eq_some_iff.1 (Option.mem_toList.1 hpart)
    obtain ⟨v', hslot, hread⟩ := exists_of_optional? hvalue e' he'
    exact hshape v' e' (hrest v' (mem_parts_of_lookup hr hslot)) hread
  · cases h

end Levels

/-- Expressions of any height are read so. -/
theorem readIn_of_within? {root : Json} (n : Nat) :
    (∀ v e, v.Within root → shapeWithin? n v = some e → (Entry.shape e).ReadIn root) ∧
      ∀ v e, v.Within root → tripleWithin? n v = some e → (Entry.triple e).ReadIn root := by
  have hreference : ∀ label, (Entry.shape (.reference label)).ReadIn root ∧
      (Entry.triple (.reference label)).ReadIn root :=
    fun label => ⟨Entry.readIn_of_parts rfl (List.forall_mem_nil _),
      Entry.readIn_of_parts rfl (List.forall_mem_nil _)⟩
  induction n with
  | zero =>
    constructor
    · intro v e _ h
      cases v with
      | string label =>
        cases h
        exact (hreference label).1
      | _ => cases h
    · intro v e _ h
      cases v with
      | string label =>
        cases h
        exact (hreference label).2
      | _ => cases h
  | succ n ih =>
    constructor
    · intro v e hv h
      cases v with
      | string label =>
        cases h
        exact (hreference label).1
      | _ => exact readIn_of_shapeObject? ih.1 ih.2 hv h
    · intro v e hv h
      cases v with
      | string label =>
        cases h
        exact (hreference label).2
      | _ => exact readIn_of_tripleObject? ih.1 ih.2 hv h

/-- The node constraints in a shape expression are read from the text that it is read from. -/
theorem readIn_of_shape? {root v : Json} {e : ShapeEntry} (hv : v.Within root)
    (h : shape? v = some e) : (Entry.shape e).ReadIn root :=
  (readIn_of_within? v.height).1 v e hv h

/-! ## Documents -/

/-- A node constraint of a document is read from a record whose fields stand in the document. -/
theorem Document.exists_node?_of_contains {root : Json} {d : Document}
    (h : Document.ofJson? root = some d) {id : Option String} {c : NodeEntry}
    (hc : d.Contains (.shape (.node id c))) :
    ∃ v, (∀ part ∈ v.parts, part.Within root) ∧ node? v = some (.node id c) := by
  obtain ⟨r, hr, h⟩ := Option.bind_eq_some_iff.1 h
  obtain ⟨imports, -, h⟩ := Option.bind_eq_some_iff.1 h
  obtain ⟨startActs, -, h⟩ := Option.bind_eq_some_iff.1 h
  obtain ⟨start, hstart, h⟩ := Option.bind_eq_some_iff.1 h
  obtain ⟨shapes, hshapes, h⟩ := Option.bind_eq_some_iff.1 h
  cases h
  have hpart : ∀ {name : String} {v : Json}, r.slots.lookup name = some v → v.Within root :=
    fun hslot => .single (mem_parts_of_lookup hr hslot)
  obtain ⟨e, he, hwithin⟩ := hc
  refine (?_ : (Entry.shape e).ReadIn root) id c hwithin
  rcases List.mem_append.1 he with he | he
  · rcases orDefault?_eq_some_iff.1 hshapes with ⟨-, rfl⟩ | ⟨list, hslot, hread⟩
    · cases he
    · obtain ⟨item, hitem, hread⟩ := exists_of_list? hread e he
      exact readIn_of_shape? ((hpart hslot).part hitem) hread
  · obtain ⟨v, hslot, hread⟩ := exists_of_optional? hstart e (Option.mem_toList.1 he)
    exact readIn_of_shape? (hpart hslot) hread

end ShEx.ShExJ
