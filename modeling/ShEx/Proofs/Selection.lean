import ShEx.Proofs.Expansion
import ShEx.Proofs.JsonRecords
import ShEx.ShapeMap.Json
import Mathlib.Data.Set.Card
import Mathlib.Logic.Basic

/-!
# What a shape map selects

A shape map is a list of items, and each item gives its own pairs, in the order of the list
(`selection_exact`).  A triple pattern, which has to have its focus in one of two places, gives a
term as often as there are triples that fit it and have the term in that place: the triples along
a predicate are listed once each, whatever their order is (`count_nodes`).
-/

set_option autoImplicit false

namespace ShEx.ShapeMap

open ShEx.Rdf

/-! ## Items as they are written -/

/-- A text is written as it is, or as the member `term` of an object. -/
inductive IsWord : Json → String → Prop
  | text (s : String) : IsWord (.string s) s
  | term {members : List (String × Json)} {s : String}
      (h : Json.Names members "term" (some (.string s))) : IsWord (.object members) s

/-- A side of a triple pattern is missing, null or a text. -/
inductive IsSide : Option Json → Option String → Prop
  | missing : IsSide none none
  | null : IsSide (some .null) none
  | word {v : Json} {s : String} (h : IsWord v s) : IsSide (some v) (some s)

/-- The fields of a triple pattern. -/
def patternFields : List Json.Field :=
  [.defaulted "subject", .plain "predicate", .defaulted "object"]

/-- The fields of an item. -/
def itemFields : List Json.Field := [.plain "node", .plain "shape"]

/-- A value is written as a triple pattern. -/
def IsPattern (v : Json) (p : PatternEntry) : Prop :=
  ∃ x, Json.IsRecord patternFields v x ∧ IsSide (x "subject") p.subject ∧
    x "predicate" = some (.string p.predicate) ∧ IsSide (x "object") p.object

/-- A value is written as an item with a node and a shape. -/
def IsItem (item node : Json) (shape : String) : Prop :=
  ∃ x v, Json.IsRecord itemFields item x ∧ x "node" = some node ∧ x "shape" = some v ∧
    IsWord v shape

/-! ## Reading -/

/-- A word is read exactly as it is written: as a text, or as the text of a term. -/
theorem word?_eq_some_iff {v : Json} {s : String} : word? v = some s ↔ IsWord v s := by
  constructor
  · intro h
    cases v with
    | string text =>
      cases h
      exact .text s
    | object members =>
      obtain ⟨r, hr, hs⟩ := Option.bind_eq_some_iff.1 h
      have hread : Json.Record.of? [.plain "term"] (.object members) = some r := hr
      cases Json.isRecord_slots (by decide) hread with
      | object hnames =>
        refine .term ?_
        rw [← Json.required?_string_iff.1 hs]
        exact hnames (.plain "term") List.mem_cons_self
    | _ => cases h
  · intro h
    cases h with
    | text => rfl
    | @term members s h =>
      have hrecord : Json.IsRecord [.plain "term"] (.object members) fun _ => some (.string s) := by
        refine .object fun f hf => ?_
        obtain rfl := List.mem_singleton.1 hf
        exact h
      obtain ⟨r, hr, hslots⟩ := (Json.isRecord_iff (by decide)).1 hrecord
      refine Option.bind_eq_some_iff.2 ⟨r, hr, Json.required?_string_iff.2 ?_⟩
      exact hslots (.plain "term") List.mem_cons_self

/-- The side of a triple pattern is read exactly as it is written. -/
theorem isSide_iff {r : Json.Record} {name : String} {side : Option String} :
    r.optional? name word? = some side ↔ IsSide (r.slots.lookup name) side := by
  unfold Json.Record.optional?
  constructor
  · intro h
    split at h
    · next hslot =>
      cases h
      exact hslot ▸ .missing
    · next hslot =>
      cases h
      exact hslot ▸ .null
    · next v _ hslot =>
      obtain ⟨s, hs, rfl⟩ := Option.map_eq_some_iff.1 h
      exact hslot ▸ .word (word?_eq_some_iff.1 hs)
  · intro h
    generalize r.slots.lookup name = slot at h ⊢
    cases h with
    | missing => rfl
    | null => rfl
    | @word v s h =>
      have hs := word?_eq_some_iff.2 h
      cases h with
      | text => exact congrArg (Option.map some) hs
      | term => exact congrArg (Option.map some) hs

/-- A triple pattern is read exactly as it is written. -/
theorem pattern?_eq_some_iff {v : Json} {p : PatternEntry} :
    pattern? v = some p ↔ IsPattern v p := by
  have hfields : (patternFields.map (·.name)).Nodup := by decide
  constructor
  · intro h
    obtain ⟨r, hr, h⟩ := Option.bind_eq_some_iff.1 h
    obtain ⟨subject, hsubject, h⟩ := Option.bind_eq_some_iff.1 h
    obtain ⟨predicate, hpredicate, h⟩ := Option.bind_eq_some_iff.1 h
    obtain ⟨object, hobject, h⟩ := Option.bind_eq_some_iff.1 h
    cases h
    exact ⟨_, Json.isRecord_slots hfields hr, isSide_iff.1 hsubject,
      Json.required?_string_iff.1 hpredicate, isSide_iff.1 hobject⟩
  · rintro ⟨x, hrecord, hsubject, hpredicate, hobject⟩
    obtain ⟨r, hr, hslots⟩ := (Json.isRecord_iff hfields).1 hrecord
    simp only [patternFields, List.forall_mem_cons] at hslots
    obtain ⟨hs, hp, ho, -⟩ := hslots
    refine Option.bind_eq_some_iff.2 ⟨r, hr, ?_⟩
    refine Option.bind_eq_some_iff.2 ⟨p.subject, isSide_iff.2 (hs ▸ hsubject), ?_⟩
    refine Option.bind_eq_some_iff.2
      ⟨p.predicate, Json.required?_string_iff.2 (hp ▸ hpredicate), ?_⟩
    exact Option.bind_eq_some_iff.2 ⟨p.object, isSide_iff.2 (ho ▸ hobject), rfl⟩

/-- An item of a map is read exactly as it is written, with its node and its shape. -/
theorem association?_eq_some_iff {item : Json} {e : AssociationEntry} :
    association? item = some e ↔ ∃ v, IsItem item v e.shape ∧ node? v = some e.node := by
  have hfields : (itemFields.map (·.name)).Nodup := by decide
  constructor
  · intro h
    obtain ⟨r, hr, h⟩ := Option.bind_eq_some_iff.1 h
    obtain ⟨node, hnode, h⟩ := Option.bind_eq_some_iff.1 h
    obtain ⟨shape, hshape, h⟩ := Option.bind_eq_some_iff.1 h
    cases h
    obtain ⟨v, hv, hnode⟩ := Json.required?_eq_some_iff.1 hnode
    obtain ⟨word, hword, hshape⟩ := Json.required?_eq_some_iff.1 hshape
    exact ⟨v, ⟨_, word, Json.isRecord_slots hfields hr, hv, hword,
      word?_eq_some_iff.1 hshape⟩, hnode⟩
  · rintro ⟨v, ⟨x, word, hrecord, hv, hword, hshape⟩, hnode⟩
    obtain ⟨r, hr, hslots⟩ := (Json.isRecord_iff hfields).1 hrecord
    simp only [itemFields, List.forall_mem_cons] at hslots
    obtain ⟨hn, hs, -⟩ := hslots
    refine Option.bind_eq_some_iff.2 ⟨r, hr, ?_⟩
    refine Option.bind_eq_some_iff.2 ⟨e.node, ?_, ?_⟩
    · exact Json.required?_eq_some_iff.2 ⟨v, hn.trans hv, hnode⟩
    refine Option.bind_eq_some_iff.2 ⟨e.shape, ?_, rfl⟩
    exact Json.required?_eq_some_iff.2 ⟨word, hs.trans hword, word?_eq_some_iff.2 hshape⟩

/-- What is written as a triple pattern is read as one. -/
theorem node?_of_isPattern {v : Json} {p : PatternEntry} (h : IsPattern v p) :
    node? v = some (.pattern p) := by
  have hp := pattern?_eq_some_iff.2 h
  obtain ⟨x, hrecord, -⟩ := h
  cases hrecord <;> simp only [node?, hp, Option.map_some, Option.some_or]

/-- What is read as a node is a text, a triple pattern, or what is none and can be read as a
literal. -/
theorem node?_cases {v : Json} {e : NodeEntry} (h : node? v = some e) :
    (∃ text, v = .string text ∧ e = .term text) ∨ (∃ p, IsPattern v p ∧ e = .pattern p) ∨
      ∃ l, (∀ p, ¬IsPattern v p) ∧ ShExJ.literal? v = some l ∧ e = .literal l := by
  unfold node? at h
  split at h
  · cases h
    exact .inl ⟨_, rfl, rfl⟩
  · rcases Option.or_eq_some_iff.1 h with h | ⟨hnone, h⟩
    · obtain ⟨p, hp, rfl⟩ := Option.map_eq_some_iff.1 h
      exact .inr (.inl ⟨p, pattern?_eq_some_iff.1 hp, rfl⟩)
    · obtain ⟨l, hl, rfl⟩ := Option.map_eq_some_iff.1 h
      refine .inr (.inr ⟨l, fun p hp => ?_, hl, rfl⟩)
      rw [pattern?_eq_some_iff.2 hp] at hnone
      cases hnone

/-! ## Patterns -/

/-- The item is read as an association. -/
def Loads (item : Json) (a : Association) : Prop :=
  ∃ e, association? item = some e ∧ e.association = .ok a

/-- A side of a pattern is well formed: nothing, a keyword or a term. -/
def ValidSide (side : Option String) : Prop :=
  ∀ text ∈ side, text = "FOCUS" ∨ text = "_" ∨ ∃ r, ShExJ.resource text = .ok r

/-- A side with a text is well formed if the text is a keyword or a term. -/
theorem validSide_some {text : String} : ValidSide (some text) ↔
    text = "FOCUS" ∨ text = "_" ∨ ∃ r, ShExJ.resource text = .ok r := by
  simp only [ValidSide, Option.mem_some_iff, forall_eq']

/-- The terms of a pattern are well formed. -/
structure PatternEntry.Valid (p : PatternEntry) : Prop where
  subject : ValidSide p.subject
  predicate : ∃ predicate, ShExJ.iri p.predicate = .ok predicate
  object : ValidSide p.object

/-- A side of a pattern fits a term: nothing and `_` fit every term, another text the term that it
names. -/
def Fits (side : Option String) (t : Term) : Prop :=
  ∀ text ∈ side, text = "_" ∨ ∃ r, ShExJ.resource text = .ok r ∧ r.toTerm = t

/-- A side with a text fits a term if the text is the wildcard or names the term. -/
theorem fits_some {text : String} {t : Term} : Fits (some text) t ↔
    text = "_" ∨ ∃ r, ShExJ.resource text = .ok r ∧ r.toTerm = t := by
  simp only [Fits, Option.mem_some_iff, forall_eq']

/-- A triple gives a term to a pattern: it has the predicate, the term where the focus is, and a
term that fits the other side. -/
def PatternEntry.Gives (p : PatternEntry) (t : Triple) (x : Term) : Prop :=
  t.predicate = ⟨p.predicate⟩ ∧
    ((p.subject = some "FOCUS" ∧ t.subject.toTerm = x ∧ Fits p.object t.object) ∨
      (p.object = some "FOCUS" ∧ t.object = x ∧ Fits p.subject t.subject.toTerm))

/-! ## The places of a pattern -/

variable {side : Option String} {p : PatternEntry}

/-- The place of the focus is what the keyword for it stands for, and nothing else does. -/
theorem place_eq_focus_iff : place side = .ok .focus ↔ side = some "FOCUS" := by
  cases side with
  | none => exact ⟨nofun, nofun⟩
  | some text =>
    by_cases hfocus : text = "FOCUS"
    · subst hfocus
      exact ⟨fun _ => rfl, fun _ => rfl⟩
    · refine ⟨fun h => ?_, fun h => absurd (Option.some.inj h) hfocus⟩
      rw [place, if_neg hfocus] at h
      split at h
      · cases h
      · obtain ⟨r, -, h⟩ := exists_of_bind_eq_ok h
        cases h

/-- A side that is well formed describes a place. -/
theorem exists_place_iff : (∃ found, place side = .ok found) ↔ ValidSide side := by
  cases side with
  | none => exact ⟨fun _ => nofun, fun _ => ⟨_, rfl⟩⟩
  | some text =>
    rw [validSide_some]
    by_cases hfocus : text = "FOCUS"
    · exact ⟨fun _ => .inl hfocus, fun _ => ⟨.focus, if_pos hfocus⟩⟩
    by_cases hany : text = "_"
    · refine ⟨fun _ => .inr (.inl hany), fun _ => ⟨.fits .wildcard, ?_⟩⟩
      rw [place, if_neg hfocus, if_pos hany]
    · rw [place, if_neg hfocus, if_neg hany]
      constructor
      · rintro ⟨found, h⟩
        obtain ⟨r, hr, -⟩ := exists_of_bind_eq_ok h
        exact .inr (.inr ⟨r, hr⟩)
      · rintro (h | h | ⟨r, hr⟩)
        · exact absurd h hfocus
        · exact absurd h hany
        · rw [hr]
          exact ⟨_, rfl⟩

/-- The place of a side that is not the focus admits the terms that fit the side. -/
theorem admits_iff_fits {expected : PatternTerm} (h : place side = .ok (.fits expected))
    (t : Term) : expected.admits t = true ↔ Fits side t := by
  cases side with
  | none =>
    cases h
    exact ⟨fun _ => nofun, fun _ => rfl⟩
  | some text =>
    rw [fits_some]
    rw [place] at h
    split at h
    · cases h
    split at h
    · next hany =>
      cases h
      exact ⟨fun _ => .inl hany, fun _ => rfl⟩
    · next hany =>
      obtain ⟨r, hr, h⟩ := exists_of_bind_eq_ok h
      cases h
      simp only [PatternTerm.admits, decide_eq_true_eq, hr, hany, false_or, Except.ok.injEq,
        exists_eq_left']

/-- A pattern has a selector if it has its focus on one side and the other side has a place. -/
theorem selector_eq_ok_iff {selector : NodeSelector} : p.selector = .ok selector ↔
    ∃ predicate expected, ShExJ.iri p.predicate = .ok predicate ∧
      ((place p.subject = .ok .focus ∧ place p.object = .ok (.fits expected) ∧
          selector = .focusSubject predicate expected) ∨
        (place p.object = .ok .focus ∧ place p.subject = .ok (.fits expected) ∧
          selector = .focusObject expected predicate)) := by
  constructor
  · intro h
    obtain ⟨predicate, hpredicate, h⟩ := exists_of_bind_eq_ok h
    obtain ⟨subject, hsubject, h⟩ := exists_of_bind_eq_ok h
    obtain ⟨object, hobject, h⟩ := exists_of_bind_eq_ok h
    split at h
    · next expected _ =>
      cases h
      exact ⟨predicate, expected, hpredicate, .inl ⟨hsubject, hobject, rfl⟩⟩
    · next expected _ =>
      cases h
      exact ⟨predicate, expected, hpredicate, .inr ⟨hobject, hsubject, rfl⟩⟩
    · cases h
  · rintro ⟨predicate, expected, hpredicate, ⟨hsubject, hobject, rfl⟩ | ⟨hobject, hsubject, rfl⟩⟩
    · simp only [PatternEntry.selector, hpredicate, hsubject, hobject]
      rfl
    · simp only [PatternEntry.selector, hpredicate, hsubject, hobject]
      rfl

/-- A side describes terms that fit it if it is well formed and not the focus. -/
theorem exists_fits_iff : (∃ expected, place side = .ok (.fits expected)) ↔
    ValidSide side ∧ side ≠ some "FOCUS" := by
  rw [← exists_place_iff, Ne, ← place_eq_focus_iff]
  constructor
  · rintro ⟨expected, h⟩
    refine ⟨⟨_, h⟩, fun hfocus => ?_⟩
    cases h.symm.trans hfocus
  · rintro ⟨⟨found, h⟩, hfocus⟩
    cases found with
    | focus => exact absurd h hfocus
    | fits expected => exact ⟨expected, h⟩

/-- A pattern has a selector if its terms are well formed and one of its sides, not both, is the
focus. -/
theorem exists_selector_iff : (∃ selector, p.selector = .ok selector) ↔
    p.Valid ∧ Xor (p.subject = some "FOCUS") (p.object = some "FOCUS") := by
  have hfocus : ValidSide (some "FOCUS") := validSide_some.2 (.inl rfl)
  constructor
  · rintro ⟨selector, h⟩
    obtain ⟨predicate, expected, hpredicate, ⟨hsubject, hobject, -⟩ | ⟨hobject, hsubject, -⟩⟩ :=
      selector_eq_ok_iff.1 h
    · have hs := place_eq_focus_iff.1 hsubject
      obtain ⟨hvalid, ho⟩ := exists_fits_iff.1 ⟨expected, hobject⟩
      exact ⟨⟨hs ▸ hfocus, ⟨predicate, hpredicate⟩, hvalid⟩, .inl ⟨hs, ho⟩⟩
    · have ho := place_eq_focus_iff.1 hobject
      obtain ⟨hvalid, hs⟩ := exists_fits_iff.1 ⟨expected, hsubject⟩
      exact ⟨⟨hvalid, ⟨predicate, hpredicate⟩, ho ▸ hfocus⟩, .inr ⟨ho, hs⟩⟩
  · rintro ⟨⟨hsubject, ⟨predicate, hpredicate⟩, hobject⟩, ⟨hs, ho⟩ | ⟨ho, hs⟩⟩
    · obtain ⟨expected, hplace⟩ := exists_fits_iff.2 ⟨hobject, ho⟩
      exact ⟨_, selector_eq_ok_iff.2
        ⟨predicate, expected, hpredicate, .inl ⟨place_eq_focus_iff.2 hs, hplace, rfl⟩⟩⟩
    · obtain ⟨expected, hplace⟩ := exists_fits_iff.2 ⟨hsubject, hs⟩
      exact ⟨_, selector_eq_ok_iff.2
        ⟨predicate, expected, hpredicate, .inr ⟨place_eq_focus_iff.2 ho, hplace, rfl⟩⟩⟩

/-- An IRI that is accepted is the text itself. -/
theorem eq_of_iri_eq_ok {text : String} {i : Iri} (h : ShExJ.iri text = .ok i) : i = ⟨text⟩ := by
  unfold ShExJ.iri at h
  split at h
  · cases h
    rfl
  · cases h

/-! ## The triples of a graph -/

section Triples

variable {g : Graph}

/-- The triples along a predicate that fit, by what a function makes of them, are counted like a
set of triples. -/
theorem count_map_filter_along (listing : g.Listing) (predicate : Iri) (fits : Triple → Bool)
    (f : Triple → Term) (x : Term) :
    (((listing.along predicate).filter fits).map f).count x =
      {t | t ∈ g.triples ∧ t.predicate = predicate ∧ fits t = true ∧ f t = x}.ncard := by
  have hperm := ((listing.along_perm predicate).filter fits).map f
  let counted := ((g.withPredicate predicate).filter fits).filter fun t => f t = x
  have hset : {t | t ∈ g.triples ∧ t.predicate = predicate ∧ fits t = true ∧ f t = x} =
      (counted.toFinset : Set Triple) := by
    ext t
    simp only [counted, Graph.withPredicate, Set.mem_ofPred_eq, List.coe_toFinset, List.mem_filter,
      decide_eq_true_eq, and_assoc]
  have hnodup : counted.Nodup := ((g.nodup.filter _).filter _).filter _
  rw [hperm.count_eq, hset, Set.ncard_coe_finset, List.toFinset_card_of_nodup hnodup,
    List.count_eq_countP, List.countP_map, List.countP_eq_length_filter]
  rfl

/-- A pattern gives a term as often as there are triples that give the term to it. -/
theorem count_nodes (listing : g.Listing) {selector : NodeSelector}
    (h : p.selector = .ok selector) (x : Term) :
    (selector.nodes listing).count x = {t | t ∈ g.triples ∧ p.Gives t x}.ncard := by
  obtain ⟨predicate, expected, hpredicate, ⟨hsubject, hobject, rfl⟩ | ⟨hobject, hsubject, rfl⟩⟩ :=
    selector_eq_ok_iff.1 h
  · have hfocus : p.object ≠ some "FOCUS" := (exists_fits_iff.1 ⟨expected, hobject⟩).2
    rw [NodeSelector.nodes, count_map_filter_along, eq_of_iri_eq_ok hpredicate]
    simp only [PatternEntry.Gives, place_eq_focus_iff.1 hsubject, hfocus, false_and, or_false,
      true_and, admits_iff_fits hobject, and_comm (a := Fits _ _)]
  · have hfocus : p.subject ≠ some "FOCUS" := (exists_fits_iff.1 ⟨expected, hsubject⟩).2
    rw [NodeSelector.nodes, count_map_filter_along, eq_of_iri_eq_ok hpredicate]
    simp only [PatternEntry.Gives, place_eq_focus_iff.1 hobject, hfocus, false_and, false_or,
      true_and, admits_iff_fits hsubject, and_comm (a := Fits _ _)]

end Triples

/-! ## Items -/

/-- A map is loaded if its text is a list of which all items are. -/
theorem load_eq_ok_iff {text : List Json.Symbol} {map : ShapeMap} : load text = .ok map ↔
    ∃ items, Json.read? layout text = some (.array items) ∧ List.Forall₂ Loads items map := by
  constructor
  · intro h
    unfold load at h
    split at h
    · cases h
    · next entries hentries =>
      obtain ⟨v, hv, hentries⟩ := Option.bind_eq_some_iff.1 hentries
      obtain ⟨items, rfl, hitems⟩ := Json.list?_eq_some_iff.1 hentries
      exact ⟨items, hv, forall₂_comp_iff.1 ⟨entries, hitems, mapM_eq_ok_iff.1 h⟩⟩
  · rintro ⟨items, hread, h⟩
    obtain ⟨entries, hitems, hmap⟩ := forall₂_comp_iff.2 h
    have hentries : (Json.read? layout text).bind (Json.list? association?) = some entries := by
      rw [hread]
      exact Json.list?_eq_some_iff.2 ⟨items, rfl, hitems⟩
    simp only [load, hentries]
    exact mapM_eq_ok_iff.2 hmap

/-- An association is made of the selector of its node and of the target of its shape. -/
theorem association_eq_ok_iff {e : AssociationEntry} {a : Association} :
    e.association = .ok a ↔ e.node.selector = .ok a.selector ∧ target e.shape = .ok a.target := by
  constructor
  · intro h
    obtain ⟨selector, hselector, h⟩ := exists_of_bind_eq_ok h
    obtain ⟨t, ht, h⟩ := exists_of_bind_eq_ok h
    cases h
    exact ⟨hselector, ht⟩
  · rintro ⟨hselector, ht⟩
    simp only [AssociationEntry.association, hselector, ht]
    rfl

/-- An item with a pattern is loaded if its terms are well formed and one of its two sides, not
both, is the focus. -/
theorem exists_loads_iff {item v : Json} {shape : String} (hitem : IsItem item v shape)
    (hpattern : IsPattern v p) : (∃ a, Loads item a) ↔
      p.Valid ∧ (∃ t, target shape = .ok t) ∧
        Xor (p.subject = some "FOCUS") (p.object = some "FOCUS") := by
  have hread : association? item = some ⟨.pattern p, shape⟩ :=
    association?_eq_some_iff.2 ⟨v, hitem, node?_of_isPattern hpattern⟩
  constructor
  · rintro ⟨a, e, he, ha⟩
    cases hread.symm.trans he
    obtain ⟨hselector, ht⟩ := association_eq_ok_iff.1 ha
    obtain ⟨hvalid, hone⟩ := exists_selector_iff.1 ⟨_, hselector⟩
    exact ⟨hvalid, ⟨_, ht⟩, hone⟩
  · rintro ⟨hvalid, ⟨t, ht⟩, hone⟩
    obtain ⟨selector, hselector⟩ := exists_selector_iff.2 ⟨hvalid, hone⟩
    exact ⟨⟨selector, t⟩, _, hread, association_eq_ok_iff.2 ⟨hselector, ht⟩⟩

/-- What an item selects on a graph.  A node that is written as a text or as a literal is selected
once, and a triple pattern selects a term as often as there are triples that give it; all are asked
about the shape of the item. -/
inductive Selects (g : Graph) (item : Json) : List FixedAssociation → Prop
  | resource {text shape : String} {r : Resource} {t : ShapeTarget}
      (hitem : IsItem item (.string text) shape) (hnode : ShExJ.resource text = .ok r)
      (hshape : target shape = .ok t) : Selects g item [⟨r.toTerm, t⟩]
  | literal {v : Json} {shape : String} {entry : ShExJ.LiteralEntry} {l : Literal} {t : ShapeTarget}
      (hitem : IsItem item v shape) (hpattern : ∀ p, ¬IsPattern v p)
      (hentry : ShExJ.literal? v = some entry) (hnode : entry.toLiteral = .ok l)
      (hshape : target shape = .ok t) : Selects g item [⟨.literal l, t⟩]
  | pattern {v : Json} {shape : String} {p : PatternEntry} {t : ShapeTarget}
      {pairs : List FixedAssociation} (hitem : IsItem item v shape) (hpattern : IsPattern v p)
      (hshape : target shape = .ok t) (htargets : ∀ pair ∈ pairs, pair.target = t)
      (hcount : ∀ x, (pairs.map (·.node)).count x = {u | u ∈ g.triples ∧ p.Gives u x}.ncard) :
      Selects g item pairs

/-- The nodes of a resolved association are those that its selector finds, in their order. -/
theorem map_node_resolve {g : Graph} (listing : g.Listing) (a : Association) :
    (a.resolve listing).map (·.node) = a.selector.nodes listing := by
  rw [Association.resolve, List.map_map]
  exact List.map_id _

/-- Every pair of a resolved association has the target of the association. -/
theorem target_of_mem_resolve {g : Graph} {listing : g.Listing} {a : Association}
    {pair : FixedAssociation} (h : pair ∈ a.resolve listing) : pair.target = a.target := by
  obtain ⟨n, -, rfl⟩ := List.mem_map.1 h
  rfl

/-- An item that is loaded is resolved to what it selects. -/
theorem selects_of_loads {item : Json} {a : Association} (h : Loads item a) {g : Graph}
    (listing : g.Listing) : Selects g item (a.resolve listing) := by
  obtain ⟨⟨node, shape⟩, he, ha⟩ := h
  obtain ⟨v, hitem, hnode⟩ := association?_eq_some_iff.1 he
  obtain ⟨hselector, hshape⟩ := association_eq_ok_iff.1 ha
  obtain ⟨selector, t⟩ := a
  rcases node?_cases hnode with ⟨text, rfl, rfl⟩ | ⟨p, hpattern, rfl⟩ | ⟨l, hnone, hl, rfl⟩
  · obtain ⟨r, hr, hselector⟩ := exists_of_bind_eq_ok hselector
    cases hselector
    exact .resource hitem hr hshape
  · refine .pattern hitem hpattern hshape (fun _ => target_of_mem_resolve) fun x => ?_
    rw [map_node_resolve]
    exact count_nodes listing hselector x
  · obtain ⟨lit, hlit, hselector⟩ := exists_of_bind_eq_ok hselector
    cases hselector
    exact .literal hitem hnone hl hlit hshape

/-- A shape map selects what its items select, and nothing is left out or added.

A pattern is written as a record with a predicate and two sides, each of them a text, an object with
the text as its member `term`, null or missing.  An item with a pattern is loaded if and only if its
terms and its shape are well formed and one of the two sides, not both, is the focus.  A text is
loaded as a map if and only if it is a list of which all items are loaded.  On every graph, however
its triples are listed, the map is resolved to what its items select, item by item in their
order. -/
theorem selection_exact :
    (∀ (item v : Json) (shape : String) (p : PatternEntry), IsItem item v shape → IsPattern v p →
      ((∃ a, Loads item a) ↔ p.Valid ∧ (∃ t, target shape = .ok t) ∧
        Xor (p.subject = some "FOCUS") (p.object = some "FOCUS"))) ∧
    (∀ (text : List Json.Symbol) (map : ShapeMap), load text = .ok map ↔
      ∃ items, Json.read? layout text = some (.array items) ∧ List.Forall₂ Loads items map) ∧
    ∀ (items : List Json) (map : ShapeMap), List.Forall₂ Loads items map →
      ∀ (g : Graph) (listing : g.Listing), ∃ segments,
        map.resolve listing = segments.flatten ∧ List.Forall₂ (Selects g) items segments := by
  refine ⟨fun item v shape p => exists_loads_iff, fun text map => load_eq_ok_iff, ?_⟩
  intro items map h g listing
  refine ⟨map.map (·.resolve listing), ?_, ?_⟩
  · rw [resolve, List.flatMap_def]
  · exact List.forall₂_map_right_iff.2 (h.imp fun _ _ hloads => selects_of_loads hloads listing)

/-! ## Two items -/

/-- A map with a pattern, whose subject may be anything, and a node. -/
def twoItemText : String :=
  "[\x7b\"node\":\x7b\"subject\":null,\"predicate\":\"a:p\"," ++
    "\"object\":\x7b\"term\":\"FOCUS\"\x7d\x7d,\"shape\":\"START\"\x7d," ++
    "\x7b\"node\":\"a:x\",\"shape\":\x7b\"term\":\"a:S\"\x7d\x7d]"

/-- The pattern of that map as it is written. -/
def anySubject : Json :=
  .object [("subject", .null), ("predicate", .string "a:p"),
    ("object", .object [("term", .string "FOCUS")])]

/-- The item with that pattern. -/
def anySubjectItem : Json := .object [("node", anySubject), ("shape", .string "START")]

/-- The associations of that map. -/
def twoAssociations : ShapeMap :=
  [⟨.focusObject .wildcard ⟨"a:p"⟩, .start⟩, ⟨.node (.iri ⟨"a:x"⟩), .label (.iri ⟨"a:S"⟩)⟩]

/-- A graph in which two triples along the predicate have the same object. -/
def sharedObjectGraph : Graph :=
  .ofList [⟨.iri ⟨"a:x"⟩, ⟨"a:p"⟩, .iri ⟨"a:z"⟩⟩, ⟨.iri ⟨"a:x"⟩, ⟨"a:q"⟩, .iri ⟨"a:y"⟩⟩,
    ⟨.iri ⟨"a:y"⟩, ⟨"a:p"⟩, .iri ⟨"a:z"⟩⟩]

/-- The item of the examples asks for the subjects of a pattern. -/
theorem isItem_anySubject : IsItem anySubjectItem anySubject "START" := by
  refine ⟨fun name => if name = "node" then some anySubject else some (.string "START"),
    .string "START", .object fun f hf => ?_, rfl, rfl, .text _⟩
  simp only [itemFields, List.mem_cons, List.not_mem_nil, or_false] at hf
  rcases hf with rfl | rfl
  · rfl
  · rfl

/-- Its pattern has no subject, a predicate and the focus as its object. -/
theorem isPattern_anySubject : IsPattern anySubject ⟨none, "a:p", some "FOCUS"⟩ := by
  refine pattern?_eq_some_iff.1 ?_
  decide +kernel

/-- Of two items, one names a node and one asks for a pattern; an object that two triples share is
listed once. -/
theorem selection_exact_twoItems :
    (∃ a, Loads anySubjectItem a) ∧ load (twoItemText.toList.map some) = .ok twoAssociations ∧
    ∃ items segments, List.Forall₂ Loads items twoAssociations ∧
      twoAssociations.resolve sharedObjectGraph.asInserted = segments.flatten ∧
      List.Forall₂ (Selects sharedObjectGraph) items segments ∧
      segments.flatten.map (·.node) = [.iri ⟨"a:z"⟩, .iri ⟨"a:z"⟩, .iri ⟨"a:x"⟩] := by
  obtain ⟨hpattern, hload, hresolve⟩ := selection_exact
  have hmap : load (twoItemText.toList.map some) = .ok twoAssociations := by decide +kernel
  have hvalid : PatternEntry.Valid ⟨none, "a:p", some "FOCUS"⟩ :=
    ⟨nofun, ⟨⟨"a:p"⟩, by decide +kernel⟩, validSide_some.2 (.inl rfl)⟩
  have hitem := (hpattern _ _ _ _ isItem_anySubject isPattern_anySubject).2
    ⟨hvalid, ⟨.start, rfl⟩, .inr ⟨rfl, nofun⟩⟩
  obtain ⟨items, -, hitems⟩ := (hload _ _).1 hmap
  obtain ⟨segments, hsegments, hselects⟩ := hresolve items twoAssociations hitems sharedObjectGraph
    sharedObjectGraph.asInserted
  refine ⟨hitem, hmap, items, segments, hitems, hsegments, hselects, ?_⟩
  rw [← hsegments]
  decide +kernel

end ShEx.ShapeMap
