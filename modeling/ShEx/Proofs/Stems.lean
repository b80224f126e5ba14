import ShEx.Proofs.LoadedConstraints
import ShEx.Proofs.Origins
import ShEx.Validation.NodeEvaluation

/-!
# The stems of stem ranges

A stem range of a value set is written with any JSON value for its stem.  The text of a string is
the stem, and every other value stands for the empty stem, with which everything begins
(`value?_stemRange_iff`).  So no range is refused for its stem, and the empty stem says nothing
about what was written beyond that it was no string or the empty one (`emptyStem_iff`).
-/

set_option autoImplicit false

namespace ShEx.ShExJ

open ShEx.Json

/-! ## Stem ranges as they are written -/

/-- The kinds of stem ranges. -/
inductive RangeKind where
  | iri
  | literal
  | language
deriving DecidableEq

/-- The tag of a stem range. -/
def RangeKind.tag : RangeKind → String
  | .iri => "IriStemRange"
  | .literal => "LiteralStemRange"
  | .language => "LanguageStemRange"

/-- The entry of a value set for a stem range. -/
def RangeKind.range : RangeKind → String → List StemExclusion → ValueSetValue
  | .iri => .iriStemRange
  | .literal => .literalStemRange
  | .language => .languageStemRange

/-- The tags of the entries with a stem or a language. -/
def stemTags : List String :=
  ["IriStem", "IriStemRange", "LiteralStem", "LiteralStemRange", "Language", "LanguageStem",
    "LanguageStemRange"]

/-- The fields of a stem range. -/
def rangeFields : List Field := [.plain "stem", .defaulted "exclusions"]

/-- A value is written as a stem range, with a value in the place of its stem and with exclusions
that can be read. -/
def IsRange (kind : RangeKind) (v stem : Json) (exclusions : List StemExclusion) : Prop :=
  ∃ rest x, variant? stemTags v = some (kind.tag, rest) ∧ IsRecord rangeFields rest x ∧
    x "stem" = some stem ∧
    ((x "exclusions" = none ∧ [] = exclusions) ∨
      ∃ list, x "exclusions" = some list ∧ list? exclusion? list = some exclusions)

/-- The stem that a value stands for: a string for its text, any other value for the empty one. -/
def StandsFor (v : Json) (stem : String) : Prop :=
  v = .string stem ∨ ((∀ s, v ≠ .string s) ∧ stem = "")

/-- A value is written as the wildcard. -/
def IsWildcard (v : Json) : Prop :=
  ∃ members, v = .object members ∧ Names members "type" (some (.string "Wildcard"))

/-! ## Reading stem ranges -/

/-- In the place of a stem every value can be read, a string as it stands and the others as
empty. -/
theorem stemOrWildcard?_eq_some_iff {v : Json} {stem : String} :
    stemOrWildcard? v = some stem ↔ StandsFor v stem := by
  unfold StandsFor
  cases v <;> simp [stemOrWildcard?, eq_comm]

/-- The fields of a stem range are read exactly as they are written. -/
theorem stemRange?_eq_some_iff {v : Json} {stem : String} {exclusions : List StemExclusion} :
    stemRange? v = some (stem, exclusions) ↔ ∃ x j, IsRecord rangeFields v x ∧
      x "stem" = some j ∧ StandsFor j stem ∧
      ((x "exclusions" = none ∧ [] = exclusions) ∨
        ∃ list, x "exclusions" = some list ∧ list? exclusion? list = some exclusions) := by
  have hfields : (rangeFields.map (·.name)).Nodup := by decide
  constructor
  · intro h
    obtain ⟨r, hr, h⟩ := Option.bind_eq_some_iff.1 h
    obtain ⟨stem', hstem, h⟩ := Option.bind_eq_some_iff.1 h
    obtain ⟨exclusions', hexclusions, h⟩ := Option.bind_eq_some_iff.1 h
    cases h
    obtain ⟨j, hj, hstem⟩ := required?_eq_some_iff.1 hstem
    exact ⟨_, j, isRecord_slots hfields hr, hj, stemOrWildcard?_eq_some_iff.1 hstem,
      orDefault?_eq_some_iff.1 hexclusions⟩
  · rintro ⟨x, j, hrecord, hj, hstem, hexclusions⟩
    obtain ⟨r, hr, hslots⟩ := (isRecord_iff hfields).1 hrecord
    simp only [rangeFields, List.forall_mem_cons] at hslots
    obtain ⟨hs, he, -⟩ := hslots
    refine Option.bind_eq_some_iff.2 ⟨r, hr, ?_⟩
    refine Option.bind_eq_some_iff.2 ⟨stem, ?_, ?_⟩
    · exact required?_eq_some_iff.2 ⟨j, hs.trans hj, stemOrWildcard?_eq_some_iff.2 hstem⟩
    · have he : r.slots.lookup "exclusions" = x "exclusions" := he
      refine Option.bind_eq_some_iff.2 ⟨exclusions, orDefault?_eq_some_iff.2 ?_, rfl⟩
      rwa [he]

/-- An entry is read as a stem range by its tag. -/
theorem stemValue?_eq_range_iff {kind : RangeKind} {v : Json} {stem : String}
    {exclusions : List StemExclusion} : stemValue? v = some (kind.range stem exclusions) ↔
      ∃ rest, variant? stemTags v = some (kind.tag, rest) ∧
        stemRange? rest = some (stem, exclusions) := by
  constructor
  · intro h
    obtain ⟨variant, hvariant, h⟩ := Option.bind_eq_some_iff.1 h
    split at h
    · obtain ⟨s, -, heq⟩ := Option.map_eq_some_iff.1 h
      cases kind <;> cases heq
    · obtain ⟨⟨s, es⟩, hrange, heq⟩ := Option.map_eq_some_iff.1 h
      cases kind <;> cases heq
      exact ⟨_, hvariant, hrange⟩
    · obtain ⟨s, -, heq⟩ := Option.map_eq_some_iff.1 h
      cases kind <;> cases heq
    · obtain ⟨⟨s, es⟩, hrange, heq⟩ := Option.map_eq_some_iff.1 h
      cases kind <;> cases heq
      exact ⟨_, hvariant, hrange⟩
    · obtain ⟨s, -, heq⟩ := Option.map_eq_some_iff.1 h
      cases kind <;> cases heq
    · obtain ⟨s, -, heq⟩ := Option.map_eq_some_iff.1 h
      cases kind <;> cases heq
    · obtain ⟨⟨s, es⟩, hrange, heq⟩ := Option.map_eq_some_iff.1 h
      cases kind <;> cases heq
      exact ⟨_, hvariant, hrange⟩
    · cases h
  · rintro ⟨rest, hvariant, hrange⟩
    refine Option.bind_eq_some_iff.2 ⟨_, hvariant, ?_⟩
    cases kind <;> simp [RangeKind.tag, RangeKind.range, hrange]

/-- What is read as an entry with a stem or a language has a tag. -/
theorem value?_eq_stem_iff {v : Json} {value : ValueSetValue} :
    value? v = some (.stem value) ↔ stemValue? v = some value := by
  unfold value?
  split
  · exact ⟨nofun, nofun⟩
  · constructor
    · intro h
      rcases Option.or_eq_some_iff.1 h with h | ⟨-, h⟩
      · obtain ⟨value', hvalue, heq⟩ := Option.map_eq_some_iff.1 h
        cases heq
        exact hvalue
      · obtain ⟨l, -, heq⟩ := Option.map_eq_some_iff.1 h
        cases heq
    · intro h
      rw [h]
      rfl

/-- A value is read as a stem range if it is written as one whose stem it has. -/
theorem value?_eq_range_iff {kind : RangeKind} {v : Json} {stem : String}
    {exclusions : List StemExclusion} :
    value? v = some (.stem (kind.range stem exclusions)) ↔
      ∃ j, IsRange kind v j exclusions ∧ StandsFor j stem := by
  rw [value?_eq_stem_iff, stemValue?_eq_range_iff]
  constructor
  · rintro ⟨rest, hvariant, hrange⟩
    obtain ⟨x, j, hrecord, hj, hstem, hexclusions⟩ := stemRange?_eq_some_iff.1 hrange
    exact ⟨j, ⟨rest, x, hvariant, hrecord, hj, hexclusions⟩, hstem⟩
  · rintro ⟨j, ⟨rest, x, hvariant, hrecord, hj, hexclusions⟩, hstem⟩
    exact ⟨rest, hvariant, stemRange?_eq_some_iff.2 ⟨x, j, hrecord, hj, hstem, hexclusions⟩⟩

/-! ## Stems -/

namespace StandsFor

variable {j : Json} {stem : String}

/-- A value stands for the empty stem if it is the empty string or no string. -/
theorem eq_empty_iff (h : StandsFor j stem) : stem = "" ↔ j = .string "" ∨ ∀ s, j ≠ .string s := by
  rcases h with rfl | ⟨hno, rfl⟩
  · simp
  · exact ⟨fun _ => .inr hno, fun _ => rfl⟩

/-- The empty stem stands for nothing but the empty string and the wildcard only where a string or
the wildcard is written. -/
theorem kept_iff (h : StandsFor j stem) : (stem = "" → j = .string "" ∨ IsWildcard j) ↔
    (∃ text, j = .string text) ∨ IsWildcard j := by
  constructor
  · intro hkept
    by_cases htext : ∃ text, j = .string text
    · exact .inl htext
    · have hno : ∀ text, j ≠ .string text := fun text hj => htext ⟨text, hj⟩
      rcases hkept (h.eq_empty_iff.2 (.inr hno)) with hj | hj
      · exact absurd hj (hno "")
      · exact .inr hj
  · rintro (⟨text, rfl⟩ | hj) hempty
    · rcases h.eq_empty_iff.1 hempty with hj | hno
      · exact .inl hj
      · exact absurd rfl (hno text)
    · exact .inr hj

/-- Every value stands for a stem. -/
theorem exists_stem (j : Json) : ∃ stem, StandsFor j stem := by
  by_cases h : ∃ s, j = .string s
  · obtain ⟨s, rfl⟩ := h
    exact ⟨s, .inl rfl⟩
  · exact ⟨"", .inr ⟨fun s hs => h ⟨s, hs⟩, rfl⟩⟩

end StandsFor

/-- The value set entries of a node constraint are read from parts of the document. -/
theorem Document.exists_value?_of_contains {root : Json} {d : Document}
    (h : Document.ofJson? root = some d) {id : Option String} {c : NodeEntry}
    (hc : d.Contains (.shape (.node id c))) {entries : List ValueEntry}
    (hentries : c.values = some entries) :
    ∀ entry ∈ entries, ∃ item, item.Within root ∧ value? item = some entry := by
  obtain ⟨v, hv, hread⟩ := exists_node?_of_contains h hc
  obtain ⟨r, id', c', hr, heq, hvalues, -⟩ := exists_fields_of_node? hread
  cases heq
  intro entry hentry
  obtain ⟨list, hslot, hlist⟩ := exists_of_optional? hvalues entries hentries
  obtain ⟨item, hitem, hread⟩ := exists_of_list? hlist entry hentry
  exact ⟨item, (hv list (mem_parts_of_lookup hr hslot)).part hitem, hread⟩

/-- A stem range of a constraint is an entry of what is written for it. -/
theorem exists_entry_of_expression {c : NodeEntry} {nc : NodeConstraint}
    (h : c.expression = .ok (.node nc)) {kind : RangeKind} {stem : String}
    {exclusions : List StemExclusion} (hrange : kind.range stem exclusions ∈ nc.values) :
    ∃ entries, c.values = some entries ∧ .stem (kind.range stem exclusions) ∈ entries := by
  rcases c.expression_cases h with ⟨-, heq⟩ | ⟨nc', heq, -, hvalues⟩
  · cases heq
  cases heq
  obtain ⟨entry, hentry, hvalue⟩ := (exists_of_forall₂ (mapM_eq_ok_iff.1 hvalues)).2 _ hrange
  have hstem : entry = .stem (kind.range stem exclusions) := by
    cases entry with
    | stem value =>
      cases hvalue
      rfl
    | iri text =>
      obtain ⟨i, -, hvalue⟩ := exists_of_bind_eq_ok hvalue
      cases kind <;> cases hvalue
    | literal l =>
      obtain ⟨l, -, hvalue⟩ := exists_of_bind_eq_ok hvalue
      cases kind <;> cases hvalue
  cases hc : c.values with
  | none =>
    rw [hc] at hentry
    cases hentry
  | some entries =>
    rw [hc] at hentry
    exact ⟨entries, rfl, hstem ▸ hentry⟩

/-- A stem range of a loaded schema is read from a part of the document. -/
theorem exists_item_of_load {text : List Symbol} {s : Schema} (h : load text = .ok s) :
    ∃ root, read? schemaLayout text = some root ∧
      ∀ nc ∈ s.constraints, ∀ (kind : RangeKind) (stem : String) (exclusions : List StemExclusion),
        kind.range stem exclusions ∈ nc.values →
          ∃ item, item.Within root ∧ value? item = some (.stem (kind.range stem exclusions)) := by
  unfold load at h
  split at h
  · cases h
  · next d hd =>
    obtain ⟨root, hread, hroot⟩ := Option.bind_eq_some_iff.1 hd
    refine ⟨root, hread, fun nc hnc kind stem exclusions hrange => ?_⟩
    obtain ⟨id, c, hcontains, hc⟩ := Document.exists_entry_of_load h nc hnc
    obtain ⟨entries, hentries, hentry⟩ := exists_entry_of_expression hc hrange
    exact Document.exists_value?_of_contains hroot hcontains hentries _ hentry

/-- What becomes of the stem of a stem range.

In a schema that is loaded, a stem range has got its stem from a value of the document: the text of
a string, and from any other value the empty stem.  So the stem is empty if and only if the value is
the empty string or no string.  That it is empty only for the empty string and for the wildcard is
true of ranges that are written with a string or with the wildcard, and of no others.  No value in
the place of a stem makes an entry unreadable. -/
theorem emptyStem_iff (text : List Symbol) (s : Schema) (h : load text = .ok s) :
    (∃ root, read? schemaLayout text = some root ∧
      ∀ nc ∈ s.constraints, ∀ (kind : RangeKind) (stem : String) (exclusions : List StemExclusion),
        kind.range stem exclusions ∈ nc.values →
          ∃ item j, item.Within root ∧ IsRange kind item j exclusions ∧ StandsFor j stem ∧
            (stem = "" ↔ j = .string "" ∨ ∀ text, j ≠ .string text) ∧
            ((stem = "" → j = .string "" ∨ IsWildcard j) ↔
              (∃ text, j = .string text) ∨ IsWildcard j)) ∧
    ∀ (kind : RangeKind) (item j : Json) (exclusions : List StemExclusion),
      IsRange kind item j exclusions →
        ∃ stem, StandsFor j stem ∧ value? item = some (.stem (kind.range stem exclusions)) := by
  constructor
  · obtain ⟨root, hread, hitems⟩ := exists_item_of_load h
    refine ⟨root, hread, fun nc hnc kind stem exclusions hrange => ?_⟩
    obtain ⟨item, hitem, hvalue⟩ := hitems nc hnc kind stem exclusions hrange
    obtain ⟨j, hj, hstem⟩ := value?_eq_range_iff.1 hvalue
    exact ⟨item, j, hitem, hj, hstem, hstem.eq_empty_iff, hstem.kept_iff⟩
  · intro kind item j exclusions hj
    obtain ⟨stem, hstem⟩ := StandsFor.exists_stem j
    exact ⟨stem, hstem, value?_eq_range_iff.2 ⟨j, hj, hstem⟩⟩

/-! ## Two documents -/

/-- A document with one stem range, with a text in the place of its stem. -/
def rangeDocument (stem : String) : List Symbol :=
  let text :=
    "\x7b\"shapes\":[\x7b\"type\":\"NodeConstraint\",\"id\":\"a:S\",\"values\":[" ++
      "\x7b\"type\":\"IriStemRange\",\"stem\":" ++ stem ++ "\x7d]\x7d]\x7d"
  text.toList.map some

/-- The stem range of such a document. -/
def rangeItem (stem : Json) : Json :=
  .object [("type", .string "IriStemRange"), ("stem", stem)]

/-- The item of the examples is written as a stem range for IRIs, without exclusions. -/
theorem isRange_rangeItem (stem : Json) : IsRange .iri (rangeItem stem) stem [] := by
  refine ⟨.object [("stem", stem)], fun name => if name = "stem" then some stem else none, rfl,
    .object fun f hf => ?_, rfl, .inl ⟨rfl, rfl⟩⟩
  simp only [rangeFields, List.mem_cons, List.not_mem_nil, or_false] at hf
  rcases hf with rfl | rfl
  · rfl
  · rfl

/-- If a document loads with the empty stem alone, the constraint with it is there. -/
theorem exists_load_rangeDocument (stem : String)
    (h : (load (rangeDocument stem)).toOption.map (fun s => s.constraints.map (·.values)) =
      some [[.iriStemRange "" []]]) :
    ∃ s nc, load (rangeDocument stem) = .ok s ∧ nc ∈ s.constraints ∧
      nc.values = [.iriStemRange "" []] := by
  obtain ⟨s, hs, hvalues⟩ := Option.map_eq_some_iff.1 h
  obtain ⟨nc, hconstraints, hvalues⟩ := List.map_eq_singleton_iff.1 hvalues
  exact ⟨s, nc, eq_ok_of_toOption_eq_some hs, hconstraints ▸ List.mem_singleton_self nc, hvalues⟩

/-- The wildcard is read as the empty stem. -/
theorem emptyStem_iff_wildcard :
    ∃ s nc root item j, load (rangeDocument "\x7b\"type\":\"Wildcard\"\x7d") = .ok s ∧
      nc ∈ s.constraints ∧ nc.values = [.iriStemRange "" []] ∧
      read? schemaLayout (rangeDocument "\x7b\"type\":\"Wildcard\"\x7d") = some root ∧
      item.Within root ∧ IsRange .iri item j [] ∧ (j = .string "" ∨ ∀ text, j ≠ .string text) ∧
      ∃ stem, StandsFor (.object [("type", .string "Wildcard")]) stem ∧
        value? (rangeItem (.object [("type", .string "Wildcard")])) =
          some (.stem (.iriStemRange stem [])) := by
  obtain ⟨s, nc, hload, hnc, hvalues⟩ :=
    exists_load_rangeDocument "\x7b\"type\":\"Wildcard\"\x7d" (by decide +kernel)
  obtain ⟨⟨root, hroot, hitems⟩, hread⟩ := emptyStem_iff _ s hload
  have hmem : RangeKind.iri.range "" [] ∈ nc.values := hvalues ▸ List.mem_singleton_self _
  obtain ⟨item, j, hitem, hj, -, hempty, -⟩ := hitems nc hnc .iri "" [] hmem
  exact ⟨s, nc, root, item, j, hload, hnc, hvalues, hroot, hitem, hj, hempty.1 rfl,
    hread .iri _ _ [] (isRange_rangeItem _)⟩

/-- With a number in the place of its stem a range is loaded, and every IRI is in it. -/
theorem emptyStem_of_number :
    ∃ s nc, load (rangeDocument "5") = .ok s ∧ nc ∈ s.constraints ∧
      nc.values = [.iriStemRange "" []] ∧
      (∀ i : Rdf.Iri, ValueSetValue.contains (.iri i) (.iriStemRange "" []) = true) ∧
      IsRange .iri (rangeItem (.integer 5)) (.integer 5) [] ∧
      value? (rangeItem (.integer 5)) = some (.stem (.iriStemRange "" [])) ∧
      Json.integer 5 ≠ .string "" ∧ ¬IsWildcard (.integer 5) := by
  obtain ⟨s, nc, hload, hnc, hvalues⟩ := exists_load_rangeDocument "5" (by decide +kernel)
  have hrange := isRange_rangeItem (.integer 5)
  have hstem : StandsFor (.integer 5) "" := .inr ⟨nofun, rfl⟩
  refine ⟨s, nc, hload, hnc, hvalues, fun i => ?_, hrange, ?_, nofun, ?_⟩
  · rfl
  · exact value?_eq_range_iff.2 ⟨.integer 5, hrange, hstem⟩
  · rintro ⟨members, heq, -⟩
    cases heq

end ShEx.ShExJ
