import ShEx.Json.Record
import ShEx.Proofs.Correspondence
import Mathlib.Data.List.Nodup
import Mathlib.Logic.Relation

/-!
# Records as they are written

`Record.of?` takes a value apart, and what is read of it is looked up in the slots that it finds.
`IsRecord` says without it which values are records with certain fields, and what stands in each of
them; the two agree (`isRecord_iff`).  An object may have other members, which do not matter even
if they repeat; a field that is named twice makes it no record.
-/

set_option autoImplicit false

namespace ShEx.Json

/-- A name comes at most once among the members of an object, with this value if at all. -/
def Names (members : List (String × Json)) (name : String) (x : Option Json) : Prop :=
  (members.filter fun m => m.1 = name).map (·.2) = x.toList

/-- A value is a record with certain fields, and these stand in them.  As an array it lists the
values in the order of the fields, and may end before fields that all have defaults. -/
inductive IsRecord (fields : List Field) : Json → (String → Option Json) → Prop
  | object {members : List (String × Json)} {x : String → Option Json}
      (h : ∀ f ∈ fields, Names members f.name (x f.name)) : IsRecord fields (.object members) x
  | array {items : List Json} {x : String → Option Json} (hlength : items.length ≤ fields.length)
      (hdefault : ∀ f ∈ fields.drop items.length, f.hasDefault = true)
      (h : ∀ i (hi : i < fields.length), x fields[i].name = items[i]?) :
      IsRecord fields (.array items) x

/-! ## Members of an object -/

section Members

variable {members : List (String × Json)} {name : String} {x : Option Json}

/-- Looking a name up finds the first of the values that it has. -/
theorem lookup_eq_head? (members : List (String × Json)) (name : String) :
    members.lookup name = ((members.filter fun m => m.1 = name).map (·.2)).head? := by
  induction members with
  | nil => rfl
  | cons m rest ih =>
    obtain ⟨field, v⟩ := m
    by_cases h : field = name
    · subst h
      rw [List.lookup_cons_self, List.filter_cons_of_pos (by simp)]
      rfl
    · have hne : (name == field) = false := beq_false_of_ne (Ne.symm h)
      rw [List.lookup_cons, hne, List.filter_cons_of_neg (by simpa using h)]
      exact ih

/-- A name comes as often among the members as there are members with it. -/
theorem count_eq_length_filter (members : List (String × Json)) (name : String) :
    (members.map (·.1)).count name = (members.filter fun m => m.1 = name).length := by
  rw [List.count_eq_countP, List.countP_map, List.countP_eq_length_filter]
  rfl

/-- A list has one value or none if it is not longer and its first value, if any, is this one. -/
theorem eq_toList_iff {α : Type} {l : List α} {x : Option α} :
    l = x.toList ↔ l.length ≤ 1 ∧ l.head? = x := by
  cases x <;> cases l <;> simp [and_comm]

/-- A name comes with a value if it does not come twice and the value is the one that is looked
up. -/
theorem names_iff : Names members name x ↔
    (members.map (·.1)).count name ≤ 1 ∧ members.lookup name = x := by
  rw [Names, eq_toList_iff, List.length_map, ← count_eq_length_filter, ← lookup_eq_head?]

/-- The members that are fields have the members with the name of a field among them. -/
theorem filter_known {fields : List Field} {f : Field} (hf : f ∈ fields)
    (members : List (String × Json)) :
    ((members.filter fun m => fields.any fun f => f.name = m.1).filter fun m => m.1 = f.name) =
      members.filter fun m => m.1 = f.name := by
  rw [List.filter_filter]
  refine List.filter_congr fun m _ => ?_
  simp only [Bool.and_eq_left_iff_imp, decide_eq_true_eq, List.any_eq_true]
  exact fun h => ⟨f, hf, h.symm⟩

/-- No field is named twice if and only if each one is named once at most. -/
theorem nodup_known_iff (fields : List Field) (members : List (String × Json)) :
    ((members.filter fun m => fields.any fun f => f.name = m.1).map (·.1)).Nodup ↔
      ∀ f ∈ fields, (members.map (·.1)).count f.name ≤ 1 := by
  rw [List.nodup_iff_count_le_one]
  constructor
  · intro h f hf
    have hcount := h f.name
    rwa [count_eq_length_filter, filter_known hf, ← count_eq_length_filter] at hcount
  · intro h name
    by_cases hname : ∃ f ∈ fields, f.name = name
    · obtain ⟨f, hf, rfl⟩ := hname
      rw [count_eq_length_filter, filter_known hf, ← count_eq_length_filter]
      exact h f hf
    · refine le_of_eq_of_le (List.count_eq_zero_of_not_mem fun hmem => hname ?_) (Nat.zero_le 1)
      obtain ⟨m, hm, rfl⟩ := List.mem_map.1 hmem
      simpa using (List.mem_filter.1 hm).2

end Members

/-! ## Items of an array -/

/-- Among values in the order of the fields, a field has the value in its place, if the array
reaches that far. -/
theorem lookup_zip {names : List String} (hnames : names.Nodup) (items : List Json) {i : Nat}
    (hi : i < names.length) : (names.zip items).lookup names[i] = items[i]? := by
  induction names generalizing items i with
  | nil => cases hi
  | cons name rest ih =>
    obtain ⟨hname, hrest⟩ := List.nodup_cons.1 hnames
    cases items with
    | nil => rfl
    | cons v items =>
      cases i with
      | zero => exact List.lookup_cons_self
      | succ i =>
        have hi : i < rest.length := Nat.lt_of_succ_lt_succ hi
        have hne : (rest[i] == name) = false := by
          refine beq_false_of_ne fun h => hname ?_
          exact h ▸ List.getElem_mem hi
        rw [List.getElem_cons_succ, List.zip_cons_cons, List.lookup_cons, hne,
          List.getElem?_cons_succ]
        exact ih hrest items hi

/-! ## Records -/

/-- A value is a record if it can be taken apart into slots with these values. -/
theorem isRecord_iff {fields : List Field} (hfields : (fields.map (·.name)).Nodup) {v : Json}
    {x : String → Option Json} : IsRecord fields v x ↔
      ∃ r, Record.of? fields v = some r ∧ ∀ f ∈ fields, r.slots.lookup f.name = x f.name := by
  constructor
  · intro h
    -- An object has its members by name, an array by position.
    cases h with
    | @object members x h =>
      have hnames := fun f hf => names_iff.1 (h f hf)
      refine ⟨_, if_pos ((nodup_known_iff fields members).2 fun f hf => (hnames f hf).1), ?_⟩
      intro f hf
      rw [lookup_eq_head?, filter_known hf, ← lookup_eq_head?]
      exact (hnames f hf).2
    | @array items x hlength hdefault h =>
      refine ⟨_, if_pos ?_, ?_⟩
      · rw [Bool.and_eq_true, decide_eq_true_iff, List.all_eq_true]
        exact ⟨hlength, hdefault⟩
      · intro f hf
        obtain ⟨i, hi, rfl⟩ := List.getElem_of_mem hf
        have hlookup := lookup_zip hfields items (i := i) (by simpa using hi)
        rw [List.getElem_map] at hlookup
        rw [h i hi]
        exact hlookup
  · rintro ⟨r, hr, h⟩
    cases v with
    | object members =>
      obtain ⟨hnodup, hr⟩ := Option.ite_none_right_eq_some.1 hr
      cases hr
      refine .object fun f hf => names_iff.2 ⟨(nodup_known_iff fields members).1 hnodup f hf, ?_⟩
      rw [← h f hf, lookup_eq_head?, ← filter_known hf, ← lookup_eq_head?]
    | array items =>
      obtain ⟨hfits, hr⟩ := Option.ite_none_right_eq_some.1 hr
      cases hr
      rw [Bool.and_eq_true, decide_eq_true_iff, List.all_eq_true] at hfits
      refine .array hfits.1 hfits.2 fun i hi => ?_
      have hlookup := lookup_zip hfields items (i := i) (by simpa using hi)
      rw [List.getElem_map] at hlookup
      rw [← h _ (List.getElem_mem hi), ← hlookup]
    | _ => cases hr

/-- The slots that are read are what stands in the fields. -/
theorem isRecord_slots {fields : List Field} (hfields : (fields.map (·.name)).Nodup) {v : Json}
    {r : Record} (h : Record.of? fields v = some r) :
    IsRecord fields v fun name => r.slots.lookup name :=
  (isRecord_iff hfields).2 ⟨r, h, fun _ _ => rfl⟩

/-! ## Fields -/

section Fields

variable {α : Type} {r : Record} {name : String} {read : Json → Option α}

/-- A field that must be there is read if it is there and its value can be read. -/
theorem required?_eq_some_iff {a : α} : r.required? name read = some a ↔
    ∃ v, r.slots.lookup name = some v ∧ read v = some a := Option.bind_eq_some_iff

/-- Only texts are read as texts. -/
theorem string?_eq_some_iff {v : Json} {s : String} : string? v = some s ↔ v = .string s := by
  cases v <;> simp [string?]

/-- A text that must be there is read if the field has a text. -/
theorem required?_string_iff {s : String} :
    r.required? name string? = some s ↔ r.slots.lookup name = some (.string s) := by
  simp only [required?_eq_some_iff, string?_eq_some_iff, exists_eq_right]

/-- What is read of a field that may be missing or null is read of the value in it. -/
theorem exists_of_optional? {found : Option α} (h : r.optional? name read = some found) :
    ∀ a ∈ found, ∃ v, r.slots.lookup name = some v ∧ read v = some a := by
  intro a ha
  unfold Record.optional? at h
  split at h
  · cases h
    cases ha
  · cases h
    cases ha
  · next v _ hslot =>
    obtain ⟨a', ha', rfl⟩ := Option.map_eq_some_iff.1 h
    obtain rfl := Option.mem_some_iff.1 ha
    exact ⟨v, hslot, ha'⟩

/-- What is read of a field that may be missing is the default or read of the value in it. -/
theorem orDefault?_eq_some_iff {a default : α} : r.orDefault? name default read = some a ↔
    (r.slots.lookup name = none ∧ default = a) ∨
      ∃ v, r.slots.lookup name = some v ∧ read v = some a := by
  unfold Record.orDefault?
  cases r.slots.lookup name <;> simp

end Fields

/-! ## Lists -/

/-- A list is read item by item. -/
theorem list?_eq_some_iff {α : Type} {read : Json → Option α} {v : Json} {as : List α} :
    list? read v = some as ↔
      ∃ items, v = .array items ∧ List.Forall₂ (fun item a => read item = some a) items as := by
  cases v with
  | array items =>
    refine mapM_eq_some_iff.trans ⟨fun h => ⟨items, rfl, h⟩, ?_⟩
    rintro ⟨items', hitems, h⟩
    cases hitems
    exact h
  | _ => exact ⟨nofun, nofun⟩

/-! ## Parts of a value -/

/-- The values that stand directly in a value. -/
def parts : Json → List Json
  | .array items => items
  | .object members => members.map (·.2)
  | _ => []

/-- A value stands in another one, or is it. -/
def Within (x v : Json) : Prop := Relation.ReflTransGen (fun v part => part ∈ v.parts) v x

/-- What is part of something inside a value is inside it too. -/
theorem Within.part {x part root : Json} (h : x.Within root) (hpart : part ∈ x.parts) :
    part.Within root := h.tail hpart

/-- What is looked up is one of the members. -/
theorem mem_of_lookup {slots : List (String × Json)} {name : String} {v : Json}
    (h : slots.lookup name = some v) : (name, v) ∈ slots := by
  rw [lookup_eq_head?] at h
  obtain ⟨m, hm, rfl⟩ := List.mem_map.1 (List.mem_of_mem_head? (Option.mem_def.2 h))
  obtain ⟨hm, hname⟩ := List.mem_filter.1 hm
  rw [decide_eq_true_eq] at hname
  exact hname ▸ hm

/-- The value in a field of a record is a part of the record. -/
theorem mem_parts_of_lookup {fields : List Field} {v x : Json} {r : Record} {name : String}
    (hr : Record.of? fields v = some r) (hx : r.slots.lookup name = some x) : x ∈ v.parts := by
  have hmem := mem_of_lookup hx
  cases v with
  | object members =>
    obtain ⟨-, hr⟩ := Option.ite_none_right_eq_some.1 hr
    cases hr
    exact List.mem_map_of_mem (f := Prod.snd) (List.mem_of_mem_filter hmem)
  | array items =>
    obtain ⟨-, hr⟩ := Option.ite_none_right_eq_some.1 hr
    cases hr
    exact (List.of_mem_zip hmem).2
  | _ => cases hr

/-- The parts of a tagged record without its tag are parts of it. -/
theorem parts_subset_of_variant? {names : List String} {v rest : Json} {name : String}
    (h : variant? names v = some (name, rest)) : rest.parts ⊆ v.parts := by
  obtain ⟨⟨tag, rest'⟩, htagged, h⟩ := Option.bind_eq_some_iff.1 h
  obtain ⟨name', -, h⟩ := Option.bind_eq_some_iff.1 h
  cases h
  unfold tagged? at htagged
  split at htagged
  · next members =>
    split at htagged
    · next hpartition =>
      cases htagged
      rw [List.partition_eq_filter_filter, Prod.mk.injEq] at hpartition
      refine List.map_subset _ ?_
      rw [← hpartition.2]
      exact List.filter_subset_self _
    · cases htagged
  · cases htagged
    exact List.subset_cons_self _ _
  · cases htagged

/-- What is read of a list is read of its items. -/
theorem exists_of_list? {α : Type} {read : Json → Option α} {v : Json} {as : List α}
    (h : list? read v = some as) : ∀ a ∈ as, ∃ item ∈ v.parts, read item = some a := by
  obtain ⟨items, rfl, hitems⟩ := list?_eq_some_iff.1 h
  exact (exists_of_forall₂ hitems).2

end ShEx.Json
