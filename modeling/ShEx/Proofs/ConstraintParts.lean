import ShEx.Proofs.Failures
import ShEx.Proofs.Numbering

/-!
# The parts of a node constraint

A node constraint is looked at part by part: the kind of the node, the set of values, the facets of
the string one after the other, the datatype, the facets of the number.  The first part that fails
ends this, and what a part asks of a node differs: a blank node has no string, and a facet of the
number asks for a literal that denotes one, whether or not there is a datatype.

Still a constraint is the conjunction of its parts (`NodeConstraint.evaluate_conjunction`), each of
them a constraint of its own (`NodeConstraint.IsPart`).  So it does not matter in which order facets
and values are listed, how often one is listed, and which patterns are known beforehand.
-/

set_option autoImplicit false

namespace ShEx

open ShEx.Rdf ShEx.Datatype

/-! ## Facets -/

/-- A node satisfies facets of its number if there are none, or it is a literal that denotes a
number with which each of them holds. -/
theorem numbersHold_eq_true_iff {node : Term} {facets : List NumericFacet} :
    numbersHold node facets = true ↔ facets = [] ∨ ∃ l value, node.literal? = some l ∧
      parseNumeric l = some value ∧ ∀ facet ∈ facets, facet.holds l value = true := by
  unfold numbersHold
  rw [Bool.or_eq_true, List.isEmpty_iff]
  refine or_congr_right ?_
  cases node.literal? with
  | none => simp
  | some l =>
    dsimp only
    cases hvalue : parseNumeric l with
    | none => simp [hvalue]
    | some value => simp [hvalue, List.all_eq_true]

/-- A node satisfies facets of its number if it satisfies each of them. -/
theorem numbersHold_iff_forall {node : Term} {facets : List NumericFacet} :
    numbersHold node facets = true ↔ ∀ facet ∈ facets, numbersHold node [facet] = true := by
  simp only [numbersHold_eq_true_iff, List.cons_ne_nil, false_or, List.mem_singleton, forall_eq]
  constructor
  · rintro (rfl | ⟨l, value, hl, hvalue, hall⟩) facet hfacet
    · cases hfacet
    · exact ⟨l, value, hl, hvalue, hall facet hfacet⟩
  · intro h
    cases facets with
    | nil => exact .inl rfl
    | cons first rest =>
      -- The first facet says what the number is, for all of them.
      obtain ⟨l, value, hl, hvalue, -⟩ := h first List.mem_cons_self
      refine .inr ⟨l, value, hl, hvalue, fun facet hfacet => ?_⟩
      obtain ⟨l', value', hl', hvalue', hholds⟩ := h facet hfacet
      cases hl.symm.trans hl'
      cases hvalue.symm.trans hvalue'
      exact hholds

/-- A text satisfies several facets if it satisfies each of them, whatever patterns are known. -/
theorem stringsEvaluate_eq_true_iff {limit : Nat} {text : String} {facets : List StringFacet}
    {known : KnownPatterns} (hknown : PatternsSound limit known) :
    (stringsEvaluate limit text known facets).1 = .ok true ↔
      ∀ facet ∈ facets, (facet.evaluate limit text []).1 = .ok true := by
  induction facets generalizing known with
  | nil => exact ⟨fun _ => nofun, fun _ => rfl⟩
  | cons facet facets ih =>
    obtain ⟨hfirst, hlater⟩ := facet.evaluate_sound limit text known hknown
    dsimp only at hfirst hlater
    rw [List.forall_mem_cons, ← hfirst]
    simp only [stringsEvaluate]
    split
    · next later heq =>
      rw [heq] at hlater ⊢
      rw [ih hlater]
      exact (and_iff_right rfl).symm
    · next hnot =>
      refine ⟨fun h => (hnot _ (Prod.ext h rfl)).elim, fun h => h.1⟩

namespace NodeConstraint

variable {limit : Nat} {node : Term}

/-! ## Parts -/

/-- A constraint that keeps one part of another one. -/
inductive IsPart (c : NodeConstraint) : NodeConstraint → Prop
  | kind {k : NodeKind} (h : c.kind = some k) : IsPart c { any with kind := some k }
  | values (h : c.values ≠ []) : IsPart c { any with values := c.values }
  | string {facet : StringFacet} (h : facet ∈ c.strings) : IsPart c { any with strings := [facet] }
  | datatype {d : Iri} (h : c.datatype = some d) : IsPart c { any with datatype := some d }
  | number {facet : NumericFacet} (h : facet ∈ c.numbers) :
      IsPart c { any with numbers := [facet] }

/-- Two constraints ask for the same, with facets and values in any order and each as often as one
likes. -/
structure SameParts (c c' : NodeConstraint) : Prop where
  kind : c'.kind = c.kind
  values : ∀ v, v ∈ c'.values ↔ v ∈ c.values
  strings : ∀ facet, facet ∈ c'.strings ↔ facet ∈ c.strings
  datatype : c'.datatype = c.datatype
  numbers : ∀ facet, facet ∈ c'.numbers ↔ facet ∈ c.numbers

/-- All patterns of a constraint are compiled within a limit. -/
def Compiles (limit : Nat) (c : NodeConstraint) : Prop :=
  ∀ facet, .pattern facet ∈ c.strings → ∃ regex, Pattern.compileWithin limit facet = .ok regex

/-! ## Evaluation by parts -/

/-- A node satisfies a facet of its string. -/
def StringHolds (limit : Nat) (node : Term) (facet : StringFacet) : Prop :=
  ∃ text, node.string? = some text ∧ (facet.evaluate limit text []).1 = .ok true

/-- The facets of the string are satisfied if a node has a string that satisfies each of them;
without facets it need not have one. -/
theorem evaluateStrings_eq_true_iff {c : NodeConstraint} {known : KnownPatterns}
    (hknown : PatternsSound limit known) :
    (c.evaluateStrings limit node known).1 = .ok true ↔
      ∀ facet ∈ c.strings, StringHolds limit node facet := by
  unfold evaluateStrings StringHolds
  cases hstrings : c.strings with
  | nil => simp
  | cons first rest =>
    cases node.string? with
    | none =>
      refine ⟨nofun, fun h => ?_⟩
      obtain ⟨_, hnone, -⟩ := h first List.mem_cons_self
      cases hnone
    | some text =>
      dsimp only
      rw [stringsEvaluate_eq_true_iff hknown]
      simp only [Option.some.injEq, exists_eq_left']

/-- The five stages of an evaluation, without their order. -/
theorem evaluate_eq_true_iff {c : NodeConstraint} {known : KnownPatterns}
    (hknown : PatternsSound limit known) :
    (c.evaluate limit node known).1 = .ok true ↔
      c.admits node = true ∧ (∀ facet ∈ c.strings, StringHolds limit node facet) ∧
        c.typeHolds node = true := by
  rw [← evaluateStrings_eq_true_iff (c := c) hknown]
  unfold evaluate
  cases c.admits node with
  | false => simp
  | true =>
    simp only [Bool.not_true, Bool.false_eq_true, if_false, true_and]
    split
    · next later heq => simp [heq]
    · next hnot =>
      constructor
      · intro h
        exact (hnot _ (Prod.ext h rfl)).elim
      · exact fun h => h.1

/-- The kind, the values and the datatype are looked at in one piece each, the facets one by one. -/
theorem forall_isPart_iff {c : NodeConstraint} {P : NodeConstraint → Prop} :
    (∀ p, c.IsPart p → P p) ↔
      ((∀ k, c.kind = some k → P { any with kind := some k }) ∧
        (c.values ≠ [] → P { any with values := c.values })) ∧
      (∀ facet ∈ c.strings, P { any with strings := [facet] }) ∧
      (∀ d, c.datatype = some d → P { any with datatype := some d }) ∧
        ∀ facet ∈ c.numbers, P { any with numbers := [facet] } := by
  constructor
  · intro h
    exact ⟨⟨fun k hk => h _ (.kind hk), fun hv => h _ (.values hv)⟩,
      fun facet hf => h _ (.string hf), fun d hd => h _ (.datatype hd),
      fun facet hf => h _ (.number hf)⟩
  · rintro ⟨⟨hkind, hvalues⟩, hstrings, hdatatype, hnumbers⟩ p hp
    cases hp with
    | kind hk => exact hkind _ hk
    | values hv => exact hvalues hv
    | string hf => exact hstrings _ hf
    | datatype hd => exact hdatatype _ hd
    | number hf => exact hnumbers _ hf

section SinglePart

variable {known : KnownPatterns} (hknown : PatternsSound limit known)

include hknown

/-- A constraint on the kind alone asks for the kind. -/
theorem evaluate_kind_iff (k : NodeKind) :
    ({ any with kind := some k }.evaluate limit node known).1 = .ok true ↔
      k.contains node = true := by
  rw [evaluate_eq_true_iff hknown]
  simp [admits, typeHolds, numbersHold, any]

/-- A constraint on values alone asks for a node among them. -/
theorem evaluate_values_iff {values : List ValueSetValue} (h : values ≠ []) :
    ({ any with values := values }.evaluate limit node known).1 = .ok true ↔
      values.any (·.contains node) = true := by
  rw [evaluate_eq_true_iff hknown]
  simp [admits, typeHolds, numbersHold, any, h]

/-- A constraint with one facet of the string asks for this facet. -/
theorem evaluate_string_iff (facet : StringFacet) :
    ({ any with strings := [facet] }.evaluate limit node known).1 = .ok true ↔
      StringHolds limit node facet := by
  rw [evaluate_eq_true_iff hknown]
  simp [admits, typeHolds, numbersHold, any]

/-- A constraint on the datatype alone asks for a valid literal of it. -/
theorem evaluate_datatype_iff (d : Iri) :
    ({ any with datatype := some d }.evaluate limit node known).1 = .ok true ↔
      hasDatatype node d = true := by
  rw [evaluate_eq_true_iff hknown]
  simp [admits, typeHolds, numbersHold, any]

/-- A constraint with one facet of the number asks for this facet. -/
theorem evaluate_number_iff (facet : NumericFacet) :
    ({ any with numbers := [facet] }.evaluate limit node known).1 = .ok true ↔
      numbersHold node [facet] = true := by
  rw [evaluate_eq_true_iff hknown]
  simp [admits, typeHolds, any]

end SinglePart

/-- A constraint is satisfied if and only if each of its parts is, whatever patterns are known. -/
theorem evaluate_eq_true_iff_parts {c : NodeConstraint} {known known' : KnownPatterns}
    (hknown : PatternsSound limit known) (hknown' : PatternsSound limit known') :
    (c.evaluate limit node known).1 = .ok true ↔
      ∀ p, c.IsPart p → (p.evaluate limit node known').1 = .ok true := by
  have hadmits : c.admits node = true ↔
      (∀ k, c.kind = some k → k.contains node = true) ∧
        (c.values ≠ [] → c.values.any (·.contains node) = true) := by
    rw [admits, Bool.and_eq_true, Bool.or_eq_true, List.isEmpty_iff, Option.all_eq_true]
    exact and_congr_right' or_iff_not_imp_left
  have htype : c.typeHolds node = true ↔
      (∀ d, c.datatype = some d → hasDatatype node d = true) ∧
        ∀ facet ∈ c.numbers, numbersHold node [facet] = true := by
    rw [typeHolds, Bool.and_eq_true, Option.all_eq_true, numbersHold_iff_forall]
  rw [evaluate_eq_true_iff hknown, hadmits, htype, forall_isPart_iff]
  simp only [evaluate_kind_iff hknown', evaluate_string_iff hknown', evaluate_datatype_iff hknown',
    evaluate_number_iff hknown']
  exact and_congr_left' (and_congr_right' (forall_congr' fun hv =>
    (evaluate_values_iff hknown' hv).symm))

/-! ## Answers -/

namespace SameParts

variable {c c' : NodeConstraint}

/-- The same parts have the same patterns. -/
theorem compiles (h : c.SameParts c') (hc : c.Compiles limit) : c'.Compiles limit :=
  fun facet hfacet => hc facet ((h.strings _).1 hfacet)

/-- The kind is the same, and the same nodes are among the values. -/
theorem admits_eq (h : c.SameParts c') (node : Term) : c'.admits node = c.admits node := by
  have hempty : c'.values.isEmpty = c.values.isEmpty := by
    rw [Bool.eq_iff_iff, List.isEmpty_iff, List.isEmpty_iff, List.eq_nil_iff_forall_not_mem,
      List.eq_nil_iff_forall_not_mem]
    exact forall_congr' fun v => not_congr (h.values v)
  have hany : c'.values.any (·.contains node) = c.values.any (·.contains node) := by
    rw [Bool.eq_iff_iff, List.any_eq_true, List.any_eq_true]
    exact exists_congr fun v => and_congr_left' (h.values v)
  rw [admits, admits, h.kind, hempty, hany]

/-- The datatype is the same, and a number satisfies the same facets. -/
theorem typeHolds_eq (h : c.SameParts c') (node : Term) : c'.typeHolds node = c.typeHolds node := by
  have hnumbers : numbersHold node c'.numbers = numbersHold node c.numbers := by
    rw [Bool.eq_iff_iff, numbersHold_iff_forall, numbersHold_iff_forall]
    exact forall_congr' fun facet => imp_congr_left (h.numbers facet)
  rw [typeHolds, typeHolds, h.datatype, hnumbers]

/-- What is listed in another order, or more often, is asked for all the same. -/
theorem evaluate_eq (h : c.SameParts c') (hc : c.Compiles limit) {known known' : KnownPatterns}
    (hknown : PatternsSound limit known) (hknown' : PatternsSound limit known') :
    (c'.evaluate limit node known').1 = (c.evaluate limit node known).1 := by
  obtain ⟨b, hb⟩ := exists_evaluate hc node known
  obtain ⟨b', hb'⟩ := exists_evaluate (h.compiles hc) node known'
  have hiff : (c'.evaluate limit node known').1 = .ok true ↔
      (c.evaluate limit node known).1 = .ok true := by
    rw [evaluate_eq_true_iff hknown', evaluate_eq_true_iff hknown, h.admits_eq, h.typeHolds_eq]
    refine and_congr_right' (and_congr_left' ?_)
    exact forall_congr' fun facet => imp_congr_left (h.strings facet)
  rw [hb, hb'] at hiff ⊢
  rw [Except.ok.injEq, Except.ok.injEq] at hiff
  exact congrArg Except.ok (Bool.eq_iff_iff.2 hiff)

end SameParts

/-- A constraint whose patterns can be used always gives an answer, and it is the conjunction of its
parts: the kind, the values as a whole, the datatype, and each facet.

So the answer is the same when facets and values are listed in another order or more often, and
whichever patterns have been compiled before; and with more parts a node that was refused is not
accepted, be the patterns among them of any use or not.  The patterns that can have been compiled
before are those that an evaluation leaves behind. -/
theorem evaluate_conjunction {c : NodeConstraint} (hc : c.Compiles limit) (node : Term) :
    (∀ known known' : KnownPatterns, PatternsSound limit known → PatternsSound limit known' →
      PatternsSound limit (c.evaluate limit node known).2 ∧
      ∃ b, (c.evaluate limit node known).1 = .ok b ∧
        (b = true ↔ ∀ p, c.IsPart p → (p.evaluate limit node known').1 = .ok true)) ∧
    (∀ (c' : NodeConstraint) (known known' : KnownPatterns), c.SameParts c' →
      PatternsSound limit known → PatternsSound limit known' →
        (c'.evaluate limit node known').1 = (c.evaluate limit node known).1) ∧
    ∀ (c' : NodeConstraint) (known known' : KnownPatterns), (∀ p, c.IsPart p → c'.IsPart p) →
      PatternsSound limit known → PatternsSound limit known' →
        (c.evaluate limit node known).1 = .ok false →
          (c'.evaluate limit node known').1 ≠ .ok true := by
  refine ⟨fun known known' hknown hknown' => ⟨?_, ?_⟩, ?_, ?_⟩
  · exact (c.evaluate_sound limit node known hknown).2
  · obtain ⟨b, hb⟩ := exists_evaluate hc node known
    refine ⟨b, hb, ?_⟩
    rw [← evaluate_eq_true_iff_parts hknown hknown', hb, Except.ok.injEq]
  · exact fun c' known known' h hknown hknown' => h.evaluate_eq hc hknown hknown'
  · intro c' known known' hmore hknown hknown' hfalse htrue
    have hparts := (evaluate_eq_true_iff_parts hknown' hknown').1 htrue
    have hall := (evaluate_eq_true_iff_parts hknown hknown').2 fun p hp => hparts p (hmore p hp)
    rw [hfalse] at hall
    cases hall

/-- An integer of two digits that is at least ten, out of a set of values. -/
def everyPart : NodeConstraint where
  kind := some .literal
  datatype := some (Vocabulary.xsd "integer")
  strings := [.length 2, .pattern ⟨"^1", none⟩]
  numbers := [.totalDigits 2, .minInclusive (.double (.finite false 10 0))]
  values := [.literalStem "0", .literalStem "1"]
  id := none

/-- The same in another order, with a facet and a value that are listed twice. -/
def everyPartShuffled : NodeConstraint where
  kind := some .literal
  datatype := some (Vocabulary.xsd "integer")
  strings := [.pattern ⟨"^1", none⟩, .length 2, .pattern ⟨"^1", none⟩]
  numbers := [.minInclusive (.double (.finite false 10 0)), .totalDigits 2]
  values := [.literalStem "1", .literalStem "0", .literalStem "1"]
  id := none

/-- The first literal has all parts, in whichever order, and with a pattern known beforehand.  The
second one has a digit too many, and one more facet, which is no regular expression, does not make
up for it. -/
theorem evaluate_conjunction_everyPart :
    everyPart.Compiles 2 ∧
    (everyPartShuffled.evaluate 2 (.literal (.typed "12" (Vocabulary.xsd "integer")))
      [(⟨"^1", none⟩, .cat (.look .textStart) (.chars (.single '1')))]).1 = .ok true ∧
    (({ everyPart with strings := .pattern ⟨"(", none⟩ :: everyPart.strings }).evaluate 2
      (.literal (.typed "123" (Vocabulary.xsd "integer"))) []).1 ≠ .ok true := by
  have hc : everyPart.Compiles 2 := by
    intro facet hfacet
    simp only [everyPart, List.mem_cons, reduceCtorEq, StringFacet.pattern.injEq, List.not_mem_nil,
      or_false, false_or] at hfacet
    rw [hfacet]
    exact ⟨_, rfl⟩
  have hsame : everyPart.SameParts everyPartShuffled := by
    refine ⟨rfl, fun v => ?_, fun facet => ?_, rfl, fun facet => ?_⟩ <;>
      simp only [everyPart, everyPartShuffled, List.mem_cons, List.not_mem_nil] <;> tauto
  have hknown : PatternsSound 2
      [(⟨"^1", none⟩, .cat (.look .textStart) (.chars (.single '1')))] := by
    intro facet r h
    rw [List.lookup_cons] at h
    split at h
    · next heq =>
      cases h
      rw [beq_iff_eq.1 heq]
      rfl
    · cases h
  have hmore : ∀ p, everyPart.IsPart p →
      ({ everyPart with strings := .pattern ⟨"(", none⟩ :: everyPart.strings }).IsPart p := by
    intro p hp
    cases hp with
    | kind h => exact .kind h
    | values h => exact .values h
    | string h => exact .string (List.mem_cons_of_mem _ h)
    | datatype h => exact .datatype h
    | number h => exact .number h
  refine ⟨hc, ?_, ?_⟩
  · refine ((evaluate_conjunction hc _).2.1 _ [] _ hsame (patternsSound_nil 2) hknown).trans ?_
    rfl
  · exact (evaluate_conjunction hc _).2.2 _ [] [] hmore (patternsSound_nil 2) (patternsSound_nil 2)
      rfl

end NodeConstraint

end ShEx
