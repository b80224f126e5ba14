import ShEx.Proofs.DigitCounts
import ShEx.Proofs.NumericValues
import ShEx.Validation.NodeEvaluation

/-!
# Numeric facets look at values

Literals of different datatypes and with different texts can denote the same number.  They are
parsed as the same number and have the same digits, and a numeric facet looks at nothing else, so
that a constraint made of numeric facets gives the same answer for both (`evaluate_eq_of_hasValue`).
-/

set_option autoImplicit false

namespace ShEx

open ShEx.Rdf ShEx.Datatype ShEx.Number

/-- Literals that denote the same number are parsed as the same one. -/
theorem Datatype.HasValue.parseNumeric_congr {l l' : Literal} {q : ℚ} (h : HasValue l q)
    (h' : HasValue l' q) : parseNumeric l = parseNumeric l' := by
  by_cases hq : Representable q
  · obtain ⟨n, hn⟩ := representable_iff.1 hq
    rw [(h.parseNumeric_eq.1 n).2 hn, (h'.parseNumeric_eq.1 n).2 hn]
  · rw [h.parseNumeric_eq.2 hq, h'.parseNumeric_eq.2 hq]

/-- A facet asks for the number of a literal and for its digits. -/
theorem NumericFacet.holds_congr {l l' : Literal} (h : digitCounts? l = digitCounts? l')
    (value : NumericLiteral) (facet : NumericFacet) :
    facet.holds l value = facet.holds l' value := by
  cases facet with
  | minInclusive bound => rfl
  | minExclusive bound => rfl
  | maxInclusive bound => rfl
  | maxExclusive bound => rfl
  | totalDigits n => simp only [NumericFacet.holds, h]
  | fractionDigits n => simp only [NumericFacet.holds, h]

/-- Two literals that denote the same number satisfy the same facets. -/
theorem numbersHold_congr {l l' : Literal} {q : ℚ} (h : HasValue l q) (h' : HasValue l' q)
    (facets : List NumericFacet) :
    numbersHold (.literal l) facets = numbersHold (.literal l') facets := by
  have hdigits := h.digitCounts?_congr h'
  have hvalue := h.parseNumeric_congr h'
  have hfacets : ∀ value, (fun facet : NumericFacet => facet.holds l value) =
      fun facet => facet.holds l' value :=
    fun value => funext fun facet => NumericFacet.holds_congr hdigits value facet
  simp only [numbersHold, Term.literal?, hvalue, hfacets]

/-- A constraint has no parts other than facets of numbers. -/
structure NodeConstraint.NumbersOnly (c : NodeConstraint) : Prop where
  kind : c.kind = none
  datatype : c.datatype = none
  strings : c.strings = []
  values : c.values = []

/-- Such a constraint is evaluated by the numbers. -/
theorem NodeConstraint.NumbersOnly.evaluate_eq {c : NodeConstraint} (hc : c.NumbersOnly)
    (limit : Nat) (node : Term) (known : KnownPatterns) :
    c.evaluate limit node known = (.ok (numbersHold node c.numbers), known) := by
  simp only [NodeConstraint.evaluate, NodeConstraint.admits, NodeConstraint.evaluateStrings,
    NodeConstraint.typeHolds, hc.kind, hc.datatype, hc.strings, hc.values]
  simp

/-- A constraint made of facets of numbers, with any bounds of any representation, gives the same
answer for all valid integers and decimals that denote the same number, whichever datatypes they
have and however they are written; the number may be too large or have too many places for a
decimal. -/
theorem evaluate_eq_of_hasValue {c : NodeConstraint} (hc : c.NumbersOnly) {l l' : Literal} {q : ℚ}
    (h : HasValue l q) (h' : HasValue l' q) (limit : Nat) (known : KnownPatterns) :
    c.evaluate limit (.literal l) known = c.evaluate limit (.literal l') known := by
  rw [hc.evaluate_eq, hc.evaluate_eq, numbersHold_congr h h']

/-- The integer of `wideLiteral` as a decimal, without the zeros in front. -/
def wideDecimal : Literal :=
  .typed "1701411834604692317316873037158841057280" (Vocabulary.xsd "decimal")

/-- At most forty digits, and more than zero. -/
def fortyDigits : NodeConstraint :=
  { NodeConstraint.any with
    numbers := [.totalDigits 40, .minExclusive (.double (.finite false 0 0))] }

/-- An integer with a sign and zeros in front, too large for a decimal, and the same as a decimal
literal. -/
theorem evaluate_eq_of_hasValue_wide :
    fortyDigits.NumbersOnly ∧ (∃ q, HasValue wideLiteral q ∧ HasValue wideDecimal q) ∧
    fortyDigits.evaluate 0 (.literal wideLiteral) [] =
      fortyDigits.evaluate 0 (.literal wideDecimal) [] := by
  have honly : fortyDigits.NumbersOnly := ⟨rfl, rfl, rfl, rfl⟩
  have hdigits : isDigits wideDecimal.lexical.toList = true := by decide
  have hwide : wideLiteral.lexical.toList = '+' :: '0' :: '0' :: wideDecimal.lexical.toList := by
    decide
  have hliteral : HasValue wideLiteral (decimalNumber wideDecimal.lexical.toList) := by
    refine ⟨⟨"positiveInteger", by simp [exactNames], rfl⟩, rfl, ?_⟩
    rw [hwide, ← decimalNumber_zeros_append 2]
    exact .plus (.whole (Grammar.mem_digits.2 hdigits))
  have hdecimal : HasValue wideDecimal (decimalNumber wideDecimal.lexical.toList) :=
    ⟨⟨"decimal", by simp [exactNames], rfl⟩, rfl, .bare (.whole (Grammar.mem_digits.2 hdigits))⟩
  exact ⟨honly, ⟨_, hliteral, hdecimal⟩, evaluate_eq_of_hasValue honly hliteral hdecimal 0 []⟩

end ShEx
