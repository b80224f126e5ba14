import ShEx.Proofs.DecimalDoubles
import ShEx.Proofs.ShortestDigits
import ShEx.Proofs.WrittenNumbers
import ShEx.Validation.NodeEvaluation

/-!
# What a bound accepts

A bound stands for a number if its four facets accept exactly the integers and decimals that are on
their side of the number (`KeepsOrder`).  A bound that is a decimal stands for itself and for
nothing else (`keepsOrder_decimal_iff`).  One that is a double is compared with the doubles of the
literals: it stands for a small number that is rounded to it (`keepsOrder_double_of_small`), but for
none from `10 ^ 16` on (`not_keepsOrder_double_of_large`), because literals with the same double
cannot be told apart there.
-/

set_option autoImplicit false

namespace ShEx

open ShEx.Number ShEx.Datatype ShEx.Rdf

/-! ## Bounds and numbers -/

/-- The facets with a bound accept the valid integers and decimals that can be held as decimals in
the order of the rational numbers with regard to a number. -/
structure KeepsOrder (bound : NumericLiteral) (q : ℚ) : Prop where
  minInclusive : ∀ (l : Literal) (v : ℚ), HasValue l v → Representable v →
    (numbersHold (.literal l) [.minInclusive bound] = true ↔ q ≤ v)
  minExclusive : ∀ (l : Literal) (v : ℚ), HasValue l v → Representable v →
    (numbersHold (.literal l) [.minExclusive bound] = true ↔ q < v)
  maxInclusive : ∀ (l : Literal) (v : ℚ), HasValue l v → Representable v →
    (numbersHold (.literal l) [.maxInclusive bound] = true ↔ v ≤ q)
  maxExclusive : ∀ (l : Literal) (v : ℚ), HasValue l v → Representable v →
    (numbersHold (.literal l) [.maxExclusive bound] = true ↔ v < q)

/-- A single facet asks for nothing but a number that satisfies it. -/
theorem numbersHold_singleton {l : Literal} {value : NumericLiteral}
    (h : parseNumeric l = some value) (facet : NumericFacet) :
    numbersHold (.literal l) [facet] = facet.holds l value := by
  simp [numbersHold, Term.literal?, h]

/-- Every decimal is the value of a literal. -/
theorem exists_hasValue {q : ℚ} (h : Representable q) : ∃ l, HasValue l q := by
  obtain ⟨k, -, -, hk⟩ := h
  have hdenotes := Json.denotesDecimal_withSign (decide (k < 0))
    (Json.denotesUnsigned_plainText k.natAbs (k := -18) (by norm_num))
  have hvalue : Json.withSignRat (decide (k < 0)) (k.natAbs * 10 ^ (-18 : ℤ)) = q := by
    have hten : (10 : ℚ) ^ (-18 : ℤ) = 1 / 10 ^ 18 := by norm_num
    rw [Json.withSignRat, hten, hk]
    split
    · rename_i hneg
      rw [Nat.cast_natAbs, abs_of_neg (of_decide_eq_true hneg)]
      push_cast
      ring
    · rename_i hneg
      have hnonneg : 0 ≤ k := not_lt.1 fun hlt => hneg (decide_eq_true hlt)
      rw [Nat.cast_natAbs, abs_of_nonneg hnonneg]
      ring
  rw [hvalue] at hdenotes
  generalize Json.withSign (decide (k < 0)) (Binary.plainText k.natAbs (-18)) = text at hdenotes
  refine ⟨.typed (String.ofList text) (Vocabulary.xsd "decimal"), ?_, ?_, ?_⟩
  · exact ⟨"decimal", by simp [exactNames], rfl⟩
  · have hlexical : isDecimal (String.ofList text).toList = true := by
      rw [String.toList_ofList]
      exact hdenotes.isDecimal
    exact hlexical
  · have htext : (Literal.typed (String.ofList text) (Vocabulary.xsd "decimal")).lexical.toList =
        text := String.toList_ofList
    rw [htext]
    exact hdenotes

/-- A bound stands for a number if each decimal is compared with it as with the number. -/
theorem keepsOrder_iff (bound : NumericLiteral) (q : ℚ) : KeepsOrder bound q ↔
    ∀ d : Decimal, (NumericLiteral.decimal d).compare? bound =
      some (Binary.compareRat d.toRat q) := by
  constructor
  · intro h d
    have hrepresentable := representable_iff.2 ⟨d, rfl⟩
    obtain ⟨l, hl⟩ := exists_hasValue hrepresentable
    have hparse := (hl.parseNumeric_eq.1 d).2 rfl
    have hminInclusive := h.minInclusive l _ hl hrepresentable
    have hminExclusive := h.minExclusive l _ hl hrepresentable
    have hmaxExclusive := h.maxExclusive l _ hl hrepresentable
    simp only [numbersHold_singleton hparse, NumericFacet.holds, Bool.or_eq_true,
      decide_eq_true_eq] at hminInclusive hminExclusive hmaxExclusive
    -- The three facets tell the three outcomes of a comparison apart.
    rcases lt_trichotomy d.toRat q with hlt | heq | hgt
    · rw [hmaxExclusive.2 hlt, Binary.compareRat_of_lt hlt]
    · have hnot : ¬ (NumericLiteral.decimal d).compare? bound = some .gt :=
        fun hgt => (hminExclusive.1 hgt).ne heq.symm
      rw [(hminInclusive.2 heq.ge).resolve_left hnot, heq, Binary.compareRat_self]
    · rw [hminExclusive.2 hgt, Binary.compareRat_of_gt hgt]
  · intro h
    have hcompare : ∀ (l : Literal) (v : ℚ), HasValue l v → Representable v →
        ∃ d, parseNumeric l = some (.decimal d) ∧
          (NumericLiteral.decimal d).compare? bound = some (Binary.compareRat v q) := by
      intro l v hl hv
      obtain ⟨d, hd⟩ := representable_iff.1 hv
      exact ⟨d, (hl.parseNumeric_eq.1 d).2 hd, hd ▸ h d⟩
    constructor
    · intro l v hl hv
      obtain ⟨d, hparse, hd⟩ := hcompare l v hl hv
      simp only [numbersHold_singleton hparse, NumericFacet.holds, hd, Bool.or_eq_true,
        decide_eq_true_eq, Option.some.injEq, Binary.compareRat_eq_gt_iff,
        Binary.compareRat_eq_eq_iff]
      rw [le_iff_lt_or_eq, eq_comm]
    · intro l v hl hv
      obtain ⟨d, hparse, hd⟩ := hcompare l v hl hv
      simp only [numbersHold_singleton hparse, NumericFacet.holds, hd, decide_eq_true_eq,
        Option.some.injEq, Binary.compareRat_eq_gt_iff]
    · intro l v hl hv
      obtain ⟨d, hparse, hd⟩ := hcompare l v hl hv
      simp only [numbersHold_singleton hparse, NumericFacet.holds, hd, Bool.or_eq_true,
        decide_eq_true_eq, Option.some.injEq, Binary.compareRat_eq_lt_iff,
        Binary.compareRat_eq_eq_iff]
      rw [le_iff_lt_or_eq]
    · intro l v hl hv
      obtain ⟨d, hparse, hd⟩ := hcompare l v hl hv
      simp only [numbersHold_singleton hparse, NumericFacet.holds, hd, decide_eq_true_eq,
        Option.some.injEq, Binary.compareRat_eq_lt_iff]

/-! ## Bounds that are decimals -/

/-- Decimals are ordered by their values. -/
theorem compare_scaled (a b : Decimal) :
    compare a.scaled b.scaled = Binary.compareRat a.toRat b.toRat := by
  have hpos : (0 : ℚ) < 10 ^ Decimal.places := by positivity
  have horder : ∀ a b : Decimal, a.toRat < b.toRat ↔ a.scaled < b.scaled := by
    intro a b
    rw [toRat_eq, toRat_eq, div_lt_div_iff_of_pos_right hpos]
    exact_mod_cast Iff.rfl
  rcases lt_trichotomy a.scaled b.scaled with hlt | heq | hgt
  · rw [compare_lt_iff_lt.2 hlt, Binary.compareRat_of_lt ((horder a b).2 hlt)]
  · have hvalue : a.toRat = b.toRat := by rw [toRat_eq, toRat_eq, heq]
    rw [compare_eq_iff_eq.2 heq, hvalue, Binary.compareRat_self]
  · rw [compare_gt_iff_gt.2 hgt, Binary.compareRat_of_gt ((horder b a).2 hgt)]

/-- A decimal stands for its own value only. -/
theorem keepsOrder_decimal_iff (c : Decimal) {q : ℚ} (hq : Representable q) :
    KeepsOrder (.decimal c) q ↔ c.toRat = q := by
  have hcompare : ∀ d : Decimal, (NumericLiteral.decimal d).compare? (.decimal c) =
      some (Binary.compareRat d.toRat c.toRat) := fun d => congrArg some (compare_scaled d c)
  simp only [keepsOrder_iff, hcompare, Option.some.injEq]
  constructor
  · intro h
    obtain ⟨d, hd⟩ := representable_iff.1 hq
    have heq := h d
    rw [hd, Binary.compareRat_self, Binary.compareRat_eq_eq_iff] at heq
    exact heq.symm
  · rintro rfl d
    rfl

/-! ## Bounds that are doubles -/

section Double

variable {b : Binary} {x q : ℚ}

/-- For a bound that is held as a double, a decimal is compared by the double next to it. -/
theorem keepsOrder_double_iff (hb : b.toRat? = some x) : KeepsOrder (.double b) q ↔
    ∀ d : Decimal, Binary.compareRat d.nearby x = Binary.compareRat d.toRat q := by
  have hcompare : ∀ d : Decimal, (NumericLiteral.decimal d).compare? (.double b) =
      some (Binary.compareRat d.nearby x) :=
    fun d => Binary.compare?_eq_of_toRat? d.toRat?_toDouble hb
  simp only [keepsOrder_iff, hcompare, Option.some.injEq]

/-- The number that a bound stands for is the only one of its double. -/
theorem KeepsOrder.nearby_eq_iff (h : KeepsOrder (.double b) q) (hb : b.toRat? = some x)
    (d : Decimal) : d.nearby = x ↔ d.toRat = q := by
  have heq := (keepsOrder_double_iff hb).1 h d
  rw [← Binary.compareRat_eq_eq_iff, heq, Binary.compareRat_eq_eq_iff]

/-- Every integer of 128 bits is the scaled value of a decimal. -/
theorem exists_decimal {i : ℤ} (hlower : -2 ^ 127 ≤ i) (hupper : i < 2 ^ 127) :
    ∃ d : Decimal, d.scaled = i := by
  have hbound : (twoTo 127 : ℤ) = 2 ^ 127 := rfl
  exact ⟨⟨i, by rw [hbound]; exact hlower, by rw [hbound]; exact hupper⟩, rfl⟩

/-- The sign stays, so that decimals of one sign have the same double if their units do. -/
theorem nearby_eq_of_natAbs {a b : Decimal} {m n : ℕ} (hm : 0 < m) (hn : 0 < n)
    (hsign : a.scaled = m ∧ b.scaled = n ∨ a.scaled = -m ∧ b.scaled = -n)
    (h : Decimal.doubled m = Decimal.doubled n) : a.nearby = b.nearby := by
  unfold Decimal.nearby
  rcases hsign with ⟨ha, hb⟩ | ⟨ha, hb⟩
  · rw [ha, hb, if_neg (by omega), if_neg (by omega), Int.natAbs_natCast, Int.natAbs_natCast, h]
  · rw [ha, hb, if_pos (by omega), if_pos (by omega), Int.natAbs_neg, Int.natAbs_neg,
      Int.natAbs_natCast, Int.natAbs_natCast, h]

/-- From `10 ^ 16` on there are decimals with the same double on both sides of a decimal. -/
theorem exists_nearby_eq {c : Decimal} (hlarge : 10 ^ 16 ≤ |c.toRat|) :
    ∃ a b : Decimal, a.scaled < b.scaled ∧ a.scaled ≤ c.scaled ∧ c.scaled ≤ b.scaled ∧
      a.nearby = b.nearby := by
  have hunits : 10 ^ 16 * 10 ^ Decimal.places ≤ c.scaled.natAbs := by
    rw [Decimal.abs_toRat, le_div_iff₀ (by positivity)] at hlarge
    exact_mod_cast hlarge
  obtain ⟨below, above, hpos, hlt, hle, hle', hrange, hsame⟩ :=
    Decimal.exists_sameDouble hunits (Decimal.natAbs_scaled_le c)
  have hlower := c.lower
  have hupper := c.upper
  have hbound : (twoTo 127 : ℤ) = 2 ^ 127 := rfl
  rw [hbound] at hlower hupper
  rcases lt_or_ge c.scaled 0 with hneg | hnonneg
  · obtain ⟨a, ha⟩ := exists_decimal (i := -above) (by omega) (by omega)
    obtain ⟨b, hb⟩ := exists_decimal (i := -below) (by omega) (by omega)
    refine ⟨a, b, by omega, by omega, by omega, ?_⟩
    exact nearby_eq_of_natAbs (by omega) hpos (.inr ⟨ha, hb⟩) hsame.symm
  · obtain ⟨a, ha⟩ := exists_decimal (i := below) (by omega) (by omega)
    obtain ⟨b, hb⟩ := exists_decimal (i := above) (by omega) (by omega)
    refine ⟨a, b, by omega, by omega, by omega, ?_⟩
    exact nearby_eq_of_natAbs hpos (by omega) (.inl ⟨ha, hb⟩) hsame

/-- From `10 ^ 16` on a double stands for no number. -/
theorem not_keepsOrder_double_of_large (hb : b.toRat? = some x) (hq : Representable q)
    (hlarge : 10 ^ 16 ≤ |q|) : ¬ KeepsOrder (.double b) q := by
  rw [keepsOrder_double_iff hb]
  intro h
  obtain ⟨c, rfl⟩ := representable_iff.1 hq
  obtain ⟨a, d, hlt, hle, hle', hnearby⟩ := exists_nearby_eq hlarge
  have hequal : compare a.scaled c.scaled = compare d.scaled c.scaled := by
    rw [compare_scaled, compare_scaled, ← h a, ← h d, hnearby]
  rcases hle.lt_or_eq with hbelow | heq
  · rw [compare_lt_iff_lt.2 hbelow, eq_comm, compare_lt_iff_lt] at hequal
    omega
  · rw [compare_eq_iff_eq.2 heq, eq_comm, compare_eq_iff_eq] at hequal
    omega

/-- Decimals are apart by one unit at least. -/
theorem add_unit_le_toRat {a c : Decimal} (h : a.toRat < c.toRat) :
    a.toRat + 1 / 10 ^ 18 ≤ c.toRat := by
  have hplaces : (10 : ℚ) ^ Decimal.places = 10 ^ 18 := rfl
  rw [toRat_eq, toRat_eq, hplaces] at h ⊢
  rw [div_lt_div_iff_of_pos_right (by positivity)] at h
  have h : (a.scaled : ℚ) + 1 ≤ c.scaled := by exact_mod_cast h
  rw [← add_div]
  exact (div_le_div_iff_of_pos_right (by positivity)).2 h

/-- The double of a decimal lies on the same side of the double of a small one as the decimal. -/
theorem nearby_lt_nearby {a c : Decimal} (h : a.toRat < c.toRat)
    (hsmall : |a.toRat| ≤ 1 / 10 ^ 4 ∨ |c.toRat| ≤ 1 / 10 ^ 4) : a.nearby < c.nearby := by
  have hgap := add_unit_le_toRat h
  have hlower := (abs_le.1 (Decimal.abs_nearby_sub_le c)).1
  have hupper := (abs_le.1 (Decimal.abs_nearby_sub_le a)).2
  have hnear := abs_sub_abs_le_abs_sub a.toRat c.toRat
  have hnear' := abs_sub_abs_le_abs_sub c.toRat a.toRat
  rw [abs_sub_comm, abs_of_pos (sub_pos.2 h)] at hnear
  rw [abs_of_pos (sub_pos.2 h)] at hnear'
  norm_num at hlower hupper hgap hsmall
  rcases hsmall with hsmall | hsmall
  · linarith
  · linarith

/-- A double stands for the small number that it is the double of. -/
theorem keepsOrder_double_of_small (hb : b.toRat? = some x) (hq : Representable q)
    (hsmall : |q| ≤ 1 / 10 ^ 4)
    (hx : x = if q < 0 then -Format.double.rounded |q| else Format.double.rounded |q|) :
    KeepsOrder (.double b) q := by
  rw [keepsOrder_double_iff hb]
  obtain ⟨c, rfl⟩ := representable_iff.1 hq
  rw [← Decimal.nearby_of_small hsmall] at hx
  intro d
  rcases lt_trichotomy d.toRat c.toRat with hlt | heq | hgt
  · have hless : d.nearby < x := hx ▸ nearby_lt_nearby hlt (.inr hsmall)
    rw [Binary.compareRat_of_lt hless, Binary.compareRat_of_lt hlt]
  · obtain rfl : d = c := scaled_eq_of_toRat_eq heq
    rw [hx, Binary.compareRat_self, Binary.compareRat_self]
  · have hmore : x < d.nearby := hx ▸ nearby_lt_nearby hgt (.inl hsmall)
    rw [Binary.compareRat_of_gt hmore, Binary.compareRat_of_gt hgt]

end Double

end ShEx
