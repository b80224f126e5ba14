import ShEx.Proofs.BoundOrder
import ShEx.Proofs.NumeralValues
import ShEx.ShExJ.Load

/-!
# The bounds of a document and the numbers that are written there

A bound of a document goes from its digits to an integer or a double, from there to a text, and from
the text to a decimal or a double.  Integers of 64 bits keep their value.  Every other number is
written with the fewest digits of its double, and the bound stands for the number if and only if
these digits denote it and it is less than `10 ^ 16` (`bound_keepsOrder_iff`).  So it does up to
fifteen digits; with more it need not, and a literal that is equal to the bound can fail it
(`bound_rejects_equal`).
-/

set_option autoImplicit false

namespace ShEx.ShExJ

open ShEx.Number ShEx.Datatype ShEx.Json

/-! ## Texts that are read as bounds -/

/-- A decimal that can be held is read as a bound with its value. -/
theorem number_eq_decimal {text : List Char} {q : ℚ} (h : DenotesDecimal text q)
    (hq : Representable q) :
    ∃ c : Decimal, c.toRat = q ∧ number (String.ofList text) = .ok (.decimal c) := by
  obtain ⟨c, rfl⟩ := representable_iff.1 hq
  have hparse := (numericLiteral_parse?_eq_decimal_iff (String.ofList text) c).2
    (by rwa [String.toList_ofList])
  refine ⟨c, rfl, ?_⟩
  simp only [number, hparse]

/-- Every other number is read as a bound that is a double. -/
theorem number_eq_double {text : List Char} {q : ℚ} {b : Binary} (h : DenotesNumber text q)
    (hnot : isDecimal text = true → ¬ Representable q) (hb : Binary.parse? .double text = some b) :
    number (String.ofList text) = .ok (.double b) := by
  have hdouble : isDouble text = true := isDouble_iff_denotes.2 (.inr ⟨q, h⟩)
  have hnone : (if isDecimal text = true then Decimal.parse? text else none) = none := by
    split
    · rename_i hdecimal
      obtain ⟨q', hq', -⟩ := mem_decimal_iff_denotes.1 (isDecimal_iff.1 hdecimal)
      have heq := h.eq_of_denotesDecimal hq'
      rw [← Option.not_isSome_iff_eq_none, hq'.parse?_isSome_iff, ← heq]
      exact hnot hdecimal
    · rfl
  simp only [number, NumericLiteral.parse?, String.toList_ofList, hnone, if_pos hdouble, hb,
    Option.map_some]

/-! ## The digits of a double -/

section Double

variable {m n : ℕ} {e k : ℤ}

/-- A number is between the power of ten of its first digit and the next one. -/
theorem leadingPower_bounds (hn : n ≠ 0) (k : ℤ) :
    (10 : ℚ) ^ leadingPower n k ≤ n * 10 ^ k ∧ n * 10 ^ k < (10 : ℚ) ^ (leadingPower n k + 1) := by
  obtain ⟨hlower, hupper⟩ := toDigits_bounds (Nat.pos_of_ne_zero hn)
  have hlength : 0 < (Nat.toDigits 10 n).length := List.length_pos_iff.2 Nat.toDigits_ne_nil
  have hten := ten_zpow_pos k
  have hexp : leadingPower n k + 1 = ((Nat.toDigits 10 n).length : ℤ) + k := by
    unfold leadingPower
    omega
  constructor
  · rw [leadingPower, add_comm, zpow_add₀ (by norm_num), zpow_natCast]
    exact mul_le_mul_of_nonneg_right (by exact_mod_cast hlower) hten.le
  · rw [hexp, zpow_add₀ (by norm_num), zpow_natCast]
    exact mul_lt_mul_of_pos_right (by exact_mod_cast hupper) hten

/-- A sign does not change the magnitude. -/
theorem abs_withSignRat (negative : Bool) {q : ℚ} (hq : 0 ≤ q) : |withSignRat negative q| = q := by
  cases negative with
  | true => exact (abs_neg q).trans (abs_of_nonneg hq)
  | false => exact abs_of_nonneg hq

/-- A positive number with a sign is negative if the sign is. -/
theorem withSignRat_lt_zero_iff (negative : Bool) {q : ℚ} (hq : 0 < q) :
    withSignRat negative q < 0 ↔ negative = true := by
  cases negative with
  | true => exact iff_of_true (neg_lt_zero.2 hq) rfl
  | false => exact iff_of_false hq.not_gt Bool.false_ne_true

/-- What can be held is not too large. -/
theorem abs_le_of_representable {q : ℚ} (h : Representable q) : |q| ≤ 10 ^ 30 := by
  obtain ⟨k, hlower, hupper, rfl⟩ := h
  have hlower : (-2 ^ 127 : ℚ) ≤ k := by exact_mod_cast hlower
  have hupper : (k : ℚ) ≤ 2 ^ 127 := by exact_mod_cast hupper.le
  rw [abs_le]
  norm_num at hlower hupper ⊢
  constructor
  · linarith
  · linarith

/-- Digits with eighteen places behind the point can be held if they are not too large. -/
theorem representable_of_le (negative : Bool) (hk : -18 ≤ k) (hlt : (n * 10 ^ k : ℚ) < 10 ^ 16) :
    Representable (withSignRat negative (n * 10 ^ k)) := by
  have hvalue : (n * 10 ^ k : ℚ) = (n * 10 ^ (k + 18).toNat : ℕ) / 10 ^ 18 := by
    have hexp : (10 : ℚ) ^ (k + 18).toNat = 10 ^ k * 10 ^ 18 := by
      rw [← zpow_natCast, Int.toNat_of_nonneg (by omega), zpow_add₀ (by norm_num)]
      rfl
    push_cast
    rw [hexp]
    field_simp
  rw [hvalue] at hlt ⊢
  have hsmall : n * 10 ^ (k + 18).toNat < 10 ^ 34 := by
    rw [div_lt_iff₀ (by positivity)] at hlt
    norm_num at hlt ⊢
    exact_mod_cast hlt
  generalize n * 10 ^ (k + 18).toNat = units at hsmall
  refine ⟨signed negative units, ?_, ?_, ?_⟩
  · unfold signed
    split <;> omega
  · unfold signed
    split <;> omega
  · unfold signed withSignRat
    split
    · push_cast
      ring
    · push_cast
      rfl

/-- The double that the digits were found for is read from them. -/
theorem parse?_floatingText (negative : Bool) (hmember : Format.double.Member m e)
    (hshortest : Binary.IsShortest .double m e n k) :
    Binary.parse? .double (withSign negative (floatingText n k)) = some (.finite negative m e) := by
  have hpos : (0 : ℚ) < n * 10 ^ k :=
    mul_pos (by exact_mod_cast Nat.pos_of_ne_zero hshortest.ne_zero) (ten_zpow_pos k)
  obtain ⟨sign, hparse, hsign⟩ :=
    (denotesNumber_floatingText negative n k).binary_parse?_eq Format.proper_double
  have hne : withSignRat negative (n * 10 ^ k) ≠ 0 := by
    rw [← abs_pos, abs_withSignRat negative hpos.le]
    exact hpos
  have hsign : sign = negative := by
    rw [hsign hne]
    simp only [withSignRat_lt_zero_iff negative hpos, Bool.decide_eq_true]
  rw [hparse, hsign, abs_withSignRat negative hpos.le,
    Format.nearest_of_between Format.proper_double negative hpos hmember hshortest.between]

/-- What reads back as a double below `10 ^ 16` is below it as well. -/
theorem lt_of_between {y : ℚ} (hcanonical : Format.double.Canonical m e)
    (hbetween : Format.double.Between m e y) (h : (m * 2 ^ e : ℚ) < 10 ^ 16) : y < 10 ^ 16 := by
  have hupper := hbetween.upper
  rw [Format.middleAbove] at hupper
  rcases lt_trichotomy e 1 with hlt | rfl | hgt
  · have hunit : (2 : ℚ) ^ e ≤ 1 := zpow_le_one_of_nonpos₀ one_le_two (by omega)
    have hshort : ((m : ℕ) : ℚ) ≤ 2 ^ 53 := by exact_mod_cast hcanonical.short.le
    have hle : ((m : ℚ) + 1 / 2) * 2 ^ e ≤ (m + 1 / 2) * 1 :=
      mul_le_mul_of_nonneg_left hunit (by positivity)
    generalize (m : ℚ) = x at hupper hshort hle
    norm_num at hshort hle ⊢
    linarith
  · rw [zpow_one] at h hupper
    have hm : m + 1 ≤ 5 * 10 ^ 15 := by
      have hm : ((m * 2 : ℕ) : ℚ) < (10 ^ 16 : ℕ) := by exact_mod_cast h
      have hm : m * 2 < 10 ^ 16 := by exact_mod_cast hm
      omega
    have hm : ((m : ℕ) : ℚ) + 1 ≤ 5 * 10 ^ 15 := by exact_mod_cast hm
    norm_num at hm ⊢
    linarith
  · exfalso
    have hlong : (2 : ℚ) ^ 52 ≤ m := by
      have hlong := hcanonical.long.resolve_left (by
        have hmin : Format.double.minExponent = -1074 := rfl
        omega)
      exact_mod_cast hlong
    have hunit : (2 : ℚ) ^ (2 : ℤ) ≤ 2 ^ e := zpow_le_zpow_right₀ one_le_two (by omega)
    have hle : (2 : ℚ) ^ 52 * 2 ^ (2 : ℤ) ≤ m * 2 ^ e :=
      mul_le_mul hlong hunit (two_zpow_pos _).le (by positivity)
    norm_num at hle h
    linarith

/-- A double that stands for a number below `10 ^ 16` is below it as well, since that is a double
itself. -/
theorem abs_value_lt {b : Binary} {x q : ℚ} (h : KeepsOrder (.double b) q)
    (hb : b.toRat? = some x) (hq : |q| < 10 ^ 16) : |x| < 10 ^ 16 := by
  have hrounded : Format.double.rounded (10 ^ 16 : ℕ) = (10 ^ 16 : ℕ) := by
    have hshort := Format.rounded_of_short Format.proper_double (n := 5 ^ 16) (s := 16)
      (by norm_num) (by decide) (by decide)
    have hcast : ((10 ^ 16 : ℕ) : ℚ) = (5 ^ 16 : ℕ) * 2 ^ (16 : ℤ) := by norm_num
    rw [hcast, hshort]
  have hcompare : ∀ v : ℚ, Representable v → |v| = (10 ^ 16 : ℕ) →
      Binary.compareRat v x = Binary.compareRat v q := by
    intro v hv habs
    obtain ⟨d, rfl⟩ := representable_iff.1 hv
    have horder := (keepsOrder_double_iff hb).1 h d
    rwa [Decimal.nearby_eq_toRat habs hrounded] at horder
  have hupper := hcompare (10 ^ 16) ⟨10 ^ 34, by norm_num, by norm_num, by norm_num⟩ (by norm_num)
  have hlower := hcompare (-10 ^ 16) ⟨-10 ^ 34, by norm_num, by norm_num, by norm_num⟩ (by norm_num)
  obtain ⟨hlow, hhigh⟩ := abs_lt.1 hq
  rw [Binary.compareRat_of_gt hhigh, Binary.compareRat_eq_gt_iff] at hupper
  rw [Binary.compareRat_of_lt hlow, Binary.compareRat_eq_lt_iff] at hlower
  exact abs_lt.2 ⟨hlower, hupper⟩

/-- Digits that are written without an exponent are those of a number below `10 ^ 16`. -/
theorem lt_of_isPlain (hn : n ≠ 0) (h : IsPlain n k) : (n * 10 ^ k : ℚ) < 10 ^ 16 := by
  have hpow : (10 : ℚ) ^ (leadingPower n k + 1) ≤ 10 ^ (16 : ℤ) :=
    zpow_le_zpow_right₀ (by norm_num) (by have hupper := h.2; omega)
  exact (leadingPower_bounds hn k).2.trans_le hpow

/-- Below `10 ^ 16` only the digits of a small number are written with an exponent. -/
theorem le_of_not_isPlain (hn : n ≠ 0) (h : ¬ IsPlain n k) (hlt : (n * 10 ^ k : ℚ) < 10 ^ 16) :
    (n * 10 ^ k : ℚ) ≤ 1 / 10 ^ 5 := by
  have hten : (1 : ℚ) < 10 := by norm_num
  obtain ⟨hleading, hleading'⟩ := leadingPower_bounds hn k
  have hupper : leadingPower n k < 16 := by
    have hpow : (10 : ℚ) ^ leadingPower n k < 10 ^ (16 : ℤ) := hleading.trans_lt hlt
    exact (zpow_lt_zpow_iff_right₀ hten).1 hpow
  have hlower : leadingPower n k < -5 := by
    by_contra hnot
    exact h ⟨not_lt.1 hnot, hupper⟩
  have hpow : (10 : ℚ) ^ (leadingPower n k + 1) ≤ 10 ^ (-5 : ℤ) :=
    zpow_le_zpow_right₀ hten.le (by omega)
  have hfive : (10 : ℚ) ^ (-5 : ℤ) = 1 / 10 ^ 5 := by norm_num
  rw [hfive] at hpow
  exact hleading'.le.trans hpow

/-- A finite double with a sign has the value of the one without it, with the sign. -/
theorem toRat?_finite_withSign (negative : Bool) (m : ℕ) (e : ℤ) :
    (Binary.finite negative m e).toRat? = some (withSignRat negative (m * 2 ^ e)) := by
  rw [Binary.toRat?_finite]
  rfl

/-- A double is what its shortest digits are rounded to. -/
theorem withSignRat_eq_rounded (negative : Bool) (hmember : Format.double.Member m e)
    (hshortest : Binary.IsShortest .double m e n k) {r : ℚ}
    (hr : withSignRat negative (n * 10 ^ k) = r) : withSignRat negative (m * 2 ^ e) =
      if r < 0 then -Format.double.rounded |r| else Format.double.rounded |r| := by
  have hpos : (0 : ℚ) < n * 10 ^ k :=
    mul_pos (by exact_mod_cast Nat.pos_of_ne_zero hshortest.ne_zero) (ten_zpow_pos k)
  have hrounded : Format.double.rounded (n * 10 ^ k) = m * 2 ^ e :=
    Format.rounded_of_between Format.proper_double hpos hmember.toCanonical hshortest.between
  have hsign : r < 0 ↔ negative = true := hr ▸ withSignRat_lt_zero_iff negative hpos
  rw [← hr, abs_withSignRat negative hpos.le, hrounded, hr]
  simp only [hsign]
  rfl

/-- The only number that a double can stand for is the one that its shortest digits denote. -/
theorem eq_of_keepsOrder {negative : Bool} (hm : 0 < m) (hmember : Format.double.Member m e)
    (hshortest : Binary.IsShortest .double m e n k) {q r : ℚ} (hq : Representable q)
    (h : KeepsOrder (.double (.finite negative m e)) q)
    (hr : withSignRat negative (n * 10 ^ k) = r)
    (hfew : Representable r → |r| < 10 ^ 16 → |r| ≤ 1 / 10 ^ 5) : |q| < 10 ^ 16 ∧ q = r := by
  have hcanonical := hmember.toCanonical
  have hb := toRat?_finite_withSign negative m e
  have habs : |r| = n * 10 ^ k := by
    rw [← hr, abs_withSignRat negative (mul_nonneg (Nat.cast_nonneg n) (ten_zpow_pos k).le)]
  have hxabs : |withSignRat negative (m * 2 ^ e)| = m * 2 ^ e :=
    abs_withSignRat negative (mul_two_zpow_nonneg m e)
  have hlarge : |q| < 10 ^ 16 := by
    by_contra hlarge
    exact not_keepsOrder_double_of_large hb hq (not_lt.1 hlarge) h
  obtain ⟨c, hc⟩ := representable_iff.1 hq
  have hnearby := congrArg abs ((h.nearby_eq_iff hb c).2 hc)
  rw [Decimal.abs_nearby, hxabs] at hnearby
  have hk := hshortest.le_of_onGrid (Decimal.onGrid_of_doubled_eq hm hcanonical hnearby)
  have hlt : (n * 10 ^ k : ℚ) < 10 ^ 16 :=
    lt_of_between hcanonical hshortest.between (hxabs ▸ abs_value_lt h hb hlarge)
  have hrepresentable : Representable r := hr ▸ representable_of_le negative hk hlt
  -- The digits are a decimal as well, and this one is rounded to the same double.
  obtain ⟨d, rfl⟩ := representable_iff.1 hrepresentable
  have hsmall : |d.toRat| ≤ 1 / 10 ^ 4 := by
    refine (hfew hrepresentable (habs ▸ hlt)).trans ?_
    norm_num
  have hdx : d.nearby = withSignRat negative (m * 2 ^ e) := by
    rw [Decimal.nearby_of_small hsmall, withSignRat_eq_rounded negative hmember hshortest hr]
  exact ⟨hlarge, ((h.nearby_eq_iff hb d).1 hdx).symm⟩

/-- A bound that is written with the digits of a double stands for a number if and only if they
denote it and it is less than `10 ^ 16`. -/
theorem keepsOrder_floatingText_iff (negative : Bool) (hm : 0 < m)
    (hmember : Format.double.Member m e) (hshortest : Binary.IsShortest .double m e n k) :
    ∃ bound, number (String.ofList (withSign negative (floatingText n k))) = .ok bound ∧
      ∀ q, Representable q → (KeepsOrder bound q ↔
        |q| < 10 ^ 16 ∧ q = withSignRat negative (n * 10 ^ k)) := by
  have hn := hshortest.ne_zero
  have hdenotes := denotesNumber_floatingText negative n k
  generalize hr : withSignRat negative (n * 10 ^ k) = r at hdenotes ⊢
  have habs : |r| = n * 10 ^ k := by
    rw [← hr, abs_withSignRat negative (mul_nonneg (Nat.cast_nonneg n) (ten_zpow_pos k).le)]
  by_cases hboth : IsPlain n k ∧ Representable r
  · obtain ⟨hplain, hrepresentable⟩ := hboth
    have hdecimal := denotesDecimal_floatingText negative hplain
    rw [hr] at hdecimal
    obtain ⟨c, hc, hnumber⟩ := number_eq_decimal hdecimal hrepresentable
    have hsmall : |r| < 10 ^ 16 := habs ▸ lt_of_isPlain hn hplain
    refine ⟨.decimal c, hnumber, fun q hq => ?_⟩
    rw [keepsOrder_decimal_iff c hq, hc]
    constructor
    · rintro rfl
      exact ⟨hsmall, rfl⟩
    · rintro ⟨-, rfl⟩
      rfl
  · have hnot : isDecimal (withSign negative (floatingText n k)) = true → ¬ Representable r := by
      intro hdecimal hrepresentable
      refine hboth ⟨?_, hrepresentable⟩
      by_contra hplain
      rw [isDecimal_floatingText_eq_false negative hplain] at hdecimal
      cases hdecimal
    have hnumber := number_eq_double hdenotes hnot (parse?_floatingText negative hmember hshortest)
    -- Digits that can be held are written with an exponent here, so that they are small ones.
    have hfew : Representable r → |r| < 10 ^ 16 → |r| ≤ 1 / 10 ^ 5 := by
      intro hrepresentable hlt
      rw [habs] at hlt ⊢
      exact le_of_not_isPlain hn (fun hplain => hboth ⟨hplain, hrepresentable⟩) hlt
    refine ⟨_, hnumber, fun q hq => ⟨fun h => ?_, ?_⟩⟩
    · exact eq_of_keepsOrder hm hmember hshortest hq h hr hfew
    · rintro ⟨hlarge, rfl⟩
      refine keepsOrder_double_of_small (toRat?_finite_withSign negative m e) hq ?_
        (withSignRat_eq_rounded negative hmember hshortest hr)
      refine (hfew hq hlarge).trans ?_
      norm_num

/-- A double of few digits has no other ones as its shortest digits. -/
theorem digits_eq_of_few {d : ℕ} {p : ℤ} (hd : d ≠ 0) (hfew : d < 10 ^ 15) (hp : -22 ≤ p)
    (hcanonical : Format.double.Canonical m e) (hbetween : Format.double.Between m e (d * 10 ^ p))
    (hshortest : Binary.IsShortest .double m e n k) : (n * 10 ^ k : ℚ) = d * 10 ^ p := by
  have hten := ten_zpow_pos p
  have hpk : p ≤ k := hshortest.le_of_onGrid ⟨d, hd, hbetween⟩
  have hvalue : (n * 10 ^ k : ℚ) = (n * 10 ^ (k - p).toNat : ℕ) * 10 ^ p := by
    have hexp : k = ((k - p).toNat : ℤ) + p := by omega
    conv_lhs => rw [hexp, zpow_add₀ (by norm_num), zpow_natCast, ← mul_assoc]
    push_cast
    rfl
  have hlower := (Format.double.le_middleBelow m e).trans hbetween.lower
  -- The interval between the middles is narrower than the distance of two multiples.
  have hnarrow : (2 : ℚ) ^ e < 10 ^ p := by
    rcases hcanonical.long with hmin | hlong
    · have htwo : (2 : ℚ) ^ e ≤ 2 ^ (-100 : ℤ) := by
        refine zpow_le_zpow_right₀ one_le_two ?_
        rw [hmin]
        decide
      have hten' : (10 : ℚ) ^ (-22 : ℤ) ≤ 10 ^ p := zpow_le_zpow_right₀ (by norm_num) hp
      norm_num at htwo hten'
      linarith
    · have hlong : (2 : ℚ) ^ 52 ≤ m := by exact_mod_cast hlong
      have hfew : (d : ℚ) ≤ 10 ^ 15 := by exact_mod_cast hfew.le
      have hle : (2 ^ 52 - 1 / 2) * (2 : ℚ) ^ e ≤ (m - 1 / 2) * 2 ^ e :=
        mul_le_mul_of_nonneg_right (by linarith) (two_zpow_pos e).le
      have hle' : (d * 10 ^ p : ℚ) ≤ 10 ^ 15 * 10 ^ p := mul_le_mul_of_nonneg_right hfew hten.le
      norm_num at hle hle'
      linarith
  have hlower' := (Format.double.le_middleBelow m e).trans hshortest.between.lower
  have hupper := hbetween.upper
  have hupper' := hshortest.between.upper
  rw [Format.middleAbove] at hupper hupper'
  rw [hvalue] at hlower' hupper' ⊢
  generalize n * 10 ^ (k - p).toNat = a at hlower' hupper' ⊢
  have hclose : (a : ℚ) < d + 1 ∧ (d : ℚ) < a + 1 := by
    constructor
    · refine lt_of_mul_lt_mul_right (a := 10 ^ p) ?_ hten.le
      linarith
    · refine lt_of_mul_lt_mul_right (a := 10 ^ p) ?_ hten.le
      linarith
  have hle : a < d + 1 := by exact_mod_cast hclose.1
  have hle' : d < a + 1 := by exact_mod_cast hclose.2
  have heq : a = d := by omega
  rw [heq]

end Double

/-! ## Numbers of a document -/

/-- What is written for a finite double is read as a bound, and this stands for the numbers below
`10 ^ 16` that are denoted by the text. -/
theorem exists_bound_of_finite (negative : Bool) {m : ℕ} {e : ℤ}
    (hmember : Format.double.Member m e) :
    ∃ written bound, numberText? (.float (.finite negative m e)) = some written ∧
      number written = .ok bound ∧ ∀ q, Representable q →
        (KeepsOrder bound q ↔ |q| < 10 ^ 16 ∧ DenotesNumber written.toList q) := by
  rcases Nat.eq_zero_or_pos m with rfl | hm
  · have hdenotes := denotesDecimal_zero negative
    obtain ⟨c, hc, hnumber⟩ := number_eq_decimal hdenotes representable_zero
    refine ⟨_, .decimal c, numberText?_zero negative e, hnumber, fun q hq => ?_⟩
    rw [keepsOrder_decimal_iff c hq, hc, String.toList_ofList]
    constructor
    · rintro rfl
      exact ⟨by norm_num, .plain hdenotes⟩
    · rintro ⟨-, h⟩
      exact (h.eq_of_denotesDecimal hdenotes).symm
  · have hshortest := Binary.shortestDigits_spec hmember.short hm .double .even e
    obtain ⟨bound, hnumber, hkeeps⟩ := keepsOrder_floatingText_iff negative hm hmember hshortest
    have hdenotes := denotesNumber_floatingText negative
      (Binary.shortestDigits .double .even m e).1 (Binary.shortestDigits .double .even m e).2
    refine ⟨_, bound, numberText?_finite negative hm.ne' e, hnumber, fun q hq => ?_⟩
    rw [hkeeps q hq, String.toList_ofList]
    constructor
    · rintro ⟨hlarge, rfl⟩
      exact ⟨hlarge, hdenotes⟩
    · rintro ⟨hlarge, h⟩
      exact ⟨hlarge, h.unique hdenotes⟩

section Numeral

variable {n : Numeral} {text : List Char}

/-- An integer of 64 bits is read as a bound that stands for it. -/
theorem exists_bound_of_isInteger64 (hinteger : n.IsInteger64) :
    ∃ written bound, numberText? (.integer (signed n.negative n.digits)) = some written ∧
      number written = .ok bound ∧ KeepsOrder bound n.toRat := by
  have hdenotes := denotesDecimal_of_denotes (denotes_integerText (signed n.negative n.digits))
  have hvalue : n.toRat = (signed n.negative n.digits : ℤ) := by
    have hpower : n.power = 0 := by
      rw [Numeral.power, hinteger.2.1, Numeral.places, hinteger.1]
      rfl
    rw [Numeral.toRat, hpower, zpow_zero, mul_one]
    unfold withSignRat signed
    split
    · push_cast
      rfl
    · push_cast
      rfl
  have hrange : -2 ^ 64 ≤ signed n.negative n.digits ∧ signed n.negative n.digits < 2 ^ 64 := by
    have hdigits := hinteger.2.2
    unfold signed
    split
    · rename_i hneg
      rw [if_pos hneg] at hdigits
      omega
    · rename_i hneg
      rw [if_neg hneg] at hdigits
      omega
  have hrepresentable : Representable n.toRat := by
    rw [hvalue]
    generalize signed n.negative n.digits = i at hrange
    refine ⟨i * 10 ^ 18, by omega, by omega, ?_⟩
    rw [Int.cast_mul, Int.cast_pow, Int.cast_ofNat, mul_div_cancel_right₀]
    positivity
  rw [← hvalue, ← String.ofList_toList (s := integerText _)] at hdenotes
  obtain ⟨c, hc, hnumber⟩ := number_eq_decimal hdenotes hrepresentable
  rw [String.toList_ofList, String.ofList_toList] at hnumber
  exact ⟨_, .decimal c, rfl, hnumber, (keepsOrder_decimal_iff c hrepresentable).2 hc⟩

/-- Up to fifteen digits the text that is written for a number denotes it. -/
theorem denotes_of_few_digits (h : n.WrittenAs text) (hnot : ¬ n.IsInteger64)
    (hdigits : n.digits < 10 ^ 15) (hpower : -22 ≤ n.power) (hlarge : |n.toRat| < 10 ^ 16)
    {v : Json} {written : String} (hv : n.value? = some v)
    (hwritten : numberText? v = some written) : DenotesNumber written.toList n.toRat := by
  rcases Nat.eq_zero_or_pos n.digits with hzero | hpos
  · rw [h.value?_eq_zero hnot hzero] at hv
    obtain rfl := Option.some.inj hv
    rw [numberText?_zero] at hwritten
    obtain rfl := Option.some.inj hwritten
    have hvalue : n.toRat = 0 := by
      rw [Numeral.toRat, hzero, Nat.cast_zero, zero_mul]
      cases n.negative with
      | true => exact neg_zero
      | false => rfl
    rw [hvalue, String.toList_ofList]
    exact .plain (denotesDecimal_zero n.negative)
  · have hd : (1 : ℚ) ≤ n.digits := by exact_mod_cast hpos
    have hten := ten_zpow_pos n.power
    have hx : (0 : ℚ) < n.digits * 10 ^ n.power := mul_pos (by linarith) hten
    rw [Numeral.toRat, abs_withSignRat n.negative hx.le] at hlarge
    have hle : (10 : ℚ) ^ n.power ≤ n.digits * 10 ^ n.power := le_mul_of_one_le_left hten.le hd
    have hpower' : n.power < 16 := by
      have hpow : (10 : ℚ) ^ n.power < 10 ^ (16 : ℤ) := hle.trans_lt hlarge
      exact (zpow_lt_zpow_iff_right₀ (by norm_num)).1 hpow
    have hshort : n.digits < 2 ^ 53 := hdigits.trans (by norm_num)
    rw [h.value?_eq_nearest hnot hshort hpower (by omega)] at hv
    obtain rfl := Option.some.inj hv
    obtain ⟨m, e, hnearest, hmember, hvalue⟩ := exists_nearest_double n.negative hx.le
      (hlarge.le.trans (pow_le_pow_right₀ (by norm_num) (by norm_num)))
    -- The number is not so small that it is rounded to zero.
    have hm : 0 < m := by
      have hsmallest : (1 / 10 ^ 22 : ℚ) ≤ n.digits * 10 ^ n.power := by
        calc (1 / 10 ^ 22 : ℚ) = 10 ^ (-22 : ℤ) := by norm_num
          _ ≤ 10 ^ n.power := zpow_le_zpow_right₀ (by norm_num) hpower
          _ ≤ n.digits * 10 ^ n.power := hle
      have hhalf := Format.le_two_mul_rounded Format.proper_double
        (Format.double_precision_le hsmallest)
      by_contra hzero
      have hzero : m = 0 := by omega
      rw [← hvalue, hzero, Nat.cast_zero, zero_mul, mul_zero] at hhalf
      linarith
    have hshortest := Binary.shortestDigits_spec hmember.short hm .double .even e
    have hbetween := Format.between_of_rounded_eq Format.proper_double hx hmember.toCanonical hm
      hvalue.symm
    rw [hnearest, numberText?_finite n.negative hm.ne'] at hwritten
    obtain rfl := Option.some.inj hwritten
    have hdenotes := denotesNumber_floatingText n.negative
      (Binary.shortestDigits .double .even m e).1 (Binary.shortestDigits .double .even m e).2
    rw [digits_eq_of_few hpos.ne' hdigits hpower hmember.toCanonical hbetween hshortest] at hdenotes
    rw [String.toList_ofList]
    exact hdenotes

end Numeral

/-- What the bounds of a document stand for.  Each number of a JSON text that can be held as a
decimal is loaded as a bound.  An integer of 64 bits is loaded as one that stands for it: the four
facets accept the integers and decimals exactly in the order of the rational numbers with regard to
it.  For every other number this is so if and only if the number is less than `10 ^ 16` and denoted
by the text that is written for its double; below `10 ^ 16` it is up to fifteen digits. -/
theorem bound_keepsOrder_iff (text : List Char) (n : Numeral)
    (h : numeral? (symbols text) = some (n, [])) (hrepresentable : Representable n.toRat) :
    DenotesNumber text n.toRat ∧
    ∃ v written bound, n.value? = some v ∧ numberText? v = some written ∧
      (∀ facet, NodeEntry.bound facet (some written) = .ok [facet bound]) ∧
      (n.IsInteger64 → KeepsOrder bound n.toRat) ∧
      (¬ n.IsInteger64 → (KeepsOrder bound n.toRat ↔
        |n.toRat| < 10 ^ 16 ∧ DenotesNumber written.toList n.toRat)) ∧
      (n.digits < 10 ^ 15 → -22 ≤ n.power → |n.toRat| < 10 ^ 16 → KeepsOrder bound n.toRat) := by
  refine ⟨denotesNumber_of_numeral? h, ?_⟩
  obtain ⟨digits, -, hwritten⟩ := writtenAs_of_numeral? h
  have hbound : ∀ {written : String} {bound : NumericLiteral}, number written = .ok bound →
      ∀ facet, NodeEntry.bound facet (some written) = .ok [facet bound] := by
    intro written bound hnumber facet
    rw [NodeEntry.bound, hnumber]
    rfl
  by_cases hinteger : n.IsInteger64
  · obtain ⟨written, bound, htext, hnumber, hkeeps⟩ := exists_bound_of_isInteger64 hinteger
    exact ⟨_, written, bound, hwritten.value?_eq_integer hinteger, htext, hbound hnumber,
      fun _ => hkeeps, fun hnot => absurd hinteger hnot, fun _ _ _ => hkeeps⟩
  · have hsize : (n.digits * 10 ^ n.power : ℚ) ≤ 10 ^ 30 := by
      have hnonneg : (0 : ℚ) ≤ n.digits * 10 ^ n.power :=
        mul_nonneg (Nat.cast_nonneg _) (ten_zpow_pos _).le
      rw [← abs_withSignRat n.negative hnonneg]
      exact abs_le_of_representable hrepresentable
    obtain ⟨m, e, hvalue, hmember⟩ := hwritten.exists_value?_eq_float hinteger hsize
    obtain ⟨written, bound, htext, hnumber, hkeeps⟩ := exists_bound_of_finite n.negative hmember
    refine ⟨_, written, bound, hvalue, htext, hbound hnumber, fun h => absurd h hinteger,
      fun _ => hkeeps _ hrepresentable, fun hdigits hpower hlarge => ?_⟩
    exact (hkeeps _ hrepresentable).2 ⟨hlarge,
      denotes_of_few_digits hwritten hinteger hdigits hpower hlarge hvalue htext⟩

/-- One hundred fifty and a half. -/
def pointedNumeral : Numeral := ⟨false, "150".toList, some "5".toList, none⟩

/-- The number of the example has the value one hundred and fifty and a half. -/
theorem toRat_pointedNumeral : pointedNumeral.toRat = 301 / 2 := by
  have hdigits : pointedNumeral.digits = 1505 := by decide
  have hpower : pointedNumeral.power = -1 := rfl
  have hsign : pointedNumeral.negative = false := rfl
  rw [Numeral.toRat, hdigits, hpower, hsign]
  norm_num [withSignRat]

/-- A number with a point that doubles and decimals can hold is kept. -/
theorem bound_keepsOrder_iff_pointed :
    numeral? (symbols "150.5".toList) = some (pointedNumeral, []) ∧
    Representable pointedNumeral.toRat ∧ ¬ pointedNumeral.IsInteger64 ∧
    DenotesNumber "150.5".toList (301 / 2) ∧
    ∃ v written bound, pointedNumeral.value? = some v ∧ numberText? v = some written ∧
      (∀ facet, NodeEntry.bound facet (some written) = .ok [facet bound]) ∧
      KeepsOrder bound (301 / 2) := by
  have hrepresentable : Representable pointedNumeral.toRat :=
    ⟨1505 * 10 ^ 17, by norm_num, by norm_num, by rw [toRat_pointedNumeral]; norm_num⟩
  have hinteger : ¬ pointedNumeral.IsInteger64 := by
    rintro ⟨hfraction, -⟩
    cases hfraction
  have hlarge : |pointedNumeral.toRat| < 10 ^ 16 := by
    rw [toRat_pointedNumeral]
    norm_num [abs_lt]
  obtain ⟨hdenotes, v, written, bound, hvalue, htext, hbound, -, -, hfew⟩ :=
    bound_keepsOrder_iff "150.5".toList pointedNumeral rfl hrepresentable
  have hkeeps := hfew (by decide) (by decide) hlarge
  rw [toRat_pointedNumeral] at hdenotes hkeeps
  exact ⟨rfl, hrepresentable, hinteger, hdenotes, v, written, bound, hvalue, htext, hbound, hkeeps⟩

/-- Eighteen digits, of which a double keeps seventeen. -/
def longNumeral : Numeral := ⟨false, "123456789".toList, some "123456789".toList, none⟩

/-- A literal with the same digits. -/
def longLiteral : Rdf.Literal := .typed "123456789.123456789" (Rdf.Vocabulary.xsd "decimal")

/-- The bound that these digits are loaded as. -/
def longBound : NumericLiteral :=
  .decimal ⟨123456789123456790000000000, by decide, by decide⟩

/-- A literal that is equal to a bound of the document can be refused by the bound that is loaded:
its last digits are lost on the way through the double. -/
theorem bound_rejects_equal :
    numeral? (symbols "123456789.123456789".toList) = some (longNumeral, []) ∧
    longNumeral.toRat = 123456789123456789 / 10 ^ 9 ∧ Representable longNumeral.toRat ∧
    (∃ v, longNumeral.value? = some v ∧ numberText? v = some "123456789.12345679") ∧
    NodeEntry.bound .minInclusive (some "123456789.12345679") = .ok [.minInclusive longBound] ∧
    HasValue longLiteral longNumeral.toRat ∧
    numbersHold (.literal longLiteral) [.minInclusive longBound] = false ∧
    ¬ KeepsOrder longBound longNumeral.toRat := by
  have hvalue : longNumeral.toRat = 123456789123456789 / 10 ^ 9 := by
    have hdigits : longNumeral.digits = 123456789123456789 := by decide
    have hpower : longNumeral.power = -9 := rfl
    have hsign : longNumeral.negative = false := rfl
    rw [Numeral.toRat, hdigits, hpower, hsign]
    norm_num [withSignRat]
  have hscaled : scaled? (Format.double.round false 123456789123456789 1) (-9) =
      some (.finite false 8285044871162741 (-26)) := by
    have hover : overPowerOfTen (Format.double.round false 123456789123456789 1) 9 =
        .finite false 8285044871162741 (-26) := by decide +kernel
    have hzero : ¬ isZero (Format.double.round false 123456789123456789 1) = true := by
      decide +kernel
    rw [scaled?, if_neg hzero, if_neg (by decide), if_neg (by decide), if_pos (by decide)]
    exact congrArg some hover
  have hdouble : longNumeral.value? = some (.float (.finite false 8285044871162741 (-26))) := by
    have hfloating : longNumeral.value? = floating? false 123456789123456789 (-9) := rfl
    rw [hfloating, floating?, hscaled]
    rfl
  have hparse : NumericLiteral.parse? "123456789.12345679" = some longBound := by decide +kernel
  have hbound : number "123456789.12345679" = .ok longBound := by
    simp only [number, hparse]
  have hrepresentable : Representable longNumeral.toRat :=
    ⟨123456789123456789 * 10 ^ 9, by norm_num, by norm_num, by rw [hvalue]; norm_num⟩
  have hrefused : numbersHold (.literal longLiteral) [.minInclusive longBound] = false := by
    decide +kernel
  have hliteral : HasValue longLiteral longNumeral.toRat := by
    refine ⟨⟨"decimal", by simp [exactNames], rfl⟩, by decide, ?_⟩
    have hnumber := denotesNumber_of_numeral?
      (show numeral? (symbols "123456789.123456789".toList) = some (longNumeral, []) from rfl)
    have hdecimal : isDecimal "123456789.123456789".toList = true := by decide
    obtain ⟨q, hq, -⟩ := mem_decimal_iff_denotes.1 (isDecimal_iff.1 hdecimal)
    rw [hnumber.eq_of_denotesDecimal hq]
    exact hq
  refine ⟨rfl, hvalue, hrepresentable, ⟨_, hdouble, by decide +kernel⟩, ?_, hliteral, hrefused, ?_⟩
  · rw [NodeEntry.bound, hbound]
    rfl
  · intro h
    rw [(h.minInclusive _ _ hliteral hrepresentable).2 le_rfl] at hrefused
    cases hrefused

end ShEx.ShExJ
