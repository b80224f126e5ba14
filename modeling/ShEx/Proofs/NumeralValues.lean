import ShEx.Proofs.ShortestDigits
import ShEx.Proofs.WrittenNumbers

/-!
# The doubles that numbers of a JSON text become

A number of a JSON text that is not one of the integers of 64 bits becomes a double.  Its digits are
taken as far as 64 bits hold them, rounded, and moved by a power of ten with one rounding for each
step, so that the double need not be the nearest one; but it is always a finite one
(`Numeral.WrittenAs.exists_value?_eq_float`), and for digits that are less than `2 ^ 53` and a power
of ten of at most twenty-two it is the nearest one (`Numeral.WrittenAs.value?_eq_nearest`).
-/

set_option autoImplicit false

namespace ShEx.Json

open ShEx.Number ShEx.Datatype

/-! ## Digits that fit -/

/-- Some digits are taken, and make the number with those in front of them. -/
theorem gather_spec (n : ℕ) {ds : List Char} (hds : allDigits ds = true) :
    ∃ taken, ds = taken ++ (gather n ds).2 ∧
      (gather n ds).1 = n * 10 ^ taken.length + decimalNumber taken := by
  induction ds generalizing n with
  | nil => exact ⟨[], rfl, by simp [gather, decimalNumber]⟩
  | cons c rest ih =>
    rw [gather]
    split
    · exact ⟨[], rfl, by simp [decimalNumber]⟩
    · obtain ⟨hc, hrest⟩ := allDigits_cons.1 hds
      obtain ⟨taken, hsplit, hvalue⟩ := ih (10 * n + digitValue c) hrest
      refine ⟨c :: taken, congrArg (c :: ·) hsplit, ?_⟩
      rw [hvalue, decimalNumber_cons, decimalNumber_singleton hc, List.length_cons, pow_succ]
      ring

/-- All digits are taken if the number fits. -/
theorem gather_eq (n : ℕ) {ds : List Char} (hds : allDigits ds = true)
    (h : n * 10 ^ ds.length + decimalNumber ds ≤ maxUnsigned) :
    gather n ds = (n * 10 ^ ds.length + decimalNumber ds, []) := by
  induction ds generalizing n with
  | nil => simp [gather, decimalNumber]
  | cons c rest ih =>
    obtain ⟨hc, hrest⟩ := allDigits_cons.1 hds
    have hvalue : n * 10 ^ (c :: rest).length + decimalNumber (c :: rest) =
        (10 * n + digitValue c) * 10 ^ rest.length + decimalNumber rest := by
      rw [decimalNumber_cons, decimalNumber_singleton hc, List.length_cons, pow_succ]
      ring
    rw [hvalue] at h ⊢
    have hle : 10 * n + digitValue c ≤ (10 * n + digitValue c) * 10 ^ rest.length :=
      Nat.le_mul_of_pos_right _ (by positivity)
    rw [gather, if_neg (by omega), ih _ hrest h]

/-! ## Powers of ten -/

/-- The largest power of ten that is looked up is in the range of doubles. -/
theorem ten_pow_le_largest : (10 : ℚ) ^ 308 ≤
    (2 ^ Format.double.precision - 1) * 2 ^ Format.double.maxExponent := by
  have hle : 10 ^ 308 + 2 ^ 971 ≤ 2 ^ 53 * 2 ^ 971 := by decide +kernel
  have hle : ((10 ^ 308 + 2 ^ 971 : ℕ) : ℚ) ≤ (2 ^ 53 * 2 ^ 971 : ℕ) := Nat.cast_le.2 hle
  rw [Nat.cast_add, Nat.cast_mul, Nat.cast_pow, Nat.cast_pow, Nat.cast_pow] at hle
  have hexp : (2 : ℚ) ^ Format.double.maxExponent = 2 ^ 971 := rfl
  rw [hexp, sub_mul, one_mul, le_sub_iff_add_le]
  exact hle

/-- Up to this power of ten there are finite doubles. -/
theorem exists_nearest_double {x : ℚ} (negative : Bool) (hx : 0 ≤ x) (h : x ≤ 10 ^ 308) :
    ∃ m e, Format.double.nearest negative x = .finite negative m e ∧
      Format.double.Member m e ∧ (m * 2 ^ e : ℚ) = Format.double.rounded x :=
  Format.exists_nearest_eq Format.proper_double negative hx (h.trans ten_pow_le_largest)

/-- A power of ten as a double. -/
theorem exists_tenTo {k : ℕ} (hk : k ≤ maxPower) :
    ∃ n f, Format.double.round false (tenTo k) 1 = .finite false n f ∧ 0 < n ∧
      (n * 2 ^ f : ℚ) ≤ 2 * 10 ^ k ∧ (10 : ℚ) ^ k ≤ 2 * (n * 2 ^ f) := by
  have hone : (1 : ℚ) ≤ 10 ^ k := one_le_pow₀ (by norm_num)
  have hpos : (0 : ℚ) < 10 ^ k := by positivity
  have hcast : ((tenTo k : ℕ) : ℚ) / (1 : ℕ) = 10 ^ k := by
    rw [cast_tenTo, Nat.cast_one, div_one]
  have hle : (10 : ℚ) ^ k ≤ 10 ^ 308 := pow_le_pow_right₀ (by norm_num) hk
  obtain ⟨n, f, hnearest, -, hvalue⟩ := exists_nearest_double false hpos.le hle
  have hupper := Format.rounded_le Format.proper_double hpos.le
  have hlower : (10 : ℚ) ^ k ≤ 2 * Format.double.rounded (10 ^ k) := by
    refine Format.le_two_mul_rounded Format.proper_double (Format.double_precision_le ?_)
    refine le_trans ?_ hone
    norm_num
  rw [← hvalue] at hupper hlower
  refine ⟨n, f, ?_, ?_, hupper, hlower⟩
  · rw [Format.round_eq _ _ _ one_pos, hcast, hnearest]
  · by_contra hzero
    have hzero : n = 0 := by omega
    rw [hzero, Nat.cast_zero, zero_mul, mul_zero] at hlower
    linarith

/-- The product of two doubles, rounded. -/
theorem round_product (negative : Bool) (m n : ℕ) (e f : ℤ) :
    Format.double.round negative (m * n * twoTo (e + f).toNat) (twoTo (-(e + f)).toNat) =
      Format.double.nearest negative (m * 2 ^ e * (n * 2 ^ f)) := by
  have hpos : 0 < twoTo (-(e + f)).toNat := Nat.two_pow_pos _
  rw [Format.round_eq _ _ _ hpos]
  congr 1
  have hexp : (m * 2 ^ e * (n * 2 ^ f) : ℚ) = m * n * 2 ^ (e + f) := by
    rw [zpow_add₀ two_ne_zero]
    ring
  rw [hexp, two_zpow_eq]
  push_cast
  ring

/-- The quotient of two doubles, rounded. -/
theorem round_quotient (negative : Bool) (m : ℕ) {n : ℕ} (hn : 0 < n) (e f : ℤ) :
    Format.double.round negative (m * twoTo (e - f).toNat) (n * twoTo (f - e).toNat) =
      Format.double.nearest negative (m * 2 ^ e / (n * 2 ^ f)) := by
  have hpos : 0 < n * twoTo (f - e).toNat := Nat.mul_pos hn (Nat.two_pow_pos _)
  rw [Format.round_eq _ _ _ hpos]
  congr 1
  have hneg : f - e = -(e - f) := by omega
  have hexp : (m * 2 ^ e / (n * 2 ^ f) : ℚ) = m / n * 2 ^ (e - f) := by
    rw [zpow_sub₀ two_ne_zero]
    field_simp
  rw [hexp, two_zpow_eq, hneg]
  push_cast
  ring

/-- A finite double that is not negative. -/
structure IsFinite (b : Binary) (x : ℚ) : Prop where
  eq : ∃ m e, b = .finite false m e ∧ Format.double.Member m e ∧ x = m * 2 ^ e

/-- The value of such a double is not negative. -/
theorem IsFinite.nonneg {b : Binary} {x : ℚ} (h : IsFinite b x) : 0 ≤ x := by
  obtain ⟨m, e, -, -, rfl⟩ := h.eq
  exact mul_two_zpow_nonneg m e

/-- A number in range is rounded to a finite double that is at most twice as large. -/
theorem exists_isFinite_nearest {x : ℚ} (hx : 0 ≤ x) (h : x ≤ 10 ^ 308) :
    ∃ y, IsFinite (Format.double.nearest false x) y ∧ y ≤ 2 * x := by
  obtain ⟨m, e, heq, hmember, hvalue⟩ := exists_nearest_double false hx h
  refine ⟨m * 2 ^ e, ⟨m, e, heq, hmember, rfl⟩, ?_⟩
  rw [hvalue]
  exact Format.rounded_le Format.proper_double hx

/-- Multiplying by a power of ten gives a finite double if the product is in range. -/
theorem exists_isFinite_times {b : Binary} {x : ℚ} (hb : IsFinite b x) {k : ℕ} (hk : k ≤ maxPower)
    (h : 2 * (x * 10 ^ k) ≤ 10 ^ 308) : ∃ y, IsFinite (timesPowerOfTen b k) y := by
  obtain ⟨m, e, rfl, -, rfl⟩ := hb.eq
  obtain ⟨n, f, hten, -, hupper, -⟩ := exists_tenTo hk
  have hx := hb.nonneg
  have hnonneg := mul_two_zpow_nonneg n f
  have hle : (m * 2 ^ e * (n * 2 ^ f) : ℚ) ≤ 10 ^ 308 := by
    calc (m * 2 ^ e * (n * 2 ^ f) : ℚ) ≤ m * 2 ^ e * (2 * 10 ^ k) :=
          mul_le_mul_of_nonneg_left hupper hx
      _ = 2 * (m * 2 ^ e * 10 ^ k) := by ring
      _ ≤ 10 ^ 308 := h
  obtain ⟨y, hy, -⟩ := exists_isFinite_nearest (mul_nonneg hx hnonneg) hle
  refine ⟨y, ?_⟩
  simp only [timesPowerOfTen, hten, round_product]
  exact hy

/-- Dividing by a power of ten gives a finite double. -/
theorem exists_isFinite_over {b : Binary} {x : ℚ} (hb : IsFinite b x) {k : ℕ} (hk : k ≤ maxPower)
    (h : x ≤ 10 ^ 100) : ∃ y, IsFinite (overPowerOfTen b k) y ∧ y ≤ 4 * x / 10 ^ k := by
  obtain ⟨m, e, rfl, -, rfl⟩ := hb.eq
  obtain ⟨n, f, hten, hn, -, hlower⟩ := exists_tenTo hk
  have hx := hb.nonneg
  have hpos := mul_two_zpow_pos hn f
  have hpow : (0 : ℚ) < 10 ^ k := by positivity
  have hone : (1 : ℚ) ≤ 10 ^ k := one_le_pow₀ (by norm_num)
  have hquotient : (m * 2 ^ e / (n * 2 ^ f) : ℚ) ≤ 2 * (m * 2 ^ e) / 10 ^ k := by
    rw [div_le_div_iff₀ hpos hpow]
    calc (m * 2 ^ e * 10 ^ k : ℚ) ≤ m * 2 ^ e * (2 * (n * 2 ^ f)) :=
          mul_le_mul_of_nonneg_left hlower hx
      _ = 2 * (m * 2 ^ e) * (n * 2 ^ f) := by ring
  have hle : (2 * (m * 2 ^ e) / 10 ^ k : ℚ) ≤ 10 ^ 308 := by
    rw [div_le_iff₀ hpow]
    have hsmall : (2 * (m * 2 ^ e) : ℚ) ≤ 10 ^ 308 := by
      calc (2 * (m * 2 ^ e) : ℚ) ≤ 2 * 10 ^ 100 := mul_le_mul_of_nonneg_left h two_pos.le
        _ ≤ 10 ^ 101 := by norm_num
        _ ≤ 10 ^ 308 := pow_le_pow_right₀ (by norm_num) (by norm_num)
    exact hsmall.trans (le_mul_of_one_le_right (by positivity) hone)
  obtain ⟨y, hy, hy2⟩ := exists_isFinite_nearest (div_nonneg hx hpos.le) (hquotient.trans hle)
  refine ⟨y, ?_, ?_⟩
  · simp only [overPowerOfTen, hten, round_quotient _ _ hn]
    exact hy
  · calc y ≤ 2 * (m * 2 ^ e / (n * 2 ^ f)) := hy2
      _ ≤ 2 * (2 * (m * 2 ^ e) / 10 ^ k) := mul_le_mul_of_nonneg_left hquotient two_pos.le
      _ = 4 * (m * 2 ^ e) / 10 ^ k := by ring

/-- Zero stays zero. -/
theorem scaled?_zero (power : ℤ) : scaled? (Format.double.round false 0 1) power =
    some (.finite false 0 Format.double.minExponent) := by
  have hround : Format.double.round false 0 1 = .finite false 0 Format.double.minExponent := rfl
  have hzero : isZero (.finite false 0 Format.double.minExponent) = true := rfl
  rw [hround, scaled?, if_pos hzero]

/-- A number that is zero is read as zero, whatever its exponent. -/
theorem floating?_zero (negative : Bool) (power : ℤ) : floating? negative 0 power =
    some (.float (.finite negative 0 Format.double.minExponent)) := by
  rw [floating?, scaled?_zero, Option.map_some, negatedIf, Bool.false_bne]

/-- A double that is not too large is moved by a power of ten, in several steps if need be. -/
theorem exists_isFinite_scaled? {b : Binary} {power : ℤ} {x : ℚ} (hb : IsFinite b x)
    (hx : x ≤ 10 ^ 100) (hpower : power ≤ maxPower)
    (hrange : 0 ≤ power → 2 * (x * 10 ^ power.toNat) ≤ 10 ^ 308) :
    ∃ c y, scaled? b power = some c ∧ IsFinite c y := by
  induction b, power using scaled?.induct generalizing x with
  | case1 b power hzero =>
    rw [scaled?, if_pos hzero]
    exact ⟨b, x, rfl, hb⟩
  | case2 b power hzero hlarge => omega
  | case3 b power hzero hlarge hnonneg =>
    obtain ⟨y, hy⟩ := exists_isFinite_times hb (by omega) (hrange hnonneg)
    rw [scaled?, if_neg hzero, if_neg hlarge, if_pos hnonneg]
    obtain ⟨m, e, heq, -, -⟩ := hy.eq
    refine ⟨timesPowerOfTen b power.toNat, y, ?_, hy⟩
    rw [heq]
    rfl
  | case4 b power hzero hlarge hneg hnear =>
    obtain ⟨y, hy, -⟩ := exists_isFinite_over hb (k := (-power).toNat) (by omega) hx
    rw [scaled?, if_neg hzero, if_neg hlarge, if_neg hneg, if_pos hnear]
    exact ⟨_, y, rfl, hy⟩
  | case5 b power hzero hlarge hneg hfar ih =>
    obtain ⟨y, hy, hle⟩ := exists_isFinite_over hb le_rfl hx
    have hyx : y ≤ x := by
      have hnonneg := hb.nonneg
      have hten : (4 : ℚ) ≤ 10 ^ maxPower := by
        calc (4 : ℚ) ≤ 10 ^ 1 := by norm_num
          _ ≤ 10 ^ maxPower := pow_le_pow_right₀ (by norm_num) (by decide)
      refine hle.trans ?_
      rw [div_le_iff₀ (by positivity)]
      calc 4 * x ≤ 10 ^ maxPower * x := mul_le_mul_of_nonneg_right hten hnonneg
        _ = x * 10 ^ maxPower := mul_comm _ _
    rw [scaled?, if_neg hzero, if_neg hlarge, if_neg hneg, if_neg hfar]
    exact ih hy (hyx.trans hx) (by omega) (fun h => by omega)

/-! ## Numbers -/

/-- Digits are gathered only as far as the significand fits. -/
theorem gather_le {n : ℕ} (hn : n ≤ maxUnsigned) (ds : List Char) :
    (gather n ds).1 ≤ maxUnsigned := by
  induction ds generalizing n with
  | nil => exact hn
  | cons c rest ih =>
    rw [gather]
    split
    · exact hn
    · exact ih (by omega)

/-- Digits are left behind only by a number that is not zero. -/
theorem gather_pos {n : ℕ} {ds : List Char} (hds : allDigits ds = true)
    (h : (gather n ds).2 ≠ []) : 0 < (gather n ds).1 := by
  induction ds generalizing n with
  | nil => exact absurd rfl h
  | cons c rest ih =>
    obtain ⟨hc, hrest⟩ := allDigits_cons.1 hds
    rw [gather] at h ⊢
    split at h
    · rename_i hover
      rw [if_pos hover]
      have hdigit : digitValue c < 10 := by
        rw [← idxOf_figures hc]
        exact List.idxOf_lt_length_of_mem (Grammar.mem_figures.2 hc)
      have hmax : 10 ≤ maxUnsigned := by decide
      simp only
      omega
    · rename_i hfits
      rw [if_neg hfits]
      exact ih hrest h

/-- A number without fraction and exponent that fits in 64 bits, with or without a sign; the
negative zero is none. -/
def Numeral.IsInteger64 (n : Numeral) : Prop :=
  n.fraction = none ∧ n.exponent = none ∧
    if n.negative then n.digits ≠ 0 ∧ n.digits ≤ 2 ^ 63 else n.digits < 2 ^ 64

namespace Numeral.WrittenAs

variable {n : Numeral} {text : List Char}

/-- The integer part is written in digits. -/
theorem allDigits_integer (h : n.WrittenAs text) : allDigits n.integer = true :=
  allDigits_of_isDigits h.integer

/-- The places behind the point are written in digits, and there may be none. -/
theorem allDigits_places (h : n.WrittenAs text) : allDigits n.places = true := by
  have hfraction := h.fraction
  unfold Numeral.places
  cases hf : n.fraction with
  | none => rfl
  | some ds =>
    rw [hf] at hfraction
    exact allDigits_of_isDigits (hfraction ds rfl)

/-- All digits together denote the integer part, moved by the places, and the places. -/
theorem digits_eq (n : Numeral) : n.digits =
    decimalNumber n.integer * 10 ^ n.places.length + decimalNumber n.places :=
  decimalNumber_append n.integer n.places

/-- If all digits fit, they are the significand. -/
theorem gather_gather_eq (h : n.WrittenAs text) (hfits : n.digits ≤ maxUnsigned) :
    gather 0 n.integer = (decimalNumber n.integer, []) ∧
      gather (decimalNumber n.integer) n.places = (n.digits, []) := by
  have hsum := digits_eq n
  have hinteger : 0 * 10 ^ n.integer.length + decimalNumber n.integer ≤ maxUnsigned := by
    have hle : decimalNumber n.integer ≤ decimalNumber n.integer * 10 ^ n.places.length :=
      Nat.le_mul_of_pos_right _ (by positivity)
    omega
  have hfirst := gather_eq 0 h.allDigits_integer hinteger
  have hsecond := gather_eq (decimalNumber n.integer) h.allDigits_places (hsum ▸ hfits)
  rw [Nat.zero_mul, Nat.zero_add] at hfirst
  rw [← hsum] at hsecond
  exact ⟨hfirst, hsecond⟩

/-- An integer of 64 bits keeps its value. -/
theorem value?_eq_integer (h : n.WrittenAs text) (hinteger : n.IsInteger64) :
    n.value? = some (.integer (signed n.negative n.digits)) := by
  obtain ⟨hfraction, hexponent, hrange⟩ := hinteger
  have hplaces : n.places = [] := by rw [Numeral.places, hfraction]; rfl
  have hdigits : n.digits = decimalNumber n.integer := by
    rw [digits_eq, hplaces]
    simp [decimalNumber]
  have hfits : n.digits ≤ maxUnsigned := by
    have hmax : maxUnsigned = 2 ^ 64 - 1 := rfl
    split at hrange <;> omega
  have hgather := (h.gather_gather_eq hfits).1
  rw [← hdigits] at hgather
  simp only [Numeral.value?, hgather, hfraction, hexponent, integerValue?, signed]
  cases hneg : n.negative with
  | false => rfl
  | true =>
    rw [hneg, if_pos rfl] at hrange
    have hlarge : ¬ (decide (n.digits = 0) || decide (twoTo 63 < n.digits)) = true := by
      have htwo : twoTo 63 = 2 ^ 63 := rfl
      rw [Bool.or_eq_true, decide_eq_true_eq, decide_eq_true_eq, htwo]
      omega
    simp only [Bool.not_true, Bool.false_eq_true, if_false, if_neg hlarge, if_true]

/-- With a fraction, an exponent or too many digits the number is a significand and a power of
ten. -/
theorem value?_eq (n : Numeral) :
    (n.fraction = none ∧ n.exponent = none ∧ (gather 0 n.integer).2 = [] ∧
      n.value? = integerValue? n.negative (gather 0 n.integer).1) ∨
    (¬ (n.fraction = none ∧ n.exponent = none ∧ (gather 0 n.integer).2 = []) ∧
      n.value? = floating? n.negative (gather (gather 0 n.integer).1 n.places).1
        (exponentValue n.exponent + (gather 0 n.integer).2.length -
          (n.places.length - (gather (gather 0 n.integer).1 n.places).2.length : ℕ))) := by
  unfold Numeral.value?
  cases hdropped : gather 0 n.integer with
  | mk leading dropped =>
    dsimp only
    split
    · rename_i hfraction hexponent
      exact .inl ⟨hfraction, hexponent, rfl, rfl⟩
    · rename_i hnone
      refine .inr ⟨fun hall => ?_, rfl⟩
      obtain ⟨hfraction, hexponent, hnil⟩ := hall
      exact hnone hfraction hexponent hnil

/-- The digits that are taken, with zeros for those that are left, are at most twice the digits that
there are. -/
theorem taken_mul_le (h : n.WrittenAs text) :
    (gather (gather 0 n.integer).1 n.places).1 * 10 ^ ((gather 0 n.integer).2.length +
      (gather (gather 0 n.integer).1 n.places).2.length) ≤ 2 * n.digits := by
  obtain ⟨first, hfirst, hleading⟩ := gather_spec 0 h.allDigits_integer
  obtain ⟨second, hsecond, hsignificand⟩ :=
    gather_spec (gather 0 n.integer).1 h.allDigits_places
  have hpos := gather_pos (n := 0) h.allDigits_integer
  generalize (gather 0 n.integer).1 = leading at *
  generalize (gather 0 n.integer).2 = dropped at *
  generalize (gather leading n.places).1 = significand at *
  generalize (gather leading n.places).2 = left at *
  have hdigits : n.digits = (leading * 10 ^ dropped.length + decimalNumber dropped) *
      10 ^ (second.length + left.length) +
        (decimalNumber second * 10 ^ left.length + decimalNumber left) := by
    rw [digits_eq, hfirst, hsecond, decimalNumber_append, decimalNumber_append,
      List.length_append, hleading, Nat.zero_mul, Nat.zero_add]
  have htaken : significand * 10 ^ (dropped.length + left.length) =
      leading * 10 ^ dropped.length * 10 ^ (second.length + left.length) +
        decimalNumber second * 10 ^ left.length * 10 ^ dropped.length := by
    rw [hsignificand]
    ring
  have hfront : leading * 10 ^ dropped.length * 10 ^ (second.length + left.length) ≤
      (leading * 10 ^ dropped.length + decimalNumber dropped) *
        10 ^ (second.length + left.length) :=
    Nat.mul_le_mul_right _ (Nat.le_add_right _ _)
  have hbehind : decimalNumber second * 10 ^ left.length * 10 ^ dropped.length ≤ n.digits := by
    by_cases hnil : dropped = []
    · rw [hnil, List.length_nil, pow_zero, mul_one]
      omega
    · -- Digits were dropped, so those in front of them weigh more than any behind.
      have hsecondDigits : allDigits second = true := by
        have hall := h.allDigits_places
        rw [hsecond, allDigits, List.all_append, Bool.and_eq_true_iff] at hall
        exact hall.1
      calc decimalNumber second * 10 ^ left.length * 10 ^ dropped.length
          ≤ 10 ^ second.length * 10 ^ left.length * 10 ^ dropped.length :=
            Nat.mul_le_mul_right _ (Nat.mul_le_mul_right _ (decimalNumber_lt hsecondDigits).le)
        _ = 1 * 10 ^ dropped.length * 10 ^ (second.length + left.length) := by ring
        _ ≤ leading * 10 ^ dropped.length * 10 ^ (second.length + left.length) :=
            Nat.mul_le_mul_right _ (Nat.mul_le_mul_right _ (hpos hnil))
        _ ≤ n.digits := by omega
  omega

/-- A zero with a minus sign or a number below the range becomes a double although its digits fit in
64 bits. -/
theorem integerValue?_eq_floating (hfraction : n.fraction = none) (hexponent : n.exponent = none)
    (hfits : n.digits ≤ maxUnsigned) (hnot : ¬ n.IsInteger64) :
    integerValue? n.negative n.digits = floating? n.negative n.digits 0 := by
  have hmax : maxUnsigned = 2 ^ 64 - 1 := rfl
  rw [integerValue?]
  cases hneg : n.negative with
  | false =>
    refine absurd ⟨hfraction, hexponent, ?_⟩ hnot
    rw [hneg, if_neg Bool.false_ne_true]
    omega
  | true =>
    have hrange : ¬ (n.digits ≠ 0 ∧ n.digits ≤ 2 ^ 63) := by
      intro hrange
      refine hnot ⟨hfraction, hexponent, ?_⟩
      rw [hneg, if_pos rfl]
      exact hrange
    have hlarge : (decide (n.digits = 0) || decide (twoTo 63 < n.digits)) = true := by
      have htwo : twoTo 63 = 2 ^ 63 := rfl
      rw [Bool.or_eq_true, decide_eq_true_eq, decide_eq_true_eq, htwo]
      omega
    rw [if_neg (by simp), if_pos hlarge]

/-- Every number that is no integer of 64 bits is a significand of 64 bits and a power of ten, and
they are at most twice the number; if all digits fit, they are the number. -/
theorem exists_value?_eq_floating (h : n.WrittenAs text) (hnot : ¬ n.IsInteger64) :
    ∃ (significand : ℕ) (power : ℤ), n.value? = floating? n.negative significand power ∧
      significand ≤ maxUnsigned ∧
      (significand * 10 ^ power : ℚ) ≤ 2 * (n.digits * 10 ^ n.power) ∧
      (n.digits ≤ maxUnsigned → significand = n.digits ∧ power = n.power) := by
  have hzero : 0 ≤ maxUnsigned := Nat.zero_le _
  -- A number that is written with digits alone, all of which fit, is moved by no power.
  rcases value?_eq n with ⟨hfraction, hexponent, hnil, hvalue⟩ | ⟨-, hvalue⟩
  · have hplaces : n.places = [] := by rw [Numeral.places, hfraction]; rfl
    have hpower : n.power = 0 := by rw [Numeral.power, hexponent, hplaces]; rfl
    have hdigits : (gather 0 n.integer).1 = n.digits := by
      obtain ⟨taken, hsplit, htaken⟩ := gather_spec 0 h.allDigits_integer
      rw [hnil, List.append_nil] at hsplit
      rw [htaken, ← hsplit, Nat.zero_mul, Nat.zero_add, digits_eq, hplaces]
      simp [decimalNumber]
    have hle := gather_le hzero n.integer
    rw [hdigits] at hvalue hle
    rw [integerValue?_eq_floating hfraction hexponent hle hnot] at hvalue
    refine ⟨n.digits, 0, hvalue, hle, ?_, fun _ => ⟨rfl, hpower.symm⟩⟩
    have hnonneg : (0 : ℚ) ≤ n.digits := Nat.cast_nonneg _
    rw [hpower, zpow_zero, mul_one]
    linarith
  · refine ⟨_, _, hvalue, gather_le (gather_le hzero n.integer) n.places, ?_, fun hfits => ?_⟩
    · have hmul := h.taken_mul_le
      obtain ⟨second, hsecond, -⟩ := gather_spec (gather 0 n.integer).1 h.allDigits_places
      generalize (gather 0 n.integer).1 = leading at *
      generalize (gather 0 n.integer).2 = dropped at *
      generalize (gather leading n.places).1 = significand at *
      generalize (gather leading n.places).2 = left at *
      have hlength : n.places.length = second.length + left.length := by
        rw [hsecond, List.length_append]
      have hexp : exponentValue n.exponent + dropped.length -
          (n.places.length - left.length : ℕ) =
            ((dropped.length + left.length : ℕ) : ℤ) + n.power := by
        rw [Numeral.power, hlength]
        push_cast
        omega
      rw [hexp, zpow_add₀ (by norm_num), ← mul_assoc, ← mul_assoc, zpow_natCast]
      refine mul_le_mul_of_nonneg_right ?_ (ten_zpow_pos n.power).le
      exact_mod_cast hmul
    · obtain ⟨hfirst, hsecond⟩ := h.gather_gather_eq hfits
      simp only [hfirst, hsecond, List.length_nil]
      refine ⟨trivial, ?_⟩
      rw [Numeral.power]
      push_cast
      omega

/-- A number that is no integer of 64 bits becomes a finite double, if it is not too large. -/
theorem exists_value?_eq_float (h : n.WrittenAs text) (hnot : ¬ n.IsInteger64)
    (hle : (n.digits * 10 ^ n.power : ℚ) ≤ 10 ^ 30) :
    ∃ m e, n.value? = some (.float (.finite n.negative m e)) ∧ Format.double.Member m e := by
  obtain ⟨significand, power, hvalue, hmax, hsize, -⟩ := h.exists_value?_eq_floating hnot
  rcases Nat.eq_zero_or_pos significand with rfl | hpos
  · refine ⟨0, Format.double.minExponent, ?_, Format.canonical_zero, by decide⟩
    rw [hvalue, floating?_zero]
  · have hone : (1 : ℚ) ≤ significand := by exact_mod_cast hpos
    have hbound : (significand * 10 ^ power : ℚ) ≤ 2 * 10 ^ 30 := by linarith
    have hpower : power ≤ maxPower := by
      by_contra hlarge
      have hten : (10 : ℚ) ^ (31 : ℤ) ≤ 10 ^ power := by
        refine zpow_le_zpow_right₀ (by norm_num) ?_
        have hmaxPower : (maxPower : ℤ) = 308 := rfl
        omega
      have hmul : (1 : ℚ) * 10 ^ power ≤ significand * 10 ^ power :=
        mul_le_mul_of_nonneg_right hone (ten_zpow_pos power).le
      norm_num at hten hbound
      linarith
    have hcast : ((significand : ℕ) : ℚ) / (1 : ℕ) = significand := by rw [Nat.cast_one, div_one]
    have hshort : (significand : ℚ) ≤ 10 ^ 99 := by
      calc (significand : ℚ) ≤ maxUnsigned := by exact_mod_cast hmax
        _ ≤ 10 ^ 99 := by norm_num [maxUnsigned, twoTo]
    obtain ⟨x, hx, hx2⟩ := exists_isFinite_nearest (zero_le_one.trans hone)
      (hshort.trans (pow_le_pow_right₀ (by norm_num) (by norm_num)))
    rw [← hcast, ← Format.round_eq _ _ _ one_pos] at hx
    -- Multiplying by the power stays in range, since the number is not too large.
    have hmoved : 0 ≤ power → 2 * (x * 10 ^ power.toNat) ≤ 10 ^ 308 := by
      intro hnonneg
      have hexp : (10 : ℚ) ^ power.toNat = 10 ^ power := by
        rw [← zpow_natCast, Int.toNat_of_nonneg hnonneg]
      have hmul : x * 10 ^ power ≤ 2 * significand * 10 ^ power :=
        mul_le_mul_of_nonneg_right hx2 (ten_zpow_pos power).le
      calc 2 * (x * 10 ^ power.toNat) ≤ 10 ^ 32 := by
            rw [hexp]
            linarith
        _ ≤ 10 ^ 308 := pow_le_pow_right₀ (by norm_num) (by norm_num)
    obtain ⟨b, y, hscaled, hfinite⟩ := exists_isFinite_scaled? hx (by linarith) hpower hmoved
    obtain ⟨m, e, rfl, hmember, -⟩ := hfinite.eq
    refine ⟨m, e, ?_, hmember⟩
    rw [hvalue, floating?, hscaled, Option.map_some, negatedIf, Bool.false_bne]

/-- A zero that is no integer of 64 bits becomes the zero of its sign. -/
theorem value?_eq_zero (h : n.WrittenAs text) (hnot : ¬ n.IsInteger64) (hzero : n.digits = 0) :
    n.value? = some (.float (.finite n.negative 0 Format.double.minExponent)) := by
  obtain ⟨significand, power, hvalue, -, -, hfits⟩ := h.exists_value?_eq_floating hnot
  obtain ⟨rfl, rfl⟩ := hfits (hzero ▸ Nat.zero_le _)
  rw [hvalue, hzero, floating?_zero]

end Numeral.WrittenAs

/-! ## Numbers with few digits -/

/-- A number with few enough bits is a double itself. -/
theorem exists_nearest_eq_of_short (negative : Bool) {n : ℕ} {s : ℤ} (hpos : 0 < n)
    (hshort : n < 2 ^ Format.double.precision) (hmin : Format.double.minExponent ≤ s)
    (hmax : s ≤ Format.double.maxExponent) :
    ∃ m e, Format.double.nearest negative (n * 2 ^ s) = .finite negative m e ∧ 0 < m ∧
      (m * 2 ^ e : ℚ) = n * 2 ^ s := by
  have hx := mul_two_zpow_pos hpos s
  have hle : (n : ℚ) ≤ 2 ^ Format.double.precision - 1 := by
    rw [le_sub_iff_add_le]
    exact_mod_cast hshort
  have hrange : (n * 2 ^ s : ℚ) ≤
      (2 ^ Format.double.precision - 1) * 2 ^ Format.double.maxExponent :=
    mul_le_mul hle (zpow_le_zpow_right₀ one_le_two hmax) (two_zpow_pos s).le
      ((Nat.cast_nonneg n).trans hle)
  obtain ⟨m, e, hnearest, -, hvalue⟩ :=
    Format.exists_nearest_eq Format.proper_double negative hx.le hrange
  rw [Format.rounded_of_short Format.proper_double hpos hshort hmin] at hvalue
  refine ⟨m, e, hnearest, ?_, hvalue⟩
  by_contra hzero
  have hzero : m = 0 := by omega
  rw [hzero, Nat.cast_zero, zero_mul] at hvalue
  linarith

/-- The powers of ten with five's power in the significand are doubles themselves. -/
theorem exists_tenTo_eq {k : ℕ} (hk : k ≤ 22) :
    ∃ n f, Format.double.round false (tenTo k) 1 = .finite false n f ∧ 0 < n ∧
      (n * 2 ^ f : ℚ) = 10 ^ k := by
  have hcast : ((tenTo k : ℕ) : ℚ) / (1 : ℕ) = (5 ^ k : ℕ) * 2 ^ (k : ℤ) := by
    rw [cast_tenTo, Nat.cast_one, div_one, zpow_natCast, Nat.cast_pow, Nat.cast_ofNat, ← mul_pow]
    norm_num
  have hshort : 5 ^ k < 2 ^ Format.double.precision :=
    (Nat.pow_le_pow_right (by norm_num) hk).trans_lt (by decide)
  have hmin : Format.double.minExponent ≤ (k : ℤ) :=
    le_trans (b := 0) (by decide) (Int.natCast_nonneg k)
  have hmax : (k : ℤ) ≤ Format.double.maxExponent := by
    have hrange : Format.double.maxExponent = 971 := rfl
    omega
  obtain ⟨n, f, hnearest, hpos, hvalue⟩ :=
    exists_nearest_eq_of_short false (Nat.pow_pos (by norm_num)) hshort hmin hmax
  refine ⟨n, f, ?_, hpos, ?_⟩
  · rw [Format.round_eq _ _ _ one_pos, hcast, hnearest]
  · rw [hvalue, ← hcast, cast_tenTo, Nat.cast_one, div_one]

/-- Multiplying by a power of ten that is a double rounds once. -/
theorem timesPowerOfTen_eq (m : ℕ) (e : ℤ) {k : ℕ} (hk : k ≤ 22) :
    timesPowerOfTen (.finite false m e) k = Format.double.nearest false (m * 2 ^ e * 10 ^ k) := by
  obtain ⟨n, f, hten, -, hpower⟩ := exists_tenTo_eq hk
  simp only [timesPowerOfTen, hten, round_product, hpower]

/-- Dividing by a power of ten that is a double rounds once. -/
theorem overPowerOfTen_eq (m : ℕ) (e : ℤ) {k : ℕ} (hk : k ≤ 22) :
    overPowerOfTen (.finite false m e) k = Format.double.nearest false (m * 2 ^ e / 10 ^ k) := by
  obtain ⟨n, f, hten, hn, hpower⟩ := exists_tenTo_eq hk
  simp only [overPowerOfTen, hten, round_quotient _ _ hn, hpower]

/-- An integer with few enough bits, moved by a power of ten that is a double, is rounded once. -/
theorem scaled?_eq_nearest {n : ℕ} {power : ℤ} (hn : n < 2 ^ 53) (hlow : -22 ≤ power)
    (hhigh : power ≤ 22) : scaled? (Format.double.round false n 1) power =
      some (Format.double.nearest false (n * 10 ^ power)) := by
  rcases Nat.eq_zero_or_pos n with rfl | hpos
  · rw [scaled?_zero, Nat.cast_zero, zero_mul, Format.nearest, if_pos rfl]
  · obtain ⟨m, e, hnearest, hm, hvalue⟩ :=
      exists_nearest_eq_of_short false hpos hn (s := 0) (by decide) (by decide)
    have hcast : ((n : ℕ) : ℚ) / (1 : ℕ) = n * 2 ^ (0 : ℤ) := by simp
    have hround : Format.double.round false n 1 = .finite false m e := by
      rw [Format.round_eq _ _ _ one_pos, hcast, hnearest]
    rw [zpow_zero, mul_one] at hvalue
    have hzero : ¬ isZero (.finite false m e) = true := by
      intro hzero
      cases m with
      | zero => exact lt_irrefl 0 hm
      | succ m => cases hzero
    have hsmall : ¬ (maxPower : ℤ) < power := by
      have hmaxPower : (maxPower : ℤ) = 308 := rfl
      omega
    rw [hround, scaled?, if_neg hzero, if_neg hsmall]
    split
    · rename_i hnonneg
      have hexp : (10 : ℚ) ^ power = 10 ^ power.toNat := by
        rw [← zpow_natCast, Int.toNat_of_nonneg hnonneg]
      have hlarge : (n * 10 ^ power : ℚ) ≤ 10 ^ 308 := by
        have hn' : (n : ℚ) ≤ 10 ^ 16 := by exact_mod_cast hn.le.trans (by norm_num)
        have hten' : (10 : ℚ) ^ power ≤ 10 ^ (22 : ℤ) := zpow_le_zpow_right₀ (by norm_num) hhigh
        calc (n * 10 ^ power : ℚ) ≤ 10 ^ 16 * 10 ^ (22 : ℤ) :=
              mul_le_mul hn' hten' (ten_zpow_pos power).le (by norm_num)
          _ ≤ 10 ^ 38 := by norm_num
          _ ≤ 10 ^ 308 := pow_le_pow_right₀ (by norm_num) (by norm_num)
      obtain ⟨m', e', hfinite, -, -⟩ := exists_nearest_double false
        (mul_nonneg (Nat.cast_nonneg n) (ten_zpow_pos power).le) hlarge
      rw [timesPowerOfTen_eq m e (by omega), hvalue, ← hexp, hfinite]
      rfl
    · rename_i hneg
      have hnear : -(maxPower : ℤ) ≤ power := by
        have hmaxPower : (maxPower : ℤ) = 308 := rfl
        omega
      have hexp : (10 : ℚ) ^ power = (10 ^ (-power).toNat)⁻¹ := by
        rw [← zpow_natCast, Int.toNat_of_nonneg (by omega), ← zpow_neg, neg_neg]
      rw [if_pos hnear, overPowerOfTen_eq m e (by omega), hvalue, hexp, div_eq_mul_inv]

/-- A number is rounded without its sign, and the sign is put in front afterwards. -/
theorem negatedIf_nearest (negative : Bool) (x : ℚ) :
    negatedIf negative (Format.double.nearest false x) = Format.double.nearest negative x := by
  unfold Format.nearest
  split
  · rw [negatedIf, Bool.false_bne]
  · split
    · rw [negatedIf, Bool.false_bne]
    · rw [negatedIf, Bool.false_bne]

/-- A number with few digits and a small power of ten that is no integer of 64 bits becomes the
nearest double. -/
theorem Numeral.WrittenAs.value?_eq_nearest {n : Numeral} {text : List Char} (h : n.WrittenAs text)
    (hnot : ¬ n.IsInteger64) (hdigits : n.digits < 2 ^ 53) (hlow : -22 ≤ n.power)
    (hhigh : n.power ≤ 22) :
    n.value? = some (.float (Format.double.nearest n.negative (n.digits * 10 ^ n.power))) := by
  obtain ⟨significand, power, hvalue, -, -, hfits⟩ := h.exists_value?_eq_floating hnot
  obtain ⟨rfl, rfl⟩ := hfits (hdigits.le.trans (by decide))
  rw [hvalue, floating?, scaled?_eq_nearest hdigits hlow hhigh, Option.map_some, negatedIf_nearest]

end ShEx.Json
