import Mathlib.Algebra.Order.Field.Power
import Mathlib.Algebra.Order.Floor.Semifield
import Mathlib.Data.Int.Log
import Mathlib.Data.Rat.Floor
import Mathlib.Tactic.FieldSimp
import Mathlib.Tactic.Linarith
import Mathlib.Tactic.NormNum
import Mathlib.Tactic.Positivity
import Mathlib.Tactic.Ring
import ShEx.Number.Binary

/-!
# Rounding to binary floating point

Rounding is defined on rational numbers here: the exponent is that of the largest power of two below
a number, as far as the format goes, the significand is the nearest integer, a tie going to the even
one, and a carry moves the exponent (`Format.nearest`).  What rounds a quotient of two integers
computes this (`Format.round_eq`), and so does what rounds a decimal with an exponent of any size
(`Format.ofDecimal_eq`), so that a number is rounded in the same way however it is written.

A number is rounded to a floating point number if and only if it lies between the middles towards
the two neighbours (`Format.placed_eq_iff`).  The error is at most half a unit in the last place
(`Format.abs_rounded_sub_le`), and numbers with few enough bits are not changed
(`Format.rounded_of_short`).
-/

set_option autoImplicit false

namespace ShEx.Number

/-! ## The nearest integer -/

/-- The integer nearest to a number that is not negative, a tie going to the even one. -/
def nearestInteger (x : ℚ) : ℕ :=
  let n := ⌊x⌋₊
  if 2 * (x - n) < 1 then n
  else if 1 < 2 * (x - n) then n + 1
  else if n % 2 = 0 then n else n + 1

/-- A number is rounded to an integer: it is at most one half away, and only if the integer is even
exactly one half. -/
structure RoundsTo (x : ℚ) (n : ℕ) : Prop where
  lower : (n : ℚ) - 1 / 2 ≤ x
  upper : x ≤ n + 1 / 2
  tie : n % 2 = 1 → (n : ℚ) - 1 / 2 < x ∧ x < n + 1 / 2

/-- The nearest integer is what a number is rounded to. -/
theorem roundsTo_nearestInteger {x : ℚ} (hx : 0 ≤ x) : RoundsTo x (nearestInteger x) := by
  have hle : (⌊x⌋₊ : ℚ) ≤ x := Nat.floor_le hx
  have hlt : x < ⌊x⌋₊ + 1 := Nat.lt_floor_add_one x
  simp only [nearestInteger]
  split
  · exact ⟨by linarith, by linarith, fun _ => ⟨by linarith, by linarith⟩⟩
  · split
    · refine ⟨?_, ?_, fun _ => ⟨?_, ?_⟩⟩ <;> push_cast <;> linarith
    · have htie : x = ⌊x⌋₊ + 1 / 2 := by linarith
      split
      · refine ⟨by linarith, by linarith, fun hodd => ?_⟩
        omega
      · refine ⟨?_, ?_, fun hodd => ?_⟩
        · push_cast
          linarith
        · push_cast
          linarith
        · omega

/-- Two integers to which one number is rounded are the same. -/
theorem RoundsTo.unique {x : ℚ} {m n : ℕ} (hm : RoundsTo x m) (hn : RoundsTo x n) : m = n := by
  wlog h : m < n generalizing m n
  · rcases Nat.lt_trichotomy m n with hlt | heq | hlt
    · exact absurd hlt h
    · exact heq
    · exact (this hn hm hlt).symm
  have hupper := hm.upper
  have hlower := hn.lower
  have hle : (m : ℚ) + 1 ≤ n := by exact_mod_cast h
  have hsucc : n = m + 1 := by
    have hlt : (n : ℚ) < m + 2 := by linarith
    have hlt : n < m + 2 := by exact_mod_cast hlt
    omega
  -- The number is in the middle, and one of two neighbours is odd.
  rcases Nat.mod_two_eq_zero_or_one m with heven | hodd
  · have hstrict := (hn.tie (by omega)).1
    linarith
  · have hstrict := (hm.tie hodd).2
    linarith

/-- A number has one nearest integer, the one that it is rounded to. -/
theorem nearestInteger_eq_iff {x : ℚ} (hx : 0 ≤ x) {n : ℕ} :
    nearestInteger x = n ↔ RoundsTo x n := by
  constructor
  · rintro rfl
    exact roundsTo_nearestInteger hx
  · exact (roundsTo_nearestInteger hx).unique

/-- An integer is the nearest one to itself. -/
theorem nearestInteger_natCast (n : ℕ) : nearestInteger n = n := by
  rw [nearestInteger_eq_iff (Nat.cast_nonneg n)]
  exact ⟨by linarith, by linarith, fun _ => ⟨by linarith, by linarith⟩⟩

/-- Quotients of integers are rounded to the nearest integer. -/
theorem roundedQuotient_eq (num : ℕ) {den : ℕ} (hden : 0 < den) :
    roundedQuotient num den = nearestInteger (num / den) := by
  have hpos : (0 : ℚ) < den := by exact_mod_cast hden
  have hfloor : ⌊(num / den : ℚ)⌋₊ = num / den := Nat.floor_div_eq_div num den
  have hrest : 2 * ((num / den : ℚ) - (num / den : ℕ)) = (2 * (num % den) : ℕ) / den := by
    have hdiv : (num : ℚ) = den * (num / den : ℕ) + (num % den : ℕ) := by
      exact_mod_cast (Nat.div_add_mod num den).symm
    have hquotient : (num / den : ℚ) = (num / den : ℕ) + (num % den : ℕ) / den := by
      rw [eq_comm, ← sub_eq_zero]
      field_simp
      linarith
    rw [hquotient]
    push_cast
    ring
  have hlt : ∀ k : ℕ, (k / den : ℚ) < 1 ↔ k < den := by
    intro k
    rw [div_lt_one hpos]
    exact_mod_cast Iff.rfl
  have hgt : ∀ k : ℕ, 1 < (k / den : ℚ) ↔ den < k := by
    intro k
    rw [one_lt_div hpos]
    exact_mod_cast Iff.rfl
  simp only [roundedQuotient, nearestInteger, hfloor, hrest, hlt, hgt]

/-! ## Powers -/

/-- A power with an integer as its exponent, by two natural exponents of which one is zero. -/
theorem zpow_eq_div (b : ℚ) (e : ℤ) : b ^ e = b ^ e.toNat / b ^ (-e).toNat := by
  rcases le_total 0 e with he | he
  · have hneg : (-e).toNat = 0 := by omega
    have hpos : (e.toNat : ℤ) = e := Int.toNat_of_nonneg he
    rw [hneg, pow_zero, div_one, ← zpow_natCast, hpos]
  · have hpos : e.toNat = 0 := by omega
    have hneg : ((-e).toNat : ℤ) = -e := Int.toNat_of_nonneg (by omega)
    rw [hpos, pow_zero, one_div, ← zpow_natCast, hneg, zpow_neg, inv_inv]

/-- A power of two as a rational number. -/
theorem cast_twoTo (n : ℕ) : (twoTo n : ℚ) = 2 ^ n := Nat.cast_pow 2 n

/-- A power of ten as a rational number. -/
theorem cast_tenTo (n : ℕ) : (tenTo n : ℚ) = 10 ^ n := Nat.cast_pow 10 n

/-- A power of two with an integer as its exponent is a quotient of two powers, one of which is
one. -/
theorem two_zpow_eq (e : ℤ) : (2 : ℚ) ^ e = twoTo e.toNat / twoTo (-e).toNat := by
  rw [cast_twoTo, cast_twoTo]
  exact zpow_eq_div 2 e

/-- A power of ten with an integer as its exponent is a quotient of two powers, one of which is
one. -/
theorem ten_zpow_eq (e : ℤ) : (10 : ℚ) ^ e = tenTo e.toNat / tenTo (-e).toNat := by
  rw [cast_tenTo, cast_tenTo]
  exact zpow_eq_div 10 e

/-- Powers of two are positive. -/
theorem two_zpow_pos (e : ℤ) : (0 : ℚ) < 2 ^ e := zpow_pos two_pos e

/-- A power of two is twice the one before. -/
theorem two_zpow_eq_double (e : ℤ) : (2 : ℚ) ^ e = 2 * 2 ^ (e - 1) := by
  rw [← zpow_one_add₀ two_ne_zero, add_sub_cancel]

/-- A significand times a power of two is not negative. -/
theorem mul_two_zpow_nonneg (m : ℕ) (e : ℤ) : (0 : ℚ) ≤ m * 2 ^ e :=
  mul_nonneg (Nat.cast_nonneg m) (two_zpow_pos e).le

/-- A significand that is not zero times a power of two is positive. -/
theorem mul_two_zpow_pos {m : ℕ} (hm : 0 < m) (e : ℤ) : (0 : ℚ) < m * 2 ^ e :=
  mul_pos (Nat.cast_pos.2 hm) (two_zpow_pos e)

/-- Powers of ten are positive. -/
theorem ten_zpow_pos (e : ℤ) : (0 : ℚ) < 10 ^ e := zpow_pos (by norm_num) e

/-- The exponent of a quotient is that of the number. -/
theorem quotientLog2_eq {num den : ℕ} (hnum : 0 < num) (hden : 0 < den) :
    quotientLog2 num den = Int.log 2 (num / den : ℚ) := by
  have hpos : (0 : ℚ) < den := by exact_mod_cast hden
  have hquotient : (0 : ℚ) < num / den := div_pos (by exact_mod_cast hnum) hpos
  have hnum2 : (2 : ℚ) ^ num.log2 ≤ num ∧ (num : ℚ) < 2 ^ (num.log2 + 1) :=
    ⟨by exact_mod_cast Nat.log2_self_le hnum.ne', by exact_mod_cast Nat.lt_log2_self⟩
  have hden2 : (2 : ℚ) ^ den.log2 ≤ den ∧ (den : ℚ) < 2 ^ (den.log2 + 1) :=
    ⟨by exact_mod_cast Nat.log2_self_le hden.ne', by exact_mod_cast Nat.lt_log2_self⟩
  -- The lengths of the two numbers settle the exponent up to one.
  generalize hg : (num.log2 : ℤ) - den.log2 = g
  have hupper : (num / den : ℚ) < 2 ^ (g + 1) := by
    have hpow : (2 : ℚ) ^ (g + 1) * 2 ^ den.log2 = 2 ^ (num.log2 + 1) := by
      rw [← zpow_natCast, ← zpow_natCast, ← zpow_add₀ two_ne_zero]
      congr 1
      push_cast
      omega
    rw [div_lt_iff₀ hpos]
    calc (num : ℚ) < 2 ^ (num.log2 + 1) := hnum2.2
      _ = 2 ^ (g + 1) * 2 ^ den.log2 := hpow.symm
      _ ≤ 2 ^ (g + 1) * den := mul_le_mul_of_nonneg_left hden2.1 (two_zpow_pos _).le
  have hlower : (2 : ℚ) ^ (g - 1) ≤ num / den := by
    have hpow : (2 : ℚ) ^ (g - 1) * 2 ^ (den.log2 + 1) = 2 ^ num.log2 := by
      rw [← zpow_natCast, ← zpow_natCast, ← zpow_add₀ two_ne_zero]
      congr 1
      push_cast
      omega
    rw [le_div_iff₀ hpos]
    calc (2 : ℚ) ^ (g - 1) * den ≤ 2 ^ (g - 1) * 2 ^ (den.log2 + 1) :=
          mul_le_mul_of_nonneg_left hden2.2.le (two_zpow_pos _).le
      _ = 2 ^ num.log2 := hpow
      _ ≤ num := hnum2.1
  have hreached : (if 0 ≤ g then den * twoTo g.toNat ≤ num else den ≤ num * twoTo (-g).toNat) ↔
      (2 : ℚ) ^ g ≤ num / den := by
    rw [le_div_iff₀ hpos]
    split
    · rename_i hg0
      have hzero : (-g).toNat = 0 := by omega
      rw [two_zpow_eq, hzero, mul_comm, div_eq_mul_inv]
      simp only [twoTo, Nat.pow_eq, pow_zero, Nat.cast_one, inv_one, mul_one]
      exact_mod_cast Iff.rfl
    · rename_i hg0
      have hzero : g.toNat = 0 := by omega
      have hpos' : (0 : ℚ) < twoTo (-g).toNat := by rw [cast_twoTo]; positivity
      rw [two_zpow_eq, hzero, div_mul_eq_mul_div, div_le_iff₀ hpos']
      simp only [twoTo, Nat.pow_eq, pow_zero, Nat.cast_one, one_mul]
      exact_mod_cast Iff.rfl
  have hlog := Int.zpow_le_iff_le_log one_lt_two hquotient (x := g)
  have hlog1 := (Int.zpow_le_iff_le_log one_lt_two hquotient).1 hlower
  have hlog2 := (Int.lt_zpow_iff_log_lt one_lt_two hquotient).1 hupper
  simp only [Nat.cast_ofNat] at hlog
  simp only [quotientLog2, hg, hreached, hlog]
  split <;> omega

/-! ## Formats -/

namespace Format

/-- A format whose significands have two bits or more, and whose range ends within the reach of
decimals. -/
structure Proper (f : Format) : Prop where
  precision : 2 ≤ f.precision
  ordered : f.minExponent < f.maxExponent
  above : (2 : ℚ) ^ (f.maxExponent + f.precision) ≤ 10 ^ decimalReach
  below : 2 * (10 : ℚ) ^ (-decimalReach) < 2 ^ f.minExponent

/-- The reach of decimals is beyond the range of doubles. -/
theorem two_pow_lt_ten_pow : (2 : ℚ) ^ 1075 < 10 ^ 400 := by
  have hlt : ((2 : ℚ) ^ 43) ^ 25 < (10 ^ 16) ^ 25 :=
    pow_lt_pow_left₀ (by norm_num) (by norm_num) (by norm_num)
  rw [← pow_mul, ← pow_mul] at hlt
  exact hlt

/-- What is within the range of doubles is within the reach of decimals. -/
theorem proper_of_range {f : Format} (hprecision : 2 ≤ f.precision)
    (hordered : f.minExponent < f.maxExponent) (habove : f.maxExponent + f.precision ≤ 1024)
    (hbelow : -1074 ≤ f.minExponent) : Proper f where
  precision := hprecision
  ordered := hordered
  above := by
    calc (2 : ℚ) ^ (f.maxExponent + f.precision) ≤ 2 ^ (1075 : ℤ) :=
          zpow_le_zpow_right₀ one_le_two (by omega)
      _ ≤ 10 ^ decimalReach := by
          simp only [decimalReach]
          exact_mod_cast two_pow_lt_ten_pow.le
  below := by
    have hlt : 2 * (10 : ℚ) ^ (-decimalReach) < 2 ^ (-1074 : ℤ) := by
      have hinv : ((10 : ℚ) ^ 400)⁻¹ < (2 ^ 1075)⁻¹ :=
        inv_strictAnti₀ (by positivity) two_pow_lt_ten_pow
      have hten : (10 : ℚ) ^ (-decimalReach) = (10 ^ 400)⁻¹ := by
        rw [decimalReach, zpow_neg]
        rfl
      have htwo : (2 : ℚ) ^ (-1074 : ℤ) = 2 * (2 ^ 1075)⁻¹ := by
        rw [← zpow_natCast, ← zpow_neg, ← zpow_one_add₀ two_ne_zero]
        rfl
      rw [hten, htwo]
      exact mul_lt_mul_of_pos_left hinv two_pos
    exact hlt.trans_le (zpow_le_zpow_right₀ one_le_two hbelow)

/-- Doubles are such a format. -/
theorem proper_double : Proper double :=
  proper_of_range (by decide) (by decide) (by decide) (by decide)

/-- Single precision is such a format. -/
theorem proper_single : Proper single :=
  proper_of_range (by decide) (by decide) (by decide) (by decide)

/-- The significands of full length are half of all that are short enough. -/
theorem two_pow_precision {f : Format} (hf : f.Proper) :
    2 ^ f.precision = 2 * 2 ^ (f.precision - 1) := by
  have hprecision : f.precision = f.precision - 1 + 1 := by
    have htwo := hf.precision
    omega
  conv_lhs => rw [hprecision, pow_succ]
  ring

/-- The significands of full length are half of all that are short enough, as rational numbers. -/
theorem cast_two_pow_precision {f : Format} (hf : f.Proper) :
    (2 : ℚ) ^ f.precision = 2 * 2 ^ (f.precision - 1) := by
  exact_mod_cast two_pow_precision hf

variable (f : Format)

/-- Where the last bit of a number stands. -/
def position (x : ℚ) : ℤ := max f.minExponent (Int.log 2 x - (f.precision - 1))

/-- The significand and the exponent that a number is rounded to, the range aside. -/
def placed (x : ℚ) : ℕ × ℤ :=
  let m := nearestInteger (x / 2 ^ f.position x)
  if m = twoTo f.precision then (twoTo (f.precision - 1), f.position x + 1) else (m, f.position x)

/-- The number that a number is rounded to, the range aside. -/
def rounded (x : ℚ) : ℚ := (f.placed x).1 * 2 ^ (f.placed x).2

/-- The number of the format nearest to a number that is not negative, with a sign; beyond the range
there is infinity. -/
def nearest (negative : Bool) (x : ℚ) : Binary :=
  if x = 0 then .finite negative 0 f.minExponent
  else if f.maxExponent < (f.placed x).2 then .infinity negative
  else .finite negative (f.placed x).1 (f.placed x).2

/-- The significand at an exponent is the nearest integer to how often the power goes into the
number. -/
theorem significandAt_eq (e : ℤ) (num : ℕ) {den : ℕ} (hden : 0 < den) :
    significandAt e num den = nearestInteger (num / den / 2 ^ e) := by
  have htwo : ∀ n, 0 < twoTo n := fun n => Nat.two_pow_pos n
  unfold significandAt
  split
  · have hzero : (-e).toNat = 0 := by omega
    rw [roundedQuotient_eq num (Nat.mul_pos hden (htwo _)), two_zpow_eq, hzero]
    simp only [twoTo, Nat.pow_eq, pow_zero, Nat.cast_one, div_one, Nat.cast_mul, div_div]
  · have hzero : e.toNat = 0 := by omega
    rw [roundedQuotient_eq _ hden, two_zpow_eq, hzero]
    simp only [twoTo, Nat.pow_eq, pow_zero, Nat.cast_one, Nat.cast_mul, one_div, div_inv_eq_mul]
    rw [div_mul_eq_mul_div]

/-- Quotients of integers are rounded to the nearest number of the format. -/
theorem round_eq (negative : Bool) (num : ℕ) {den : ℕ} (hden : 0 < den) :
    f.round negative num den = f.nearest negative (num / den) := by
  by_cases hnum : num = 0
  · subst hnum
    simp [round, nearest]
  · have hne : (num / den : ℚ) ≠ 0 := by positivity
    have hposition : f.lastBit num den = f.position (num / den) := by
      rw [lastBit, position, quotientLog2_eq (Nat.pos_of_ne_zero hnum) hden]
    simp only [round, if_neg hnum, nearest, if_neg hne, placed, hposition,
      significandAt_eq _ num hden]
    rfl

/-- A significand and an exponent that a number of the format can have, the range aside: the
significand is as long as the format says, unless the exponent is the least one. -/
structure Canonical (m : ℕ) (e : ℤ) : Prop where
  short : m < 2 ^ f.precision
  low : f.minExponent ≤ e
  long : e = f.minExponent ∨ 2 ^ (f.precision - 1) ≤ m

/-- The middle between a number of the format and the next one towards zero. -/
def middleBelow (m : ℕ) (e : ℤ) : ℚ := (m - Binary.quartersBelow f m e / 4) * 2 ^ e

/-- The middle between a number of the format and the next one away from zero. -/
def middleAbove (m : ℕ) (e : ℤ) : ℚ := (m + 1 / 2) * 2 ^ e

/-- A number lies between the middles towards the two neighbours of a number of the format; the
middles themselves count for an even significand. -/
structure Between (m : ℕ) (e : ℤ) (x : ℚ) : Prop where
  lower : f.middleBelow m e ≤ x
  upper : x ≤ middleAbove m e
  tie : m % 2 = 1 → f.middleBelow m e < x ∧ x < middleAbove m e

/-- Unless a smaller exponent begins there, the middle below is half a unit away. -/
theorem middleBelow_eq {m : ℕ} {e : ℤ} (h : ¬ (m = 2 ^ (f.precision - 1) ∧ f.minExponent < e)) :
    f.middleBelow m e = (m - 1 / 2) * 2 ^ e := by
  have hquarters : Binary.quartersBelow f m e = 2 := by
    refine if_neg fun hboth => h ?_
    rw [Bool.and_eq_true_iff] at hboth
    exact ⟨of_decide_eq_true hboth.1, of_decide_eq_true hboth.2⟩
  rw [middleBelow, hquarters]
  norm_num

/-- At a power of two the neighbour towards zero has the smaller exponent. -/
theorem middleBelow_power (hf : f.Proper) {e : ℤ} (h : f.minExponent < e) :
    f.middleBelow (2 ^ (f.precision - 1)) e = (2 ^ f.precision - 1 / 2) * 2 ^ (e - 1) := by
  have hquarters : Binary.quartersBelow f (2 ^ (f.precision - 1)) e = 1 := by
    simp [Binary.quartersBelow, twoTo, h]
  rw [middleBelow, hquarters, cast_two_pow_precision hf, two_zpow_eq_double e]
  push_cast
  ring

/-- The middle below is at most half a unit away. -/
theorem le_middleBelow (m : ℕ) (e : ℤ) : (m - 1 / 2 : ℚ) * 2 ^ e ≤ f.middleBelow m e := by
  have hquarters : (Binary.quartersBelow f m e : ℚ) ≤ 2 := by
    have hle : Binary.quartersBelow f m e ≤ 2 := by
      unfold Binary.quartersBelow
      split <;> omega
    exact_mod_cast hle
  exact mul_le_mul_of_nonneg_right (by linarith) (two_zpow_pos e).le

/-- The middle below is at least a quarter of a unit away. -/
theorem middleBelow_le (m : ℕ) (e : ℤ) : f.middleBelow m e ≤ (m - 1 / 4 : ℚ) * 2 ^ e := by
  have hquarters : (1 : ℚ) ≤ Binary.quartersBelow f m e := by
    have hone : 1 ≤ Binary.quartersBelow f m e := by
      unfold Binary.quartersBelow
      split <;> omega
    exact_mod_cast hone
  exact mul_le_mul_of_nonneg_right (by linarith) (two_zpow_pos e).le

/-- The middle below is less than the number. -/
theorem middleBelow_lt (m : ℕ) (e : ℤ) : f.middleBelow m e < (m : ℚ) * 2 ^ e :=
  (f.middleBelow_le m e).trans_lt (mul_lt_mul_of_pos_right (by linarith) (two_zpow_pos e))

/-- The middle above is greater than the number. -/
theorem lt_middleAbove (m : ℕ) (e : ℤ) : (m : ℚ) * 2 ^ e < middleAbove m e :=
  mul_lt_mul_of_pos_right (by linarith) (two_zpow_pos e)

variable {f}

namespace Between

variable {m : ℕ} {e : ℤ} {x y z : ℚ}

/-- What lies between the middles is an interval. -/
theorem convex (hx : f.Between m e x) (hy : f.Between m e y) (hxz : x ≤ z) (hzy : z ≤ y) :
    f.Between m e z := by
  refine ⟨hx.lower.trans hxz, hzy.trans hy.upper, fun hodd => ⟨?_, ?_⟩⟩
  · exact (hx.tie hodd).1.trans_le hxz
  · exact hzy.trans_lt (hy.tie hodd).2

/-- What is strictly between the middles is between them for an odd significand too. -/
theorem of_lt (hlower : f.middleBelow m e < x) (hupper : x < middleAbove m e) : f.Between m e x :=
  ⟨hlower.le, hupper.le, fun _ => ⟨hlower, hupper⟩⟩

/-- A number lies between the middles towards its own neighbours. -/
theorem self (f : Format) (m : ℕ) (e : ℤ) : f.Between m e (m * 2 ^ e) :=
  of_lt (f.middleBelow_lt m e) (lt_middleAbove m e)

end Between

/-- The last bit stands nowhere below the least exponent. -/
theorem min_le_position (x : ℚ) : f.minExponent ≤ f.position x := le_max_left _ _

/-- A number is shorter than a significand, in units of its last bit. -/
theorem div_position_lt (x : ℚ) :
    x / 2 ^ f.position x < 2 ^ f.precision := by
  have hlog : x < 2 ^ (Int.log 2 x + 1) := Int.lt_zpow_succ_log_self one_lt_two x
  have hposition : Int.log 2 x - (f.precision - 1) ≤ f.position x := le_max_right _ _
  rw [div_lt_iff₀ (two_zpow_pos _), ← zpow_natCast, ← zpow_add₀ two_ne_zero]
  exact hlog.trans_le (zpow_le_zpow_right₀ one_le_two (by omega))

/-- A number is as long as a significand, in units of its last bit, if that is not the last one of
the format. -/
theorem le_div_position (hf : f.Proper) {x : ℚ} (hx : 0 < x) (h : f.minExponent < f.position x) :
    2 ^ (f.precision - 1) ≤ x / 2 ^ f.position x := by
  have hlog : (2 : ℚ) ^ Int.log 2 x ≤ x := Int.zpow_log_le_self one_lt_two hx
  have hprecision := hf.precision
  have hposition : f.position x = Int.log 2 x - (f.precision - 1) := by
    unfold position at h ⊢
    omega
  have hexp : ((f.precision - 1 : ℕ) : ℤ) + f.position x = Int.log 2 x := by omega
  rw [le_div_iff₀ (two_zpow_pos _), ← zpow_natCast, ← zpow_add₀ two_ne_zero, hexp]
  exact hlog

/-- The last bit stands where the significand has its full length, or at the least exponent. -/
theorem position_eq (hf : f.Proper) {x : ℚ} {e : ℤ} (hx : 0 < x) (hmin : f.minExponent ≤ e)
    (hlt : x < 2 ^ f.precision * 2 ^ e)
    (hle : e = f.minExponent ∨ 2 ^ (f.precision - 1) * 2 ^ e ≤ x) : f.position x = e := by
  have hprecision := hf.precision
  have hlog : Int.log 2 x < f.precision + e := by
    rw [← zpow_natCast, ← zpow_add₀ two_ne_zero] at hlt
    exact (Int.lt_zpow_iff_log_lt one_lt_two hx).1 hlt
  unfold position
  rcases hle with rfl | hle
  · omega
  · rw [← zpow_natCast, ← zpow_add₀ two_ne_zero] at hle
    have hlog' := (Int.zpow_le_iff_le_log one_lt_two hx).1 hle
    omega

/-- The least significand of full length is even. -/
theorem two_pow_even (hf : f.Proper) : 2 ^ (f.precision - 1) % 2 = 0 := by
  have hprecision : f.precision - 1 = f.precision - 2 + 1 := by
    have htwo := hf.precision
    omega
  rw [hprecision, pow_succ]
  omega

/-- A number that is rounded up to a power of two lies between the middles. -/
theorem canonical_between_carry (hf : f.Proper) {x : ℚ} {e : ℤ} (hlow : f.minExponent ≤ e)
    (hlt : x / 2 ^ e < 2 ^ f.precision) (hcarry : 2 ^ f.precision - 1 / 2 ≤ x / 2 ^ e) :
    f.Canonical (2 ^ (f.precision - 1)) (e + 1) ∧ f.Between (2 ^ (f.precision - 1)) (e + 1) x := by
  have hunit := two_zpow_pos e
  have heven := two_pow_even hf
  have hpow := cast_two_pow_precision hf
  rw [div_lt_iff₀ hunit] at hlt
  rw [le_div_iff₀ hunit] at hcarry
  refine ⟨⟨?_, by omega, .inr le_rfl⟩, ⟨?_, ?_, fun hodd => by omega⟩⟩
  · exact Nat.pow_lt_pow_right one_lt_two (by have htwo := hf.precision; omega)
  · rw [f.middleBelow_power hf (by omega), add_sub_cancel_right]
    exact hcarry
  · rw [hpow] at hlt
    rw [middleAbove, zpow_add_one₀ two_ne_zero]
    push_cast
    linarith

/-- A number that is rounded in its own binade lies between the middles. -/
theorem canonical_between_plain (hf : f.Proper) {x : ℚ} {e : ℤ} {n : ℕ} (hlow : f.minExponent ≤ e)
    (hlt : x / 2 ^ e < 2 ^ f.precision)
    (hle : f.minExponent < e → 2 ^ (f.precision - 1) ≤ x / 2 ^ e)
    (hrounds : RoundsTo (x / 2 ^ e) n) (hne : n ≠ 2 ^ f.precision) :
    f.Canonical n e ∧ f.Between n e x := by
  have hunit := two_zpow_pos e
  have hy : x = x / 2 ^ e * 2 ^ e := by field_simp
  have hlower := hrounds.lower
  have hupper := hrounds.upper
  have hshort : n < 2 ^ f.precision := by
    have hlt : (n : ℚ) < (2 ^ f.precision + 1 : ℕ) := by
      push_cast
      linarith
    have hlt : n < 2 ^ f.precision + 1 := by exact_mod_cast hlt
    omega
  -- The integer has full length, since what it is rounded from has.
  have hlong : e = f.minExponent ∨ 2 ^ (f.precision - 1) ≤ n := by
    rcases hlow.eq_or_lt with heq | hmin
    · exact .inl heq.symm
    · have hge := hle hmin
      have hlt : ((2 ^ (f.precision - 1) : ℕ) : ℚ) < (n + 1 : ℕ) := by
        push_cast
        linarith
      have hlt : 2 ^ (f.precision - 1) < n + 1 := by exact_mod_cast hlt
      exact .inr (by omega)
  have habove : x ≤ middleAbove n e := by
    rw [hy]
    exact mul_le_mul_of_nonneg_right hupper hunit.le
  refine ⟨⟨hshort, hlow, hlong⟩, ?_⟩
  by_cases hpower : n = 2 ^ (f.precision - 1) ∧ f.minExponent < e
  · -- The number is not below the power of two, so that the smaller distance does not matter.
    have heven := two_pow_even hf
    refine ⟨?_, habove, fun hodd => by omega⟩
    have hge := hle hpower.2
    rw [le_div_iff₀ hunit] at hge
    refine le_trans ?_ hge
    rw [hpower.1, middleBelow]
    push_cast
    have hquarters : (0 : ℚ) ≤ Binary.quartersBelow f (2 ^ (f.precision - 1)) e := Nat.cast_nonneg _
    exact mul_le_mul_of_nonneg_right (by linarith) hunit.le
  · refine ⟨?_, habove, fun hodd => ⟨?_, ?_⟩⟩
    · rw [f.middleBelow_eq hpower, hy]
      exact mul_le_mul_of_nonneg_right hlower hunit.le
    · rw [f.middleBelow_eq hpower, hy]
      exact mul_lt_mul_of_pos_right (hrounds.tie hodd).1 hunit
    · rw [hy]
      exact mul_lt_mul_of_pos_right (hrounds.tie hodd).2 hunit

/-- A number is rounded to a significand and an exponent of the format, and lies between the middles
towards their neighbours. -/
theorem placed_spec (hf : f.Proper) {x : ℚ} (hx : 0 < x) :
    f.Canonical (f.placed x).1 (f.placed x).2 ∧ f.Between (f.placed x).1 (f.placed x).2 x := by
  have hlow := min_le_position (f := f) x
  have hlt := div_position_lt (f := f) x
  have hle := le_div_position hf hx
  have hrounds := roundsTo_nearestInteger (div_nonneg hx.le (two_zpow_pos (f.position x)).le)
  simp only [placed]
  split
  · rename_i hcarry
    have hlower := hrounds.lower
    rw [hcarry, cast_twoTo] at hlower
    exact canonical_between_carry hf hlow hlt hlower
  · rename_i hcarry
    exact canonical_between_plain hf hlow hlt hle hrounds hcarry

/-- Below a power of two, but not below the middle there, a number is rounded up to it. -/
theorem placed_eq_of_carry (hf : f.Proper) {x : ℚ} (hx : 0 < x) {e : ℤ} (hmin : f.minExponent < e)
    (hbelow : x < 2 ^ (f.precision - 1) * 2 ^ e)
    (hmiddle : (2 ^ f.precision - 1 / 2) * 2 ^ (e - 1) ≤ x) :
    f.placed x = (2 ^ (f.precision - 1), e) := by
  have hunit := two_zpow_pos (e - 1)
  have hlt : x < 2 ^ f.precision * 2 ^ (e - 1) := by
    rw [two_zpow_eq_double e] at hbelow
    rw [cast_two_pow_precision hf]
    linarith
  have hposition : f.position x = e - 1 := by
    refine position_eq hf hx (by omega) hlt (.inr ?_)
    refine le_trans (mul_le_mul_of_nonneg_right ?_ hunit.le) hmiddle
    have hone : (1 : ℚ) ≤ 2 ^ (f.precision - 1) := one_le_pow₀ one_le_two
    rw [cast_two_pow_precision hf]
    linarith
  have hrounds : RoundsTo (x / 2 ^ (e - 1)) (2 ^ f.precision) := by
    refine ⟨?_, ?_, fun hodd => ?_⟩
    · rw [le_div_iff₀ hunit]
      exact_mod_cast hmiddle
    · rw [div_le_iff₀ hunit]
      refine hlt.le.trans (mul_le_mul_of_nonneg_right ?_ hunit.le)
      push_cast
      linarith
    · have heven := two_pow_precision hf
      omega
  have hnearest := (nearestInteger_eq_iff (div_nonneg hx.le hunit.le)).2 hrounds
  have hplaced : f.placed x = (twoTo (f.precision - 1), e - 1 + 1) := by
    simp only [placed, hposition, hnearest]
    exact if_pos rfl
  rw [hplaced, sub_add_cancel]
  rfl

/-- A number is rounded to the number of the format between whose middles it lies. -/
theorem placed_eq_of_between (hf : f.Proper) {x : ℚ} (hx : 0 < x) {m : ℕ} {e : ℤ}
    (hcanonical : f.Canonical m e) (hbetween : f.Between m e x) : f.placed x = (m, e) := by
  have hunit := two_zpow_pos e
  have hshort : (m : ℚ) + 1 ≤ 2 ^ f.precision := by exact_mod_cast hcanonical.short
  have hlower := (f.le_middleBelow m e).trans hbetween.lower
  have hupper : x ≤ (m + 1 / 2) * 2 ^ e := hbetween.upper
  have hlt : x < 2 ^ f.precision * 2 ^ e :=
    hupper.trans_lt (mul_lt_mul_of_pos_right (by linarith) hunit)
  by_cases hle : e = f.minExponent ∨ 2 ^ (f.precision - 1) * 2 ^ e ≤ x
  · have hposition := position_eq hf hx hcanonical.low hlt hle
    have hrounds : RoundsTo (x / 2 ^ e) m := by
      refine ⟨?_, ?_, fun hodd => ⟨?_, ?_⟩⟩
      · rwa [le_div_iff₀ hunit]
      · rwa [div_le_iff₀ hunit]
      · rw [lt_div_iff₀ hunit]
        exact (f.le_middleBelow m e).trans_lt (hbetween.tie hodd).1
      · rw [div_lt_iff₀ hunit]
        exact (hbetween.tie hodd).2
    have hnearest := (nearestInteger_eq_iff (div_nonneg hx.le hunit.le)).2 hrounds
    have hne : m ≠ twoTo f.precision := hcanonical.short.ne
    simp only [placed, hposition, hnearest, if_neg hne]
  · -- Below its power of two the number can only be rounded up to it.
    push Not at hle
    obtain ⟨hmin, hbelow⟩ := hle
    have hlong := hcanonical.long.resolve_left hmin
    have hmin : f.minExponent < e := lt_of_le_of_ne hcanonical.low (Ne.symm hmin)
    have hpower : m = 2 ^ (f.precision - 1) := by
      by_contra hne
      have hge : 2 ^ (f.precision - 1) + 1 ≤ m := by omega
      have hge : (2 : ℚ) ^ (f.precision - 1) + 1 ≤ m := by exact_mod_cast hge
      have hmul : 2 ^ (f.precision - 1) * (2 : ℚ) ^ e ≤ (m - 1 / 2) * 2 ^ e :=
        mul_le_mul_of_nonneg_right (by linarith) hunit.le
      linarith
    have hmiddle := hbetween.lower
    rw [hpower, f.middleBelow_power hf hmin] at hmiddle
    rw [hpower, placed_eq_of_carry hf hx hmin hbelow hmiddle]

/-- A number is rounded to the number of the format between whose middles it lies, and to no other
one. -/
theorem placed_eq_iff (hf : f.Proper) {x : ℚ} (hx : 0 < x) {m : ℕ} {e : ℤ} :
    f.placed x = (m, e) ↔ f.Canonical m e ∧ f.Between m e x := by
  constructor
  · intro h
    have hspec := placed_spec hf hx
    rw [h] at hspec
    exact hspec
  · rintro ⟨hcanonical, hbetween⟩
    exact placed_eq_of_between hf hx hcanonical hbetween

/-! ## What rounding does to a number -/

/-- A carry does not change the number. -/
theorem rounded_eq (hf : f.Proper) (x : ℚ) :
    f.rounded x = nearestInteger (x / 2 ^ f.position x) * 2 ^ f.position x := by
  have hpow := cast_two_pow_precision hf
  simp only [rounded, placed]
  split
  · rename_i hcarry
    rw [hcarry, cast_twoTo, cast_twoTo, hpow, zpow_add_one₀ two_ne_zero]
    ring
  · rfl

/-- Zero is rounded to zero. -/
theorem rounded_zero (hf : f.Proper) : f.rounded 0 = 0 := by
  have hnearest : nearestInteger 0 = 0 := by exact_mod_cast nearestInteger_natCast 0
  rw [rounded_eq hf, zero_div, hnearest, Nat.cast_zero, zero_mul]

/-- Rounding never more than doubles a number. -/
theorem rounded_le (hf : f.Proper) {x : ℚ} (hx : 0 ≤ x) : f.rounded x ≤ 2 * x := by
  have hunit := two_zpow_pos (f.position x)
  have hy : 0 ≤ x / 2 ^ f.position x := div_nonneg hx hunit.le
  have hlower := (roundsTo_nearestInteger hy).lower
  have hx : x = x / 2 ^ f.position x * 2 ^ f.position x := by field_simp
  have hle : (nearestInteger (x / 2 ^ f.position x) : ℚ) ≤ 2 * (x / 2 ^ f.position x) := by
    rcases Nat.eq_zero_or_pos (nearestInteger (x / 2 ^ f.position x)) with hzero | hpos
    · rw [hzero, Nat.cast_zero]
      linarith
    · have hone : (1 : ℚ) ≤ nearestInteger (x / 2 ^ f.position x) := by exact_mod_cast hpos
      linarith
  rw [rounded_eq hf]
  calc (nearestInteger (x / 2 ^ f.position x) : ℚ) * 2 ^ f.position x
      ≤ 2 * (x / 2 ^ f.position x) * 2 ^ f.position x := mul_le_mul_of_nonneg_right hle hunit.le
    _ = 2 * x := by rw [mul_assoc, ← hx]

/-- The error is at most one half of the last bit. -/
theorem abs_rounded_sub_le (hf : f.Proper) {x : ℚ} (hx : 0 ≤ x) :
    |f.rounded x - x| ≤ 2 ^ f.position x / 2 := by
  have hunit := two_zpow_pos (f.position x)
  have hrounds := roundsTo_nearestInteger (div_nonneg hx hunit.le)
  have hlower := hrounds.lower
  have hupper := hrounds.upper
  rw [le_div_iff₀ hunit] at hlower
  rw [div_le_iff₀ hunit] at hupper
  rw [rounded_eq hf, abs_le]
  constructor <;> linarith

/-- For numbers that are not too small the error is that part of the number that the precision
says. -/
theorem abs_rounded_sub_le_mul (hf : f.Proper) {x : ℚ}
    (hx : 2 ^ (f.minExponent + f.precision) ≤ x) : |f.rounded x - x| ≤ x / 2 ^ f.precision := by
  have hpos : 0 < x := (two_zpow_pos _).trans_le hx
  have hpow := cast_two_pow_precision hf
  have hmin : f.minExponent < f.position x := by
    have hlog := (Int.zpow_le_iff_le_log one_lt_two hpos).1 hx
    unfold position
    omega
  have hle := le_div_position hf hpos hmin
  rw [le_div_iff₀ (two_zpow_pos _)] at hle
  refine (abs_rounded_sub_le hf hpos.le).trans ?_
  rw [hpow, div_le_div_iff₀ two_pos (by positivity)]
  linarith

/-- Such a number does not lose more than half. -/
theorem le_two_mul_rounded (hf : f.Proper) {x : ℚ}
    (hx : 2 ^ (f.minExponent + f.precision) ≤ x) : x ≤ 2 * f.rounded x := by
  have hpos : 0 < x := (two_zpow_pos _).trans_le hx
  have hone : (1 : ℚ) ≤ 2 ^ (f.precision - 1) := one_le_pow₀ one_le_two
  have hpart : x / 2 ^ f.precision ≤ x / 2 := by
    rw [cast_two_pow_precision hf]
    exact div_le_div_of_nonneg_left hpos.le two_pos (by linarith)
  have herror := (abs_le.1 (abs_rounded_sub_le_mul hf hx)).1
  linarith

/-- Doubles have their full precision far below the units of decimals. -/
theorem double_precision_le {x : ℚ} (h : 1 / 10 ^ 22 ≤ x) :
    (2 : ℚ) ^ (double.minExponent + double.precision) ≤ x := by
  calc (2 : ℚ) ^ (double.minExponent + double.precision) ≤ 2 ^ (-100 : ℤ) :=
        zpow_le_zpow_right₀ one_le_two (by decide)
    _ ≤ 1 / 10 ^ 22 := by norm_num
    _ ≤ x := h

/-- A number with few enough bits is not changed. -/
theorem rounded_of_short (hf : f.Proper) {n : ℕ} {s : ℤ} (hpos : 0 < n)
    (hshort : n < 2 ^ f.precision) (hmin : f.minExponent ≤ s) :
    f.rounded (n * 2 ^ s) = n * 2 ^ s := by
  have hx : (0 : ℚ) < n * 2 ^ s := mul_two_zpow_pos hpos s
  have hposition : f.position (n * 2 ^ s) ≤ s := by
    have hlt : (n : ℚ) * 2 ^ s < 2 ^ (f.precision + s) := by
      rw [zpow_add₀ two_ne_zero, zpow_natCast]
      exact mul_lt_mul_of_pos_right (by exact_mod_cast hshort) (two_zpow_pos s)
    have hlog := (Int.lt_zpow_iff_log_lt one_lt_two hx).1 hlt
    unfold position
    omega
  obtain ⟨k, hk⟩ : ∃ k : ℕ, (k : ℤ) = s - f.position (n * 2 ^ s) :=
    ⟨(s - f.position (n * 2 ^ s)).toNat, Int.toNat_of_nonneg (by omega)⟩
  have hwhole : (n * 2 ^ s / 2 ^ f.position (n * 2 ^ s) : ℚ) = (n * 2 ^ k : ℕ) := by
    rw [mul_div_assoc, ← zpow_sub₀ two_ne_zero, ← hk]
    push_cast
    rfl
  rw [rounded_eq hf, hwhole, nearestInteger_natCast, ← hwhole]
  exact div_mul_cancel₀ _ (two_zpow_pos _).ne'

/-- Rounding moves the last bit upwards at most. -/
theorem position_le_placed (x : ℚ) : f.position x ≤ (f.placed x).2 := by
  simp only [placed]
  split
  · exact (lt_add_one _).le
  · exact le_rfl

/-- A large number is rounded to one with a large exponent. -/
theorem le_placed_exponent {x : ℚ} {e : ℤ} (h : (2 : ℚ) ^ (e + (f.precision - 1)) ≤ x) :
    e ≤ (f.placed x).2 := by
  have hx : 0 < x := (two_zpow_pos _).trans_le h
  have hlog := (Int.zpow_le_iff_le_log one_lt_two hx).1 h
  refine le_trans ?_ (position_le_placed x)
  unfold position
  omega

/-! ## The ends of the range -/

/-- Beyond the range there is infinity. -/
theorem nearest_of_large {x : ℚ} (negative : Bool) (h : 2 ^ (f.maxExponent + f.precision) ≤ x) :
    f.nearest negative x = .infinity negative := by
  have hx : 0 < x := (two_zpow_pos _).trans_le h
  have hexponent : f.maxExponent + 1 ≤ (f.placed x).2 := by
    refine le_placed_exponent ?_
    have hexp : f.maxExponent + 1 + (f.precision - 1) = f.maxExponent + f.precision := by omega
    rw [hexp]
    exact h
  rw [nearest, if_neg hx.ne', if_pos (Int.lt_iff_add_one_le.2 hexponent)]

/-- Zero is a significand at the least exponent. -/
theorem canonical_zero : f.Canonical 0 f.minExponent := ⟨Nat.two_pow_pos _, le_rfl, .inl rfl⟩

/-- At most half of the smallest number there is zero. -/
theorem nearest_of_small (hf : f.Proper) {x : ℚ} (negative : Bool) (hx : 0 < x)
    (h : 2 * x ≤ 2 ^ f.minExponent) :
    f.nearest negative x = .finite negative 0 f.minExponent := by
  have hunit := two_zpow_pos f.minExponent
  have hne : ¬ (0 = 2 ^ (f.precision - 1) ∧ f.minExponent < f.minExponent) :=
    fun h => lt_irrefl _ h.2
  have hbetween : f.Between 0 f.minExponent x := by
    refine ⟨?_, ?_, nofun⟩
    · rw [f.middleBelow_eq hne]
      push_cast
      linarith
    · rw [middleAbove]
      push_cast
      linarith
  have hplaced := placed_eq_of_between hf hx canonical_zero hbetween
  rw [nearest, if_neg hx.ne', hplaced, if_neg hf.ordered.le.not_gt]

/-- Up to the largest number of the format there is a finite number. -/
theorem nearest_of_inRange (hf : f.Proper) {x : ℚ} (negative : Bool) (hx : 0 < x)
    (h : x ≤ (2 ^ f.precision - 1) * 2 ^ f.maxExponent) :
    f.nearest negative x = .finite negative (f.placed x).1 (f.placed x).2 := by
  have hunit := two_zpow_pos f.maxExponent
  have hordered := hf.ordered
  have hposition : f.position x ≤ f.maxExponent := by
    have hlt : x < 2 ^ (f.precision + f.maxExponent) := by
      rw [zpow_add₀ two_ne_zero, zpow_natCast]
      exact h.trans_lt (mul_lt_mul_of_pos_right (by linarith) hunit)
    have hlog := (Int.lt_zpow_iff_log_lt one_lt_two hx).1 hlt
    unfold position
    omega
  have hplaced : (f.placed x).2 ≤ f.maxExponent := by
    simp only [placed]
    split
    · -- A carry needs more than the largest significand.
      rename_i hcarry
      refine Int.add_one_le_iff.2 (lt_of_le_of_ne hposition fun heq => ?_)
      rw [heq] at hcarry
      have hlower := (roundsTo_nearestInteger (div_nonneg hx.le hunit.le)).lower
      rw [hcarry, cast_twoTo, le_div_iff₀ hunit] at hlower
      have hlt : (2 ^ f.precision - 1) * (2 : ℚ) ^ f.maxExponent <
          (2 ^ f.precision - 1 / 2) * 2 ^ f.maxExponent :=
        mul_lt_mul_of_pos_right (by linarith) hunit
      linarith
    · exact hposition
  rw [nearest, if_neg hx.ne', if_neg hplaced.not_gt]

/-- A significand and an exponent of a number of the format. -/
structure Member (f : Format) (m : ℕ) (e : ℤ) : Prop extends f.Canonical m e where
  high : e ≤ f.maxExponent

/-- Up to the largest number of the format a number is rounded to a finite one. -/
theorem exists_nearest_eq (hf : f.Proper) {x : ℚ} (negative : Bool) (hx : 0 ≤ x)
    (h : x ≤ (2 ^ f.precision - 1) * 2 ^ f.maxExponent) :
    ∃ m e, f.nearest negative x = .finite negative m e ∧ f.Member m e ∧
      (m * 2 ^ e : ℚ) = f.rounded x := by
  rcases hx.eq_or_lt with rfl | hpos
  · refine ⟨0, f.minExponent, if_pos rfl, ⟨canonical_zero, hf.ordered.le⟩, ?_⟩
    rw [rounded_zero hf, Nat.cast_zero, zero_mul]
  · have hnearest := nearest_of_inRange hf negative hpos h
    refine ⟨(f.placed x).1, (f.placed x).2, hnearest, ⟨(placed_spec hf hpos).1, ?_⟩, rfl⟩
    by_contra hhigh
    rw [nearest, if_neg hpos.ne', if_pos (not_le.1 hhigh)] at hnearest
    cases hnearest

/-- A number that lies between the middles of a number of the format is rounded to it. -/
theorem nearest_of_between (hf : f.Proper) {x : ℚ} (negative : Bool) (hx : 0 < x) {m : ℕ} {e : ℤ}
    (hmember : f.Member m e) (hbetween : f.Between m e x) :
    f.nearest negative x = .finite negative m e := by
  have hplaced := placed_eq_of_between hf hx hmember.toCanonical hbetween
  rw [nearest, if_neg hx.ne', hplaced, if_neg hmember.high.not_gt]

/-- A number that lies between the middles of a number of the format is rounded to it. -/
theorem rounded_of_between (hf : f.Proper) {x : ℚ} (hx : 0 < x) {m : ℕ} {e : ℤ}
    (hcanonical : f.Canonical m e) (hbetween : f.Between m e x) : f.rounded x = m * 2 ^ e := by
  rw [rounded, placed_eq_of_between hf hx hcanonical hbetween]

/-- A number of the format has one significand and exponent. -/
theorem Canonical.unique (hf : f.Proper) {m m' : ℕ} {e e' : ℤ} (h : f.Canonical m e)
    (h' : f.Canonical m' e') (hm : 0 < m) (heq : (m * 2 ^ e : ℚ) = m' * 2 ^ e') :
    m = m' ∧ e = e' := by
  have hx : (0 : ℚ) < m * 2 ^ e := mul_two_zpow_pos hm e
  have hplaced := placed_eq_of_between hf hx h (.self f m e)
  rw [placed_eq_of_between hf hx h' (heq ▸ .self f m' e')] at hplaced
  obtain ⟨rfl, rfl⟩ := Prod.mk.inj hplaced
  exact ⟨rfl, rfl⟩

/-- What is rounded to a number lies between its middles. -/
theorem between_of_rounded_eq (hf : f.Proper) {x : ℚ} (hx : 0 < x) {m : ℕ} {e : ℤ}
    (hcanonical : f.Canonical m e) (hm : 0 < m) (heq : f.rounded x = m * 2 ^ e) :
    f.Between m e x := by
  obtain ⟨hcanonical', hbetween⟩ := placed_spec hf hx
  obtain ⟨hsignificand, hexponent⟩ := hcanonical.unique hf hcanonical' hm heq.symm
  rw [hsignificand, hexponent]
  exact hbetween

/-- A number of the format is not changed. -/
theorem rounded_self (hf : f.Proper) {m : ℕ} {e : ℤ} (h : f.Canonical m e) :
    f.rounded (m * 2 ^ e) = m * 2 ^ e := by
  rcases Nat.eq_zero_or_pos m with rfl | hm
  · rw [Nat.cast_zero, zero_mul, rounded_zero hf]
  · have hx : (0 : ℚ) < m * 2 ^ e := mul_two_zpow_pos hm e
    exact rounded_of_between hf hx h (.self f m e)

end Format

/-! ## Decimals -/

/-- An integer is as long as the power of ten of its first digit says. -/
theorem toDigits_bounds {n : ℕ} (hn : 0 < n) :
    10 ^ ((Nat.toDigits 10 n).length - 1) ≤ n ∧ n < 10 ^ (Nat.toDigits 10 n).length := by
  have hpos : 0 < (Nat.toDigits 10 n).length := List.length_pos_iff.2 Nat.toDigits_ne_nil
  refine ⟨?_, (Nat.length_toDigits_le_iff (by norm_num) hpos).1 le_rfl⟩
  by_contra hlt
  push Not at hlt
  rcases Nat.eq_zero_or_pos ((Nat.toDigits 10 n).length - 1) with hzero | hpos'
  · rw [hzero] at hlt
    omega
  · have hle := (Nat.length_toDigits_le_iff (b := 10) (by norm_num) hpos').2 hlt
    omega

/-- A decimal with an exponent is rounded as the number that it denotes, however large or small the
exponent is. -/
theorem Format.ofDecimal_eq {f : Format} (hf : f.Proper) (negative : Bool) (n : ℕ) (e : ℤ) :
    f.ofDecimal negative n e = f.nearest negative (n * 10 ^ e) := by
  by_cases hn : n = 0
  · simp [ofDecimal, nearest, hn]
  · have hdigits := toDigits_bounds (Nat.pos_of_ne_zero hn)
    have hlength : 0 < (Nat.toDigits 10 n).length := List.length_pos_iff.2 Nat.toDigits_ne_nil
    generalize hl : (Nat.toDigits 10 n).length = l at hdigits hlength
    have hlower : (10 : ℚ) ^ (l - 1 + e) ≤ n * 10 ^ e := by
      have hle : (10 : ℚ) ^ ((l - 1 : ℕ) : ℤ) ≤ n := by exact_mod_cast hdigits.1
      have hexp : (l : ℤ) - 1 = (l - 1 : ℕ) := by omega
      rw [zpow_add₀ (by norm_num), hexp]
      exact mul_le_mul_of_nonneg_right hle (ten_zpow_pos e).le
    have hupper : n * 10 ^ e < (10 : ℚ) ^ (l + e) := by
      have hlt : (n : ℚ) < 10 ^ (l : ℤ) := by exact_mod_cast hdigits.2
      rw [zpow_add₀ (by norm_num)]
      exact mul_lt_mul_of_pos_right hlt (ten_zpow_pos e)
    have hten : (1 : ℚ) ≤ 10 := by norm_num
    -- Exponents out of reach are cut off before anything is computed.
    simp only [ofDecimal, if_neg hn, hl]
    split
    · rename_i hlarge
      refine (nearest_of_large negative ?_).symm
      exact hf.above.trans ((zpow_le_zpow_right₀ hten (by omega)).trans hlower)
    · split
      · rename_i hsmall
        have hx : (0 : ℚ) < n * 10 ^ e := (ten_zpow_pos _).trans_le hlower
        refine (nearest_of_small hf negative hx ?_).symm
        have hle : n * 10 ^ e ≤ (10 : ℚ) ^ (-decimalReach) :=
          hupper.le.trans (zpow_le_zpow_right₀ hten (by omega))
        have hbelow := hf.below
        linarith
      · split
        · have hzero : (-e).toNat = 0 := by omega
          rw [f.round_eq negative _ one_pos, ten_zpow_eq, hzero]
          simp [tenTo]
        · have hzero : e.toNat = 0 := by omega
          have hpos : 0 < tenTo (-e).toNat := Nat.pow_pos (by norm_num)
          rw [f.round_eq negative n hpos, ten_zpow_eq, hzero]
          simp [tenTo, div_eq_mul_inv]

/-! ## Values -/

namespace Binary

/-- The magnitude of a finite number is its significand times a power of two. -/
theorem magnitude_eq (m : ℕ) (e : ℤ) : magnitude m e = m * 2 ^ e := by
  unfold magnitude
  split
  · have hzero : (-e).toNat = 0 := by omega
    rw [two_zpow_eq, hzero]
    simp [twoTo]
  · have hzero : e.toNat = 0 := by omega
    rw [Rat.mkRat_eq_div, two_zpow_eq, hzero]
    simp [twoTo, div_eq_mul_inv]

end Binary

end ShEx.Number
