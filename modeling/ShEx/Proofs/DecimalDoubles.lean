import ShEx.Proofs.DecimalValues
import ShEx.Proofs.ShortestDigits

/-!
# Decimals as doubles

A decimal becomes a double in two steps: its digits, without the zeros at the end, are rounded as an
integer, and the quotient by the power of ten is rounded again (`Decimal.toRat?_toDouble`).  The
error of both together is small (`Decimal.abs_doubled_sub_le`), and up to 53 bits the first step
does nothing (`Decimal.doubled_of_short`).  From `10 ^ 16` on every decimal lies in an interval of
which the two ends become the same double (`Decimal.exists_sameDouble`).
-/

set_option autoImplicit false

namespace ShEx.Number

/-! ## The order of floating point numbers -/

namespace Binary

/-- Finite numbers are ordered by their values. -/
theorem compare?_eq_of_toRat? {a b : Binary} {x y : ℚ} (ha : a.toRat? = some x)
    (hb : b.toRat? = some y) : a.compare? b = some (compareRat x y) := by
  cases a with
  | nan => cases ha
  | infinity negative => cases ha
  | finite s m e =>
    cases b with
    | nan => cases hb
    | infinity negative => cases hb
    | finite t n f =>
      obtain rfl := Option.some.inj ha
      obtain rfl := Option.some.inj hb
      rfl

/-- The smaller number is less. -/
theorem compareRat_of_lt {x y : ℚ} (h : x < y) : compareRat x y = .lt := if_pos h

/-- The larger number is greater. -/
theorem compareRat_of_gt {x y : ℚ} (h : y < x) : compareRat x y = .gt := by
  rw [compareRat, if_neg h.not_gt, if_pos h]

/-- A number is equal to itself. -/
theorem compareRat_self (x : ℚ) : compareRat x x = .eq := by
  rw [compareRat, if_neg (lt_irrefl x), if_neg (lt_irrefl x)]

/-- The comparison says less just for the smaller number. -/
theorem compareRat_eq_lt_iff {x y : ℚ} : compareRat x y = .lt ↔ x < y := by
  rcases lt_trichotomy x y with h | rfl | h
  · simp [compareRat_of_lt h, h]
  · simp [compareRat_self]
  · simp [compareRat_of_gt h, h.le]

/-- The comparison says greater just for the larger number. -/
theorem compareRat_eq_gt_iff {x y : ℚ} : compareRat x y = .gt ↔ y < x := by
  rcases lt_trichotomy x y with h | rfl | h
  · simp [compareRat_of_lt h, h.le]
  · simp [compareRat_self]
  · simp [compareRat_of_gt h, h]

/-- The comparison says equal just for the same number. -/
theorem compareRat_eq_eq_iff {x y : ℚ} : compareRat x y = .eq ↔ x = y := by
  rcases lt_trichotomy x y with h | rfl | h
  · simp [compareRat_of_lt h, h.ne]
  · simp [compareRat_self]
  · simp [compareRat_of_gt h, h.ne']

/-- A finite number is its significand times a power of two, with its sign. -/
theorem toRat?_finite (negative : Bool) (m : ℕ) (e : ℤ) :
    (finite negative m e).toRat? =
      some (if negative then -((m : ℚ) * 2 ^ e) else (m : ℚ) * 2 ^ e) := by
  rw [toRat?, magnitude_eq]

/-- The value of a number that was rounded. -/
theorem toRat?_nearest {f : Format} (hf : f.Proper) (negative : Bool) {x : ℚ} (hx : 0 ≤ x)
    (h : x ≤ (2 ^ f.precision - 1) * 2 ^ f.maxExponent) :
    (f.nearest negative x).toRat? = some (if negative then -f.rounded x else f.rounded x) := by
  obtain ⟨m, e, hnearest, -, hvalue⟩ := Format.exists_nearest_eq hf negative hx h
  rw [hnearest, toRat?_finite, hvalue]

end Binary

/-! ## Digits without zeros at the end -/

namespace Decimal

open Format

/-- Zeros are removed from the end as long as there are any and there is a place for them behind the
point; the value stays. -/
theorem reduce_spec (k : ℕ) (n : ℤ) : (reduce k n).1 ≤ k ∧
    n = (reduce k n).2 * 10 ^ (k - (reduce k n).1) ∧
    ((reduce k n).1 = 0 ∨ (reduce k n).2 % 10 ≠ 0) := by
  induction k generalizing n with
  | zero => exact ⟨le_rfl, by simp [reduce], .inl rfl⟩
  | succ k ih =>
    rw [reduce]
    split
    · rename_i hzero
      obtain ⟨hle, hvalue, hlast⟩ := ih (n / 10)
      refine ⟨by omega, ?_, hlast⟩
      have hexp : k + 1 - (reduce k (n / 10)).1 = k - (reduce k (n / 10)).1 + 1 := by omega
      rw [hexp, pow_succ, ← mul_assoc, ← hvalue]
      omega
    · rename_i hlast
      exact ⟨le_rfl, by simp, .inr hlast⟩

/-- Zeros at the end are removed. -/
theorem reduce_mul (k j : ℕ) (n : ℤ) : reduce (k + j) (n * 10 ^ j) = reduce k n := by
  induction j with
  | zero => rw [pow_zero, mul_one, Nat.add_zero]
  | succ j ih =>
    have hsplit : n * 10 ^ (j + 1) = n * 10 ^ j * 10 := by ring
    have hzero : n * 10 ^ (j + 1) % 10 = 0 := by
      rw [hsplit]
      exact Int.mul_emod_left _ _
    have hquotient : n * 10 ^ (j + 1) / 10 = n * 10 ^ j := by
      rw [hsplit]
      exact Int.mul_ediv_cancel _ (by norm_num)
    rw [← Nat.add_assoc, reduce, if_pos hzero, hquotient, ih]

/-- Digits without a zero at the end stay. -/
theorem reduce_of_last {k : ℕ} {n : ℤ} (h : k = 0 ∨ n % 10 ≠ 0) : reduce k n = (k, n) := by
  cases k with
  | zero => rfl
  | succ k =>
    rw [reduce, if_neg]
    exact h.resolve_left (Nat.succ_ne_zero k)

/-! ## The double of a decimal -/

/-- The value of the double that so many units become. -/
def doubled (units : ℕ) : ℚ :=
  double.rounded (double.rounded (reduce places units).2.natAbs / 10 ^ (reduce places units).1)

/-- Units without a zero at the end are rounded twice: first the integer, and then what remains of
it when the point is moved. -/
theorem doubled_eq {n k : ℕ} (hk : k ≤ places) (hlast : k = 0 ∨ n % 10 ≠ 0) :
    doubled (n * 10 ^ (places - k)) = double.rounded (double.rounded n / 10 ^ k) := by
  have hsum : k + (places - k) = places := by omega
  have hreduce : reduce places ((n * 10 ^ (places - k) : ℕ) : ℤ) = (k, (n : ℤ)) := by
    have hmul := reduce_mul k (places - k) n
    rw [hsum] at hmul
    push_cast
    exact hmul.trans (reduce_of_last (by omega))
  simp only [doubled, hreduce, Int.natAbs_natCast]

/-- Digits without the zeros at their end keep the sign. -/
theorem reduce_natAbs {i n : ℤ} {k : ℕ} (h : reduce places i = (k, n)) : k ≤ places ∧
    (k = 0 ∨ n.natAbs % 10 ≠ 0) ∧ i.natAbs = n.natAbs * 10 ^ (places - k) ∧ (n < 0 ↔ i < 0) := by
  obtain ⟨hle, hvalue, hlast⟩ := reduce_spec places i
  rw [h] at hle hvalue hlast
  dsimp only at hle hvalue hlast
  have hpos : (0 : ℤ) < 10 ^ (places - k) := by positivity
  refine ⟨hle, by omega, ?_, ?_⟩
  · rw [hvalue, Int.natAbs_mul, Int.natAbs_pow]
    rfl
  · rw [hvalue]
    refine ⟨fun hneg => mul_neg_of_neg_of_pos hneg hpos, fun hneg => ?_⟩
    by_contra hnonneg
    exact hneg.not_ge (mul_nonneg (not_lt.1 hnonneg) hpos.le)

/-- Units without the zeros at their end. -/
theorem exists_reduced (units : ℕ) : ∃ n k : ℕ, k ≤ places ∧ (k = 0 ∨ n % 10 ≠ 0) ∧
    units = n * 10 ^ (places - k) := by
  obtain ⟨hle, hlast, hvalue, -⟩ := reduce_natAbs (i := units) rfl
  exact ⟨_, _, hle, hlast, hvalue⟩

/-- Such units as a number. -/
theorem units_div (n : ℕ) {k : ℕ} (hk : k ≤ places) :
    ((n * 10 ^ (places - k) : ℕ) : ℚ) / 10 ^ places = n / 10 ^ k := by
  have hexp : (10 : ℚ) ^ places = 10 ^ (places - k) * 10 ^ k := by
    rw [← pow_add, Nat.sub_add_cancel hk]
  rw [hexp, Nat.cast_mul, Nat.cast_pow, Nat.cast_ofNat]
  field_simp

/-- No units become zero. -/
theorem doubled_zero : doubled 0 = 0 := by
  have h := doubled_eq (n := 0) (k := 0) (Nat.zero_le _) (.inl rfl)
  rw [Nat.zero_mul] at h
  rw [h, Nat.cast_zero, rounded_zero proper_double, zero_div, rounded_zero proper_double]

/-- A number of the size of decimals is in the range of doubles. -/
theorem le_largest_double {x : ℚ} (h : x ≤ 2 ^ 128) :
    x ≤ (2 ^ double.precision - 1) * 2 ^ double.maxExponent := by
  have hexp : (2 : ℚ) ^ double.maxExponent = 2 ^ 971 := rfl
  have hone : (1 : ℚ) ≤ 2 ^ double.precision - 1 := by norm_num [double]
  calc x ≤ 2 ^ 128 := h
    _ ≤ 2 ^ 971 := pow_le_pow_right₀ one_le_two (by norm_num)
    _ = 1 * 2 ^ double.maxExponent := by rw [hexp, one_mul]
    _ ≤ _ := mul_le_mul_of_nonneg_right hone (two_zpow_pos _).le

/-- The units of a decimal, without their sign. -/
theorem natAbs_scaled_le (d : Decimal) : d.scaled.natAbs ≤ 2 ^ 127 := by
  have hlower := d.lower
  have hupper := d.upper
  have hbound : twoTo 127 = 2 ^ 127 := rfl
  rw [hbound] at hlower hupper
  omega

/-- Both steps of the rounding, for a number that is in range. -/
theorem round_quotient_eq (negative : Bool) (m : ℕ) (e : ℤ) (k : ℕ) :
    (if 0 ≤ e then double.round negative (m * twoTo e.toNat) (tenTo k)
      else double.round negative m (twoTo (-e).toNat * tenTo k)) =
        double.nearest negative (m * 2 ^ e / 10 ^ k) := by
  have hten : 0 < tenTo k := Nat.pow_pos (by norm_num)
  have htwo : 0 < twoTo (-e).toNat := Nat.two_pow_pos _
  split
  · have hzero : (-e).toNat = 0 := by omega
    have hone : twoTo 0 = 1 := rfl
    rw [double.round_eq negative _ hten, two_zpow_eq, hzero, hone, Nat.cast_mul, cast_tenTo,
      Nat.cast_one, div_one]
  · have hzero : e.toNat = 0 := by omega
    have hone : twoTo 0 = 1 := rfl
    rw [double.round_eq negative _ (Nat.mul_pos htwo hten), two_zpow_eq, hzero, hone, Nat.cast_mul,
      cast_tenTo, Nat.cast_one, mul_one_div, div_div]

/-- The value of the double of a decimal. -/
def nearby (d : Decimal) : ℚ :=
  if d.scaled < 0 then -doubled d.scaled.natAbs else doubled d.scaled.natAbs

/-- The two steps, if there are digits. -/
theorem toDouble_eq_nearest {d : Decimal} (hzero : d.scaled ≠ 0) {k : ℕ} {n : ℤ}
    (hreduce : reduce places d.scaled = (k, n)) :
    0 ≤ double.rounded n.natAbs / 10 ^ k ∧ double.rounded n.natAbs / 10 ^ k ≤ 2 ^ 128 ∧
    d.toDouble = double.nearest (decide (n < 0)) (double.rounded n.natAbs / 10 ^ k) := by
  obtain ⟨-, -, hunits, -⟩ := reduce_natAbs hreduce
  have hnonneg : (0 : ℚ) ≤ n.natAbs := Nat.cast_nonneg _
  have hrange : (n.natAbs : ℚ) ≤ 2 ^ 127 := by
    have hle : n.natAbs ≤ n.natAbs * 10 ^ (places - k) :=
      Nat.le_mul_of_pos_right _ (Nat.pow_pos (by norm_num))
    exact_mod_cast hle.trans (hunits ▸ natAbs_scaled_le d)
  have hcast : (n.natAbs : ℚ) / (1 : ℕ) = n.natAbs := by rw [Nat.cast_one, div_one]
  obtain ⟨m, e, hnearest, -, hrounded⟩ := exists_nearest_eq proper_double (decide (n < 0)) hnonneg
    (le_largest_double (by linarith))
  have hround : double.round (decide (n < 0)) n.natAbs 1 = .finite (decide (n < 0)) m e := by
    rw [double.round_eq _ _ one_pos, hcast, hnearest]
  have htwice := rounded_le proper_double hnonneg
  have hone : (1 : ℚ) ≤ 10 ^ k := one_le_pow₀ (by norm_num)
  have hvalue := mul_two_zpow_nonneg m e
  rw [← hrounded] at htwice ⊢
  refine ⟨div_nonneg hvalue (by positivity), (div_le_self hvalue hone).trans (by linarith), ?_⟩
  simp only [toDouble, if_neg hzero, hreduce, hround, round_quotient_eq]

/-- The value of the double of a decimal is the one described by rounding its units. -/
theorem toRat?_toDouble (d : Decimal) : d.toDouble.toRat? = some d.nearby := by
  unfold nearby
  by_cases hzero : d.scaled = 0
  · have hdouble : d.toDouble = .finite false 0 double.minExponent := by
      simp only [toDouble, hzero, if_true]
      rfl
    rw [hdouble, Binary.toRat?_finite, hzero, if_neg (lt_irrefl 0), Int.natAbs_zero, doubled_zero,
      Nat.cast_zero, zero_mul, if_neg Bool.false_ne_true]
  · obtain ⟨k, n, hreduce⟩ : ∃ k n, reduce places d.scaled = (k, n) := ⟨_, _, rfl⟩
    obtain ⟨hle, hlast, hunits, hsign⟩ := reduce_natAbs hreduce
    obtain ⟨hnonneg, hrange, hdouble⟩ := toDouble_eq_nearest hzero hreduce
    rw [hdouble, Binary.toRat?_nearest proper_double _ hnonneg (le_largest_double hrange), hunits,
      doubled_eq hle hlast]
    simp only [decide_eq_true_eq, hsign]

/-! ## The error -/

/-- Units with few enough bits are rounded once. -/
theorem doubled_of_short {units : ℕ} (h : units < 2 ^ 53) :
    doubled units = double.rounded (units / 10 ^ places) := by
  obtain ⟨n, k, hk, hlast, rfl⟩ := exists_reduced units
  have hn : n < 2 ^ 53 := lt_of_le_of_lt (Nat.le_mul_of_pos_right n (by positivity)) h
  have hrounded : double.rounded n = n := by
    rcases Nat.eq_zero_or_pos n with rfl | hpos
    · rw [Nat.cast_zero, rounded_zero proper_double]
    · have hshort := rounded_of_short proper_double hpos hn (s := 0) (by decide)
      rwa [zpow_zero, mul_one] at hshort
  rw [doubled_eq hk hlast, hrounded, units_div n hk]

/-- Integers are rounded once. -/
theorem doubled_integer (n : ℕ) : doubled (n * 10 ^ places) = double.rounded n := by
  have h := doubled_eq (n := n) (k := 0) (Nat.zero_le _) (.inl rfl)
  rw [Nat.sub_zero, pow_zero, div_one] at h
  rw [h]
  rcases Nat.eq_zero_or_pos n with rfl | hpos
  · rw [Nat.cast_zero, rounded_zero proper_double, rounded_zero proper_double]
  · have hx : (0 : ℚ) < n := by exact_mod_cast hpos
    exact rounded_self proper_double (placed_spec proper_double hx).1

/-- The errors of two steps of rounding together. -/
theorem abs_sub_le_of_steps {x y z : ℚ} (hx : 0 ≤ x) (hxy : |y - x| ≤ x / 2 ^ 53)
    (hyz : |z - y| ≤ y / 2 ^ 53) : |z - x| ≤ x / 2 ^ 51 := by
  obtain ⟨hlower, hupper⟩ := abs_le.1 hxy
  obtain ⟨hlower', hupper'⟩ := abs_le.1 hyz
  norm_num at hlower hupper hlower' hupper' ⊢
  rw [abs_le]
  constructor <;> linarith

/-- The double of a decimal is close to it. -/
theorem abs_doubled_sub_le (units : ℕ) :
    |doubled units - units / 10 ^ places| ≤ units / 10 ^ places / 2 ^ 51 := by
  obtain ⟨n, k, hk, hlast, rfl⟩ := exists_reduced units
  rw [doubled_eq hk hlast, units_div n hk]
  rcases Nat.eq_zero_or_pos n with rfl | hpos
  · simp [rounded_zero proper_double]
  · have hten : (0 : ℚ) < 10 ^ k := by positivity
    have hone : (1 : ℚ) ≤ n := by exact_mod_cast hpos
    have hlarge : (2 : ℚ) ^ (double.minExponent + double.precision) ≤ n := by
      refine double_precision_le (le_trans ?_ hone)
      norm_num
    have hfirst : |double.rounded n - n| ≤ n / 2 ^ 53 := abs_rounded_sub_le_mul proper_double hlarge
    have hlarge' : (2 : ℚ) ^ (double.minExponent + double.precision) ≤
        double.rounded n / 10 ^ k := by
      have hhalf := le_two_mul_rounded proper_double hlarge
      have hk18 : (10 : ℚ) ^ k ≤ 10 ^ 18 := pow_le_pow_right₀ (by norm_num) hk
      apply double_precision_le
      rw [le_div_iff₀ hten]
      norm_num at hk18 ⊢
      linarith
    have hsecond := abs_rounded_sub_le_mul proper_double hlarge'
    have hstep : |double.rounded n / 10 ^ k - n / 10 ^ k| ≤ n / 10 ^ k / 2 ^ 53 := by
      rw [← sub_div, abs_div, abs_of_pos hten, div_right_comm]
      exact (div_le_div_iff_of_pos_right hten).2 hfirst
    exact abs_sub_le_of_steps (div_nonneg (zero_le_one.trans hone) hten.le) hstep hsecond

/-- The size of a decimal is that of its units. -/
theorem abs_toRat (d : Decimal) : |d.toRat| = d.scaled.natAbs / 10 ^ places := by
  have hplaces : (0 : ℚ) < 10 ^ places := by positivity
  rw [Datatype.toRat_eq, abs_div, abs_of_pos hplaces, Nat.cast_natAbs, Int.cast_abs]

/-- The sign of a decimal stays. -/
theorem nearby_eq (d : Decimal) :
    d.nearby = if d.toRat < 0 then -doubled d.scaled.natAbs else doubled d.scaled.natAbs := by
  have hsign : d.toRat < 0 ↔ d.scaled < 0 := by
    rw [Datatype.toRat_eq, div_lt_iff₀ (by positivity), zero_mul]
    exact_mod_cast Iff.rfl
  simp only [nearby, hsign]

/-- A decimal and the value of its double differ by less than a part in 2⁵¹. -/
theorem abs_nearby_sub_le (d : Decimal) : |d.nearby - d.toRat| ≤ |d.toRat| / 2 ^ 51 := by
  have herror := abs_doubled_sub_le d.scaled.natAbs
  rw [← abs_toRat] at herror
  rw [nearby_eq]
  split
  · rename_i hneg
    have heq : -doubled d.scaled.natAbs - d.toRat = -(doubled d.scaled.natAbs - |d.toRat|) := by
      rw [abs_of_neg hneg]
      ring
    rw [heq, abs_neg]
    exact herror
  · rename_i hnonneg
    have heq := abs_of_nonneg (not_lt.1 hnonneg)
    rw [heq] at herror ⊢
    exact herror

/-- Units without a sign become no negative number. -/
theorem doubled_nonneg (units : ℕ) : 0 ≤ doubled units := mul_two_zpow_nonneg _ _

/-- The size of the value of a double comes from the units without their sign. -/
theorem abs_nearby (d : Decimal) : |d.nearby| = doubled d.scaled.natAbs := by
  have hnonneg := doubled_nonneg d.scaled.natAbs
  rw [nearby]
  split
  · rw [abs_neg, abs_of_nonneg hnonneg]
  · exact abs_of_nonneg hnonneg

/-- A small decimal is rounded once. -/
theorem nearby_of_small {d : Decimal} (h : |d.toRat| ≤ 1 / 10 ^ 4) : d.nearby =
    if d.toRat < 0 then -double.rounded |d.toRat| else double.rounded |d.toRat| := by
  have hunits : d.scaled.natAbs < 2 ^ 53 := by
    have hplaces : (10 : ℚ) ^ places = 10 ^ 18 := rfl
    rw [abs_toRat, hplaces, div_le_iff₀ (by positivity)] at h
    have hle : (d.scaled.natAbs : ℚ) ≤ (10 ^ 14 : ℕ) := by
      norm_num at h ⊢
      exact h
    have hle : d.scaled.natAbs ≤ 10 ^ 14 := by exact_mod_cast hle
    omega
  rw [nearby_eq, doubled_of_short hunits, ← abs_toRat]

/-- An integer that is a double stays. -/
theorem nearby_eq_toRat {d : Decimal} {n : ℕ} (habs : |d.toRat| = n)
    (hn : double.rounded n = n) : d.nearby = d.toRat := by
  have hunits : d.scaled.natAbs = n * 10 ^ places := by
    rw [abs_toRat, div_eq_iff (by positivity)] at habs
    exact_mod_cast habs
  rw [nearby_eq, hunits, doubled_integer, hn, ← habs]
  split
  · rename_i hneg
    rw [abs_of_neg hneg, neg_neg]
  · rename_i hnonneg
    exact abs_of_nonneg (not_lt.1 hnonneg)

/-! ## Doubles of decimals and their digits -/

/-- The double of a decimal has a decimal that reads back, be it not always the same one. -/
theorem onGrid_of_doubled_eq {units m : ℕ} {e : ℤ} (hm : 0 < m) (hcanonical : double.Canonical m e)
    (heq : doubled units = m * 2 ^ e) : Binary.OnGrid double m e (-places) := by
  have hvalue := mul_two_zpow_pos hm e
  have hunits : units ≠ 0 := by
    rintro rfl
    rw [doubled_zero] at heq
    exact hvalue.ne heq
  have hpos : (0 : ℚ) < units := by exact_mod_cast Nat.pos_of_ne_zero hunits
  have hgrid : ∀ n : ℕ, (n * 10 ^ (-(places : ℤ)) : ℚ) = n / 10 ^ places := by
    intro n
    rw [zpow_neg, zpow_natCast, div_eq_mul_inv]
  have hplaces : (10 : ℚ) ^ places = 10 ^ 18 := rfl
  by_cases hshort : units < 2 ^ 53
  · rw [doubled_of_short hshort] at heq
    refine ⟨units, hunits, ?_⟩
    rw [hgrid]
    exact between_of_rounded_eq proper_double (div_pos hpos (by positivity)) hcanonical hm heq
  · -- The double is so large that the interval between its middles is wider than the grid.
    have hexponent : -59 ≤ e := by
      by_contra hsmall
      have hshort' : (m : ℚ) ≤ 2 ^ 53 := by exact_mod_cast hcanonical.short.le
      have hunit : (2 : ℚ) ^ e ≤ 2 ^ (-60 : ℤ) := zpow_le_zpow_right₀ one_le_two (by omega)
      have hle : (m * 2 ^ e : ℚ) ≤ 2 ^ 53 * 2 ^ (-60 : ℤ) :=
        mul_le_mul hshort' hunit (two_zpow_pos e).le (by positivity)
      have herror := (abs_le.1 (abs_doubled_sub_le units)).1
      have hlarge : (2 : ℚ) ^ 53 / 10 ^ 18 ≤ units / 10 ^ places := by
        rw [hplaces]
        exact (div_le_div_iff_of_pos_right (by positivity)).2 (by exact_mod_cast not_lt.1 hshort)
      rw [heq] at herror
      generalize (units : ℚ) / 10 ^ places = x at herror hlarge
      norm_num at hle herror hlarge
      linarith
    have hunit : (2 : ℚ) ^ (-59 : ℤ) ≤ 2 ^ e := zpow_le_zpow_right₀ one_le_two hexponent
    have hm' : (1 : ℚ) ≤ m := by exact_mod_cast hm
    have hlower : (0 : ℚ) ≤ (m - 1 / 4) * 2 ^ e * 10 ^ places :=
      mul_nonneg (mul_nonneg (by linarith) (two_zpow_pos e).le) (by positivity)
    have hfloor := Nat.floor_le hlower
    have hceil := Nat.lt_floor_add_one ((m - 1 / 4 : ℚ) * 2 ^ e * 10 ^ places)
    generalize ⌊(m - 1 / 4 : ℚ) * 2 ^ e * 10 ^ places⌋₊ = n at hfloor hceil
    refine ⟨n + 1, Nat.succ_ne_zero n, .of_lt ?_ ?_⟩
    · refine (double.middleBelow_le m e).trans_lt ?_
      rw [hgrid, lt_div_iff₀ (by positivity)]
      push_cast
      exact hceil
    · rw [hgrid, middleAbove, div_lt_iff₀ (by positivity)]
      rw [hplaces] at hfloor ⊢
      push_cast
      generalize (2 : ℚ) ^ e = u at *
      norm_num at hunit hfloor ⊢
      linarith

/-! ## Decimals with the same double -/

/-- Of two numbers on the two sides of a number one is rounded as the number itself, if they are
nearer to each other than the middles. -/
theorem rounded_eq_of_near {x y z : ℚ} (hx : 0 < x) (hxy : x < y) (hyz : y < z)
    (hnear : z - x < 3 / 4 * 2 ^ (double.placed y).2) :
    double.rounded x = double.rounded y ∨ double.rounded z = double.rounded y := by
  obtain ⟨hcanonical, hbetween⟩ := placed_spec proper_double (hx.trans hxy)
  have hmiddle := double.middleBelow_le (double.placed y).1 (double.placed y).2
  have habove : middleAbove (double.placed y).1 (double.placed y).2 =
      ((double.placed y).1 + 1 / 2) * 2 ^ (double.placed y).2 := rfl
  by_cases hbelow : double.middleBelow (double.placed y).1 (double.placed y).2 < x
  · left
    have hbetween' := Between.of_lt hbelow (hxy.trans_le hbetween.upper)
    exact rounded_of_between proper_double hx hcanonical hbetween'
  · right
    have hlt : z < middleAbove (double.placed y).1 (double.placed y).2 := by linarith
    have hbetween' := Between.of_lt (hbetween.lower.trans_lt hyz) hlt
    exact rounded_of_between proper_double (hx.trans (hxy.trans hyz)) hcanonical hbetween'

/-- Units around others that become the same double. -/
structure SameDouble (below units above : ℕ) : Prop where
  pos : 0 < below
  lt : below < above
  le : below ≤ units
  le' : units ≤ above
  inRange : above < 2 ^ 127 ∨ above = units
  doubled_eq : doubled below = doubled above

/-- Numbers of units with the same power of ten. -/
theorem doubled_eq_of_rounded_eq {s t k : ℕ} (hk : k ≤ places) (hs : k = 0 ∨ s % 10 ≠ 0)
    (ht : k = 0 ∨ t % 10 ≠ 0) (h : double.rounded s = double.rounded t) :
    doubled (s * 10 ^ (places - k)) = doubled (t * 10 ^ (places - k)) := by
  rw [doubled_eq hk hs, doubled_eq hk ht, h]

/-- Next to the end of the range all units become the same double. -/
theorem exists_sameDouble_top {units : ℕ} (hlow : 2 ^ 127 - 2 ^ 72 ≤ units)
    (hhigh : units ≤ 2 ^ 127) : ∃ below above, SameDouble below units above := by
  have hrounded : ∀ t : ℕ, 2 ^ 127 ≤ t + 2 ^ 72 + 1 → t ≤ 2 ^ 127 →
      double.rounded t = (2 ^ 52 : ℕ) * 2 ^ (75 : ℤ) := by
    intro t hlow hhigh
    have hlow : (2 ^ 127 : ℚ) ≤ t + 2 ^ 72 + 1 := by exact_mod_cast hlow
    have hhigh : (t : ℚ) ≤ 2 ^ 127 := by exact_mod_cast hhigh
    generalize (t : ℚ) = x at hlow hhigh
    have hcanonical : double.Canonical (2 ^ 52) 75 := ⟨by decide, by decide, .inr le_rfl⟩
    have hmiddle : double.middleBelow (2 ^ 52) 75 = (2 ^ 53 - 1 / 2) * 2 ^ (75 - 1 : ℤ) :=
      double.middleBelow_power proper_double (by decide)
    have habove : middleAbove (2 ^ 52) 75 = ((2 ^ 52 : ℕ) + 1 / 2) * 2 ^ (75 : ℤ) := rfl
    refine rounded_of_between proper_double (by linarith) hcanonical (.of_lt ?_ ?_)
    · rw [hmiddle]
      norm_num at hlow ⊢
      linarith
    · rw [habove]
      norm_num at hhigh ⊢
      linarith
  have hdoubled : ∀ t : ℕ, 2 ^ 127 ≤ t + 2 ^ 72 + 1 → t ≤ 2 ^ 127 → t % 10 ≠ 0 →
      doubled t = double.rounded ((2 ^ 52 : ℕ) * 2 ^ (75 : ℤ) / 10 ^ places) := by
    intro t hlow hhigh hlast
    have h := doubled_eq le_rfl (.inr hlast)
    rw [Nat.sub_self, pow_zero, mul_one, hrounded t hlow hhigh] at h
    exact h
  -- At the end of the range there is no neighbour above, and the end takes its place.
  by_cases hend : units = 2 ^ 127
  · have hpred := hdoubled (2 ^ 127 - 1) (by norm_num) (by norm_num) (by norm_num)
    have hlast := hdoubled (2 ^ 127) (by norm_num) le_rfl (by norm_num)
    refine ⟨2 ^ 127 - 1, 2 ^ 127, ⟨by norm_num, by norm_num, ?_, ?_, .inr hend.symm, ?_⟩⟩
    · omega
    · exact hhigh
    · rw [hpred, hlast]
  · have hfirst := hdoubled (2 ^ 127 - 2 ^ 72 - 1) (by norm_num) (by norm_num) (by norm_num)
    have hlast := hdoubled (2 ^ 127 - 1) (by norm_num) (by norm_num) (by norm_num)
    refine ⟨2 ^ 127 - 2 ^ 72 - 1, 2 ^ 127 - 1,
      ⟨by norm_num, by norm_num, ?_, ?_, .inl (by norm_num), ?_⟩⟩
    · omega
    · omega
    · rw [hfirst, hlast]

/-- Digits of a decimal that is large and no integer have neighbours that become the same double. -/
theorem exists_sameDouble_fraction {n k : ℕ} (hk : k ≤ places) (hn : 2 ^ 56 ≤ n)
    (hlast : n % 10 ≠ 0) (hrange : n * 10 ^ (places - k) < 2 ^ 127 - 2 ^ 72) :
    ∃ below above, SameDouble below (n * 10 ^ (places - k)) above := by
  obtain ⟨s, hs, hs10, hnear⟩ : ∃ s, s < n ∧ s % 10 ≠ 0 ∧ n ≤ s + 2 := by
    by_cases hone : n % 10 = 1
    · exact ⟨n - 2, by omega, by omega, by omega⟩
    · exact ⟨n - 1, by omega, by omega, by omega⟩
  obtain ⟨t, ht, ht10, hnear'⟩ : ∃ t, n < t ∧ t % 10 ≠ 0 ∧ t ≤ n + 2 := by
    by_cases hnine : n % 10 = 9
    · exact ⟨n + 2, by omega, by omega, by omega⟩
    · exact ⟨n + 1, by omega, by omega, by omega⟩
  have hexponent : (4 : ℤ) ≤ (double.placed n).2 := by
    refine le_placed_exponent ?_
    have hexp : (4 : ℤ) + (double.precision - 1) = (56 : ℕ) := by decide
    rw [hexp, zpow_natCast]
    exact_mod_cast hn
  have hpow : (2 : ℚ) ^ (4 : ℤ) ≤ 2 ^ (double.placed n).2 :=
    zpow_le_zpow_right₀ one_le_two hexponent
  have hdistance : (t : ℚ) ≤ s + 4 := by exact_mod_cast (by omega : t ≤ s + 4)
  have hunit : 0 < 10 ^ (places - k) := Nat.pow_pos (by norm_num)
  have hunit' : 10 ^ (places - k) ≤ 10 ^ places := Nat.pow_le_pow_right (by norm_num) (by omega)
  have habove : t * 10 ^ (places - k) < 2 ^ 127 := by
    have hle : t * 10 ^ (places - k) ≤ (n + 2) * 10 ^ (places - k) := Nat.mul_le_mul_right _ hnear'
    have hplaces : 10 ^ places = 10 ^ 18 := rfl
    rw [Nat.add_mul] at hle
    omega
  have hspos : (0 : ℚ) < s := by exact_mod_cast (by omega : 0 < s)
  have hsn : (s : ℚ) < n := by exact_mod_cast hs
  have hnt : (n : ℚ) < t := by exact_mod_cast ht
  have hnear : (t - s : ℚ) < 3 / 4 * 2 ^ (double.placed n).2 := by
    norm_num at hpow
    linarith
  -- The two neighbours are so near that one of them is rounded as the digits in between.
  rcases rounded_eq_of_near hspos hsn hnt hnear with heq | heq
  · refine ⟨s * 10 ^ (places - k), n * 10 ^ (places - k), ⟨?_, ?_, ?_, le_rfl, .inr rfl, ?_⟩⟩
    · exact Nat.mul_pos (by omega) hunit
    · exact Nat.mul_lt_mul_of_pos_right hs hunit
    · exact Nat.mul_le_mul_right _ hs.le
    · exact doubled_eq_of_rounded_eq hk (.inr hs10) (.inr hlast) heq
  · refine ⟨n * 10 ^ (places - k), t * 10 ^ (places - k), ⟨?_, ?_, le_rfl, ?_, .inl habove, ?_⟩⟩
    · exact Nat.mul_pos (by omega) hunit
    · exact Nat.mul_lt_mul_of_pos_right ht hunit
    · exact Nat.mul_le_mul_right _ ht.le
    · exact doubled_eq_of_rounded_eq hk (.inr hlast) (.inr ht10) heq.symm

/-- Two integers next to each other that are rounded to the same double. -/
theorem sameDouble_integer {n t : ℕ} (hpos : 0 < n) (hnext : t = n + 1) {units : ℕ}
    (hunits : units = n * 10 ^ places ∨ units = t * 10 ^ places)
    (hrange : units < 2 ^ 127 - 2 ^ 72) (h : double.rounded n = double.rounded t) :
    SameDouble (n * 10 ^ places) units (t * 10 ^ places) := by
  have hdoubled : doubled (n * 10 ^ places) = doubled (t * 10 ^ places) := by
    rw [doubled_integer, doubled_integer, h]
  have hplaces : 10 ^ places = 10 ^ 18 := rfl
  rw [hplaces] at hunits hdoubled ⊢
  exact ⟨by omega, by omega, by omega, by omega, .inl (by omega), hdoubled⟩

/-- The middles next to a double with a large exponent are multiples of eight. -/
theorem exists_middles_eq {n j : ℕ} (hcanonical : double.Canonical n (j + 4))
    (hfar : j ≠ 0 ∨ n ≠ 2 ^ 52) :
    ∃ c d : ℕ, double.middleBelow n (j + 4) = (8 * c : ℕ) ∧
      middleAbove n (j + 4) = (8 * d : ℕ) := by
  have hunit : ∀ i : ℕ, (2 : ℚ) ^ ((i : ℤ) + 4) = 16 * (2 ^ i : ℕ) := by
    intro i
    rw [zpow_add₀ two_ne_zero, zpow_natCast]
    push_cast
    ring
  have hlong : 2 ^ 52 ≤ n := hcanonical.long.resolve_left (by
    have hmin : double.minExponent = -1074 := rfl
    omega)
  have habove : middleAbove n (j + 4) = (8 * ((2 * n + 1) * 2 ^ j) : ℕ) := by
    rw [middleAbove, hunit]
    push_cast
    ring
  -- Below a power of two the distance is half as large, which is a multiple of eight all the same.
  by_cases hpower : n = 2 ^ (double.precision - 1) ∧ double.minExponent < j + 4
  · have hn : n = 2 ^ 52 := hpower.1
    obtain ⟨i, rfl⟩ := Nat.exists_eq_succ_of_ne_zero (hfar.resolve_right (not_not.2 hn))
    refine ⟨(4 * n - 1) * 2 ^ i, _, ?_, habove⟩
    have hone : 1 ≤ 4 * n := by omega
    have hprecision : (2 : ℚ) ^ double.precision = 2 * n := by
      rw [hn]
      norm_num [double]
    have hexp : ((i.succ : ℕ) : ℤ) + 4 - 1 = i + 4 := by
      push_cast
      omega
    rw [hpower.1, double.middleBelow_power proper_double hpower.2, ← hpower.1, hprecision, hexp,
      hunit]
    push_cast [hone]
    ring
  · refine ⟨(2 * n - 1) * 2 ^ j, _, ?_, habove⟩
    have hone : 1 ≤ 2 * n := by omega
    rw [double.middleBelow_eq hpower, hunit]
    push_cast [hone]
    ring

/-- Around a double between `2 ^ 53` and `2 ^ 54` with an odd significand one tenth is not enough
to be rounded to another double. -/
theorem rounded_tenths_eq {m : ℕ} (hodd : m % 2 = 1) (hm : 5 * 10 ^ 15 ≤ m) :
    double.rounded (20 * m - 1 : ℕ) = double.rounded (20 * m + 1 : ℕ) := by
  have hx : (0 : ℚ) < (20 * m : ℕ) := by exact_mod_cast (by omega : 0 < 20 * m)
  have hexponent : (4 : ℤ) ≤ (double.placed (20 * m : ℕ)).2 := by
    refine le_placed_exponent ?_
    have hexp : (4 : ℤ) + (double.precision - 1) = (56 : ℕ) := by decide
    rw [hexp, zpow_natCast]
    exact_mod_cast (by omega : 2 ^ 56 ≤ 20 * m)
  obtain ⟨hcanonical, hbetween⟩ := placed_spec proper_double hx
  generalize (double.placed (20 * m : ℕ)).1 = n at hcanonical hbetween
  obtain ⟨j, hj⟩ : ∃ j : ℕ, (double.placed (20 * m : ℕ)).2 = j + 4 :=
    ⟨((double.placed (20 * m : ℕ)).2 - 4).toNat, by omega⟩
  rw [hj] at hcanonical hbetween
  have hfar : j ≠ 0 ∨ n ≠ 2 ^ 52 := by
    by_contra hnear
    push Not at hnear
    obtain ⟨rfl, rfl⟩ := hnear
    have hle := hbetween.upper
    rw [middleAbove] at hle
    have hm : (5 * 10 ^ 15 : ℚ) ≤ m := by exact_mod_cast hm
    norm_num at hle
    linarith
  -- The number in between is no multiple of eight, so that there is room on both sides.
  obtain ⟨c, d, hbelow, habove⟩ := exists_middles_eq hcanonical hfar
  have hlower : 8 * c ≤ 20 * m := by
    have hle := hbetween.lower
    rw [hbelow] at hle
    exact_mod_cast hle
  have hupper : 20 * m ≤ 8 * d := by
    have hle := hbetween.upper
    rw [habove] at hle
    exact_mod_cast hle
  have hboth : ∀ x : ℕ, 8 * c < x → x < 8 * d → double.rounded x = n * 2 ^ ((j : ℤ) + 4) := by
    intro x hlow hhigh
    have hpos : (0 : ℚ) < x := by exact_mod_cast (by omega : 0 < x)
    refine rounded_of_between proper_double hpos hcanonical (.of_lt ?_ ?_)
    · rw [hbelow]
      exact_mod_cast hlow
    · rw [habove]
      exact_mod_cast hhigh
  rw [hboth (20 * m - 1) (by omega) (by omega), hboth (20 * m + 1) (by omega) (by omega)]

/-- An integer that is rounded to twice a significand. -/
structure Halved (m n : ℕ) : Prop where
  canonical : double.Canonical m 1
  between : double.Between m 1 n
  middleBelow_eq : double.middleBelow m 1 = 2 * m - 1
  middleAbove_eq : middleAbove m 1 = 2 * m + 1

namespace Halved

variable {m n : ℕ}

/-- Such an integer is at most one away from twice the significand. -/
theorem bounds (h : Halved m n) : 2 * m ≤ n + 1 ∧ n ≤ 2 * m + 1 := by
  have hlower := h.between.lower
  have hupper := h.between.upper
  rw [h.middleBelow_eq, sub_le_iff_le_add] at hlower
  rw [h.middleAbove_eq] at hupper
  exact ⟨by exact_mod_cast hlower, by exact_mod_cast hupper⟩

/-- With an odd significand only twice the significand itself is rounded to it. -/
theorem eq_of_odd (h : Halved m n) (hodd : m % 2 = 1) : n = 2 * m := by
  obtain ⟨hlower, hupper⟩ := h.between.tie hodd
  rw [h.middleBelow_eq, sub_lt_iff_lt_add] at hlower
  rw [h.middleAbove_eq] at hupper
  have hlower : 2 * m < n + 1 := by exact_mod_cast hlower
  have hupper : n < 2 * m + 1 := by exact_mod_cast hupper
  omega

/-- With an even significand the neighbours of twice the significand are rounded to it as well. -/
theorem rounded_of_even (h : Halved m n) (heven : m % 2 = 0) {x : ℕ} (hpos : 0 < x)
    (hlower : 2 * m ≤ x + 1) (hupper : x ≤ 2 * m + 1) : double.rounded x = m * 2 ^ (1 : ℤ) := by
  have hpos : (0 : ℚ) < x := by exact_mod_cast hpos
  refine rounded_of_between proper_double hpos h.canonical ⟨?_, ?_, fun hodd => by omega⟩
  · rw [h.middleBelow_eq, sub_le_iff_le_add]
    exact_mod_cast hlower
  · rw [h.middleAbove_eq]
    exact_mod_cast hupper

end Halved

/-- From `10 ^ 16` on every integer with a small exponent is one of these. -/
theorem exists_halved {n : ℕ} (hn : 10 ^ 16 ≤ n) (hexponent : (double.placed n).2 < 2) :
    ∃ m, Halved m n := by
  have hx : (0 : ℚ) < n := by exact_mod_cast (by omega : 0 < n)
  obtain ⟨hcanonical, hbetween⟩ := placed_spec proper_double hx
  have hlarge : (10 : ℚ) ^ 16 ≤ n := by exact_mod_cast hn
  have hone : (double.placed n).2 = 1 := by
    by_contra hne
    have hshort : ((double.placed n).1 : ℚ) + 1 ≤ 2 ^ 53 := by exact_mod_cast hcanonical.short
    have hunit : (2 : ℚ) ^ (double.placed n).2 ≤ 1 := zpow_le_one_of_nonpos₀ one_le_two (by omega)
    have hle : (n : ℚ) ≤ ((double.placed n).1 + 1 / 2) * 1 :=
      hbetween.upper.trans (mul_le_mul_of_nonneg_left hunit (by positivity))
    generalize ((double.placed (n : ℚ)).1 : ℚ) = m at hshort hle
    generalize (n : ℚ) = x at hlarge hle
    norm_num at hlarge hshort hle
    linarith
  rw [hone] at hcanonical hbetween
  generalize (double.placed n).1 = m at hcanonical hbetween
  have habove : middleAbove m 1 = 2 * m + 1 := by
    rw [middleAbove, zpow_one]
    ring
  have hpower : ¬ (m = 2 ^ (double.precision - 1) ∧ double.minExponent < 1) := by
    rintro ⟨rfl, -⟩
    have hupper := hbetween.upper
    rw [habove] at hupper
    norm_num [double] at hlarge hupper
    linarith
  refine ⟨m, hcanonical, hbetween, ?_, habove⟩
  rw [double.middleBelow_eq hpower, zpow_one]
  ring

/-- Where at most every fourth integer is a double, one of the neighbours has the same one. -/
theorem exists_sameDouble_spaced {n : ℕ} (hn : 2 ≤ n) (hexponent : 2 ≤ (double.placed n).2)
    (hrange : n * 10 ^ places < 2 ^ 127 - 2 ^ 72) :
    ∃ below above, SameDouble below (n * 10 ^ places) above := by
  have hpow : (2 : ℚ) ^ (2 : ℤ) ≤ 2 ^ (double.placed n).2 :=
    zpow_le_zpow_right₀ one_le_two hexponent
  have hpos : (0 : ℚ) < (n - 1 : ℕ) := by exact_mod_cast (by omega : 0 < n - 1)
  have hpred : ((n - 1 : ℕ) : ℚ) = n - 1 := by
    rw [Nat.cast_sub (by omega), Nat.cast_one]
  have hnear : ((n + 1 : ℕ) - (n - 1 : ℕ) : ℚ) < 3 / 4 * 2 ^ (double.placed n).2 := by
    rw [hpred]
    push_cast
    norm_num at hpow
    linarith
  have hpredlt : ((n - 1 : ℕ) : ℚ) < n := by exact_mod_cast (by omega : n - 1 < n)
  have hltsucc : (n : ℚ) < (n + 1 : ℕ) := by exact_mod_cast Nat.lt_succ_self n
  rcases rounded_eq_of_near hpos hpredlt hltsucc hnear with heq | heq
  · exact ⟨_, _, sameDouble_integer (by omega) (by omega) (.inr rfl) hrange heq⟩
  · exact ⟨_, _, sameDouble_integer (by omega) rfl (.inl rfl) hrange heq.symm⟩

/-- A double with an even significand is that of its neighbours. -/
theorem Halved.exists_sameDouble_even {m n : ℕ} (h : Halved m n) (heven : m % 2 = 0) (hn : 2 ≤ n)
    (hrange : n * 10 ^ places < 2 ^ 127 - 2 ^ 72) :
    ∃ below above, SameDouble below (n * 10 ^ places) above := by
  obtain ⟨hlower, hupper⟩ := h.bounds
  have hself := h.rounded_of_even heven (by omega) hlower hupper
  by_cases hend : n = 2 * m + 1
  · have heq := h.rounded_of_even heven (x := 2 * m) (by omega) (by omega) (by omega)
    exact ⟨_, _, sameDouble_integer (by omega) hend (.inr rfl) hrange (heq.trans hself.symm)⟩
  · have heq := h.rounded_of_even heven (x := n + 1) (by omega) (by omega) (by omega)
    exact ⟨_, _, sameDouble_integer (by omega) rfl (.inl rfl) hrange (hself.trans heq.symm)⟩

/-- A double with an odd significand is that of the decimals one tenth away. -/
theorem exists_sameDouble_odd {m : ℕ} (hodd : m % 2 = 1) (hm : 5 * 10 ^ 15 ≤ m)
    (hrange : 2 * m * 10 ^ places < 2 ^ 127 - 2 ^ 72) :
    ∃ below above, SameDouble below (2 * m * 10 ^ places) above := by
  have hdoubled : doubled ((20 * m - 1) * 10 ^ 17) = doubled ((20 * m + 1) * 10 ^ 17) :=
    doubled_eq_of_rounded_eq (k := 1) (by decide) (.inr (by omega)) (.inr (by omega))
      (rounded_tenths_eq hodd hm)
  have hunits : 2 * m * 10 ^ places = 20 * m * 10 ^ 17 := by
    have hplaces : 10 ^ places = 10 * 10 ^ 17 := rfl
    rw [hplaces]
    ring
  have hpos : 0 < 10 ^ 17 := by norm_num
  rw [hunits] at hrange ⊢
  refine ⟨(20 * m - 1) * 10 ^ 17, (20 * m + 1) * 10 ^ 17, ⟨?_, ?_, ?_, ?_, .inl ?_, hdoubled⟩⟩
  · exact Nat.mul_pos (by omega) hpos
  · exact Nat.mul_lt_mul_of_pos_right (by omega) hpos
  · exact Nat.mul_le_mul_right _ (by omega)
  · exact Nat.mul_le_mul_right _ (by omega)
  · rw [Nat.add_mul, one_mul]
    exact (Nat.add_lt_add_right hrange _).trans_le (by norm_num)

/-- A large integer has a neighbour that becomes the same double. -/
theorem exists_sameDouble_integer {n : ℕ} (hn : 10 ^ 16 ≤ n)
    (hrange : n * 10 ^ places < 2 ^ 127 - 2 ^ 72) :
    ∃ below above, SameDouble below (n * 10 ^ places) above := by
  rcases le_or_gt 2 (double.placed n).2 with hexponent | hexponent
  · exact exists_sameDouble_spaced (by omega) hexponent hrange
  · obtain ⟨m, h⟩ := exists_halved hn hexponent
    rcases Nat.mod_two_eq_zero_or_one m with heven | hodd
    · exact h.exists_sameDouble_even heven (by omega) hrange
    · obtain rfl := h.eq_of_odd hodd
      exact exists_sameDouble_odd hodd (by omega) hrange

/-- From `10 ^ 16` on no decimal is the only one of its double, or else two on its sides have the
same double. -/
theorem exists_sameDouble {units : ℕ} (hlow : 10 ^ 16 * 10 ^ places ≤ units)
    (hhigh : units ≤ 2 ^ 127) : ∃ below above, SameDouble below units above := by
  by_cases htop : 2 ^ 127 - 2 ^ 72 ≤ units
  · exact exists_sameDouble_top htop hhigh
  · obtain ⟨n, k, hk, hlast, rfl⟩ := exists_reduced units
    rcases Nat.eq_zero_or_pos k with rfl | hpos
    · rw [Nat.sub_zero] at hlow htop ⊢
      exact exists_sameDouble_integer (Nat.le_of_mul_le_mul_right hlow (by decide)) (not_le.1 htop)
    · refine exists_sameDouble_fraction hk ?_ (hlast.resolve_left hpos.ne') (not_le.1 htop)
      have hunit : 10 ^ (places - k) ≤ 10 ^ (places - 1) :=
        Nat.pow_le_pow_right (by norm_num) (by omega)
      have hle : n * 10 ^ (places - k) ≤ n * 10 ^ (places - 1) := Nat.mul_le_mul_left n hunit
      have hplaces : 10 ^ places = 10 ^ 18 := rfl
      have hplaces' : 10 ^ (places - 1) = 10 ^ 17 := rfl
      rw [hplaces] at hlow
      rw [hplaces'] at hle
      omega

end Decimal

end ShEx.Number
