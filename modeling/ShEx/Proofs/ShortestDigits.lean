import ShEx.Proofs.Rounding

/-!
# The fewest digits that read back

A double is written with a decimal that is rounded to it again, on the coarsest decimal grid on
which there is such a number (`shortestDigits_spec`).  Whether a candidate reads back is decided in
integers; it does if and only if it lies between the middles towards the neighbours of the double
(`readsBack_iff`).  On one grid the two candidates next to the double decide for all
(`unitsReadBack?_eq_none_iff`), since what lies between the middles is an interval around it.

The search begins above every grid that could have a candidate and always ends with one, because
seventeen digits lie closer together than the middles.
-/

set_option autoImplicit false

namespace ShEx.Number

namespace Binary

open Format

variable {f : Format} {m : ℕ} {e : ℤ}

/-- The number that quarters of a last bit and decimal candidates are scaled by to become
integers. -/
def commonFactor (e k : ℤ) : ℚ := 4 * twoTo (-e).toNat * tenTo (-k).toNat

/-- The number that both sides are scaled by is positive, so scaling keeps their order. -/
theorem commonFactor_pos (e k : ℤ) : 0 < commonFactor e k := by
  rw [commonFactor, cast_twoTo, cast_tenTo]
  positivity

/-- Quarters of a last bit, scaled. -/
theorem quarters_scaled (a : ℕ) (e k : ℤ) :
    ((a * twoTo e.toNat * tenTo (-k).toNat : ℕ) : ℚ) = a / 4 * 2 ^ e * commonFactor e k := by
  have htwo : (0 : ℚ) < twoTo (-e).toNat := by rw [cast_twoTo]; positivity
  rw [two_zpow_eq, commonFactor]
  push_cast
  field_simp

/-- A decimal candidate, scaled. -/
theorem candidate_scaled (n : ℕ) (e k : ℤ) :
    ((4 * n * tenTo k.toNat * twoTo (-e).toNat : ℕ) : ℚ) = n * 10 ^ k * commonFactor e k := by
  have hten : (0 : ℚ) < tenTo (-k).toNat := by rw [cast_tenTo]; positivity
  rw [ten_zpow_eq, commonFactor]
  push_cast
  field_simp

/-- Comparing the integers compares the numbers. -/
theorem scaled_le_iff (a n : ℕ) (e k : ℤ) :
    a * twoTo e.toNat * tenTo (-k).toNat ≤ 4 * n * tenTo k.toNat * twoTo (-e).toNat ↔
      (a / 4 * 2 ^ e : ℚ) ≤ n * 10 ^ k := by
  rw [← Nat.cast_le (α := ℚ), quarters_scaled, candidate_scaled,
    mul_le_mul_iff_left₀ (commonFactor_pos e k)]

/-- Comparing the integers compares the numbers, with the candidate on the left. -/
theorem le_scaled_iff (a n : ℕ) (e k : ℤ) :
    4 * n * tenTo k.toNat * twoTo (-e).toNat ≤ a * twoTo e.toNat * tenTo (-k).toNat ↔
      (n * 10 ^ k : ℚ) ≤ a / 4 * 2 ^ e := by
  rw [← Nat.cast_le (α := ℚ), quarters_scaled, candidate_scaled,
    mul_le_mul_iff_left₀ (commonFactor_pos e k)]

/-- A decimal is found to read back if it lies between the middles. -/
theorem readsBack_iff (hm : 0 < m) (n : ℕ) (k : ℤ) :
    readsBack f m e n k = true ↔ f.Between m e (n * 10 ^ k) := by
  have hquarters : quartersBelow f m e ≤ 4 * m := by
    unfold quartersBelow
    split <;> omega
  have hlower : f.middleBelow m e = ((4 * m - quartersBelow f m e : ℕ) / 4 * 2 ^ e : ℚ) := by
    rw [middleBelow, Nat.cast_sub hquarters]
    push_cast
    ring
  have hupper : middleAbove m e = ((4 * m + 2 : ℕ) / 4 * 2 ^ e : ℚ) := by
    rw [middleAbove]
    push_cast
    ring
  have hlow := scaled_le_iff (4 * m - quartersBelow f m e) n e k
  have hhigh := le_scaled_iff (4 * m + 2) n e k
  have hlow' := le_scaled_iff (4 * m - quartersBelow f m e) n e k
  have hhigh' := scaled_le_iff (4 * m + 2) n e k
  rw [← hlower] at hlow hlow'
  rw [← hupper] at hhigh hhigh'
  simp only [readsBack]
  split
  · rename_i heven
    rw [Bool.and_eq_true_iff, decide_eq_true_eq, decide_eq_true_eq, hlow, hhigh]
    exact ⟨fun h => ⟨h.1, h.2, fun hodd => by omega⟩, fun h => ⟨h.lower, h.upper⟩⟩
  · rename_i hodd
    have hodd : m % 2 = 1 := by omega
    rw [Bool.and_eq_true_iff, decide_eq_true_eq, decide_eq_true_eq, ← not_le, ← not_le, hlow',
      hhigh', not_le, not_le]
    exact ⟨fun h => .of_lt h.1 h.2, fun h => h.tie hodd⟩

/-! ## One grid -/

/-- The multiples of a unit next to a number. -/
theorem flooredUnits_bounds (m : ℕ) (e k : ℤ) :
    (flooredUnits m e k : ℚ) * 10 ^ k ≤ m * 2 ^ e ∧
      (m : ℚ) * 2 ^ e < (flooredUnits m e k + 1 : ℕ) * 10 ^ k := by
  have htwo : (0 : ℚ) < twoTo (-e).toNat := by rw [cast_twoTo]; positivity
  have hten : (0 : ℚ) < tenTo (-k).toNat := by rw [cast_tenTo]; positivity
  have hten' : (0 : ℚ) < tenTo k.toNat := by rw [cast_tenTo]; positivity
  have hquotient : (m * 2 ^ e : ℚ) / 10 ^ k =
      (m * twoTo e.toNat * tenTo (-k).toNat : ℕ) / (twoTo (-e).toNat * tenTo k.toNat : ℕ) := by
    rw [two_zpow_eq, ten_zpow_eq]
    push_cast
    field_simp
  have hfloor : flooredUnits m e k = ⌊(m * 2 ^ e : ℚ) / 10 ^ k⌋₊ := by
    rw [hquotient, Nat.floor_div_eq_div]
    rfl
  have hpos := ten_zpow_pos k
  have hnonneg : (0 : ℚ) ≤ m * 2 ^ e / 10 ^ k :=
    div_nonneg (mul_two_zpow_nonneg m e) hpos.le
  rw [hfloor]
  constructor
  · rw [← le_div_iff₀ hpos]
    exact Nat.floor_le hnonneg
  · rw [← div_lt_iff₀ hpos]
    push_cast
    exact Nat.lt_floor_add_one _

/-- A positive multiple of a unit reads back. -/
def OnGrid (f : Format) (m : ℕ) (e k : ℤ) : Prop := ∃ n : ℕ, n ≠ 0 ∧ f.Between m e (n * 10 ^ k)

/-- If a multiple of the unit reads back, one of the two next to the number does. -/
theorem onGrid_iff (hm : 0 < m) (k : ℤ) : OnGrid f m e k ↔
    (readsBack f m e (flooredUnits m e k) k = true ∧ flooredUnits m e k ≠ 0) ∨
      readsBack f m e (flooredUnits m e k + 1) k = true := by
  have hpos := ten_zpow_pos k
  have hself := Between.self f m e
  obtain ⟨hbelow, habove⟩ := flooredUnits_bounds m e k
  rw [readsBack_iff hm, readsBack_iff hm]
  constructor
  · rintro ⟨n, hn, hbetween⟩
    by_cases hle : n ≤ flooredUnits m e k
    · have hcast : (n : ℚ) ≤ flooredUnits m e k := by exact_mod_cast hle
      refine .inl ⟨hbetween.convex hself ?_ hbelow, by omega⟩
      exact mul_le_mul_of_nonneg_right hcast hpos.le
    · have hle : flooredUnits m e k + 1 ≤ n := by omega
      have hcast : ((flooredUnits m e k + 1 : ℕ) : ℚ) ≤ n := by exact_mod_cast hle
      refine .inr (hself.convex hbetween habove.le ?_)
      exact mul_le_mul_of_nonneg_right hcast hpos.le
  · rintro (⟨hbetween, hne⟩ | hbetween)
    · exact ⟨flooredUnits m e k, hne, hbetween⟩
    · exact ⟨flooredUnits m e k + 1, Nat.succ_ne_zero _, hbetween⟩

/-- What is found on a grid reads back. -/
theorem between_of_unitsReadBack? (hm : 0 < m) {tie : Tie} {k : ℤ} {n : ℕ}
    (h : unitsReadBack? f tie m e k = some n) : n ≠ 0 ∧ f.Between m e (n * 10 ^ k) := by
  have hboth : ∀ n, readsBack f m e n k = true → n ≠ 0 → n ≠ 0 ∧ f.Between m e (n * 10 ^ k) :=
    fun n hreads hne => ⟨hne, (readsBack_iff hm n k).1 hreads⟩
  have hchoose : tie.choose (flooredUnits m e k) = flooredUnits m e k ∨
      tie.choose (flooredUnits m e k) = flooredUnits m e k + 1 := by
    unfold Tie.choose
    split
    · exact .inl rfl
    · exact .inr rfl
  have hsucc : flooredUnits m e k + 1 ≠ 0 := Nat.succ_ne_zero _
  simp only [unitsReadBack?] at h
  -- Whichever candidate is chosen has been read back.
  split at h
  · rename_i hbelow habove
    rw [Bool.and_eq_true_iff, bne_iff_ne] at hbelow
    split at h
    · cases h
      exact hboth _ hbelow.1 hbelow.2
    · cases h
      rcases hchoose with heq | heq
      · rw [heq]
        exact hboth _ hbelow.1 hbelow.2
      · rw [heq]
        exact hboth _ habove hsucc
    · cases h
      exact hboth _ habove hsucc
  · rename_i hbelow habove
    rw [Bool.and_eq_true_iff, bne_iff_ne] at hbelow
    cases h
    exact hboth _ hbelow.1 hbelow.2
  · rename_i hbelow habove
    cases h
    exact hboth _ habove hsucc
  · cases h

/-- Nothing is found on a grid only if nothing on it reads back. -/
theorem unitsReadBack?_eq_none_iff (hm : 0 < m) (tie : Tie) (k : ℤ) :
    unitsReadBack? f tie m e k = none ↔ ¬ OnGrid f m e k := by
  constructor
  · intro h hgrid
    rw [onGrid_iff hm] at hgrid
    simp only [unitsReadBack?] at h
    split at h
    · split at h <;> cases h
    · cases h
    · cases h
    · rename_i hbelow habove
      rcases hgrid with ⟨hreads, hne⟩ | hreads
      · rw [Bool.and_eq_false_iff] at hbelow
        rcases hbelow with hfalse | hzero
        · rw [hreads] at hfalse
          cases hfalse
        · exact hne (by simpa using hzero)
      · rw [hreads] at habove
        cases habove
  · intro h
    by_contra hsome
    obtain ⟨n, hn⟩ := Option.ne_none_iff_exists'.1 hsome
    obtain ⟨hne, hbetween⟩ := between_of_unitsReadBack? hm hn
    exact h ⟨n, hne, hbetween⟩

/-! ## The search -/

/-- The search ends on the first grid with a number that reads back, if it comes to one. -/
theorem shortest_spec (hm : 0 < m) (tie : Tie) {steps : ℕ} {start : ℤ}
    (hfound : ∃ k, start - steps < k ∧ k ≤ start ∧ OnGrid f m e k) :
    (shortest f tie m e steps start).1 ≠ 0 ∧
      f.Between m e ((shortest f tie m e steps start).1 * 10 ^ (shortest f tie m e steps start).2) ∧
      ∀ k, (shortest f tie m e steps start).2 < k → k ≤ start → ¬ OnGrid f m e k := by
  induction steps generalizing start with
  | zero =>
    obtain ⟨k, hlow, hhigh, -⟩ := hfound
    push_cast at hlow
    omega
  | succ steps ih =>
    rw [shortest]
    split
    · rename_i n hn
      obtain ⟨hne, hbetween⟩ := between_of_unitsReadBack? hm hn
      exact ⟨hne, hbetween, fun k hlow hhigh => by omega⟩
    · rename_i hnone
      have hstart := (unitsReadBack?_eq_none_iff hm tie start).1 hnone
      have hlater : ∃ k, start - 1 - steps < k ∧ k ≤ start - 1 ∧ OnGrid f m e k := by
        obtain ⟨k, hlow, hhigh, hgrid⟩ := hfound
        have hne : k ≠ start := fun heq => hstart (heq ▸ hgrid)
        refine ⟨k, ?_, by omega, hgrid⟩
        push_cast at hlow
        omega
      obtain ⟨hne, hbetween, hcoarser⟩ := ih hlater
      refine ⟨hne, hbetween, fun k hlow hhigh => ?_⟩
      by_cases heq : k = start
      · exact heq ▸ hstart
      · exact hcoarser k hlow (by omega)

/-- How many digits the whole part of a number has says where the number lies. -/
theorem toDigits_zpow_bounds {n : ℕ} {x : ℚ} (hn : 0 < n) (hle : n ≤ x) (hlt : x < n + 1) :
    (10 : ℚ) ^ (((Nat.toDigits 10 n).length : ℤ) - 2) < x ∧
      x < 10 ^ ((Nat.toDigits 10 n).length : ℤ) := by
  have hten : (1 : ℚ) < 10 := by norm_num
  obtain ⟨hlower, hupper⟩ := toDigits_bounds hn
  have hlength : 0 < (Nat.toDigits 10 n).length := List.length_pos_iff.2 Nat.toDigits_ne_nil
  constructor
  · calc (10 : ℚ) ^ (((Nat.toDigits 10 n).length : ℤ) - 2)
        < 10 ^ (((Nat.toDigits 10 n).length - 1 : ℕ) : ℤ) := zpow_lt_zpow_right₀ hten (by omega)
      _ ≤ n := by exact_mod_cast hlower
      _ ≤ x := hle
  · calc x < n + 1 := hlt
      _ ≤ 10 ^ ((Nat.toDigits 10 n).length : ℤ) := by exact_mod_cast hupper

/-- The whole part of a quotient. -/
theorem natCast_div_bounds (a b : ℕ) :
    ((a / b : ℕ) : ℚ) ≤ a / b ∧ (a / b : ℚ) < (a / b : ℕ) + 1 := by
  have hfloor := Nat.floor_div_eq_div (K := ℚ) a b
  rw [← hfloor]
  exact ⟨Nat.floor_le (by positivity), Nat.lt_floor_add_one _⟩

/-- The exponent where the search begins lies at most two powers of ten above the number. -/
theorem decimalExponentBound_spec (hm : 0 < m) (e : ℤ) :
    (10 : ℚ) ^ (decimalExponentBound m e - 2) < m * 2 ^ e ∧
      (m * 2 ^ e : ℚ) < 10 ^ decimalExponentBound m e := by
  have hvalue := mul_two_zpow_pos hm e
  unfold decimalExponentBound
  split
  · have hzero : (-e).toNat = 0 := by omega
    have hwhole : (m * 2 ^ e : ℚ) = (m * twoTo e.toNat : ℕ) := by
      rw [two_zpow_eq, hzero]
      simp [twoTo]
    have hpos : 0 < m * twoTo e.toNat := Nat.mul_pos hm (Nat.two_pow_pos _)
    exact toDigits_zpow_bounds hpos hwhole.ge (by linarith)
  · have hzero : e.toNat = 0 := by omega
    have hpow : 0 < twoTo (-e).toNat := Nat.two_pow_pos _
    have hquotient : (m * 2 ^ e : ℚ) = m / twoTo (-e).toNat := by
      rw [two_zpow_eq, hzero]
      simp [twoTo, div_eq_mul_inv]
    dsimp only
    split
    · -- Below one the inverse is looked at.
      rename_i hsmall
      have hlt : m < twoTo (-e).toNat := by
        by_contra hge
        have hpos := Nat.div_pos (not_lt.1 hge) hpow
        omega
      have hinverse : (m * 2 ^ e : ℚ)⁻¹ = twoTo (-e).toNat / m := by
        rw [hquotient, inv_div]
      have hbounds := natCast_div_bounds (twoTo (-e).toNat) m
      rw [← hinverse] at hbounds
      obtain ⟨hlower, hupper⟩ :=
        toDigits_zpow_bounds (Nat.div_pos hlt.le hm) hbounds.1 hbounds.2
      have hlength : 0 < (Nat.toDigits 10 (twoTo (-e).toNat / m)).length :=
        List.length_pos_iff.2 Nat.toDigits_ne_nil
      generalize (Nat.toDigits 10 (twoTo (-e).toNat / m)).length = l at hlower hupper hlength ⊢
      have hexp : 1 - ((l - 1 : ℕ) : ℤ) = -((l : ℤ) - 2) := by omega
      have hexp' : -((l : ℤ) - 2) - 2 = -(l : ℤ) := by omega
      rw [hexp, hexp', zpow_neg, zpow_neg]
      exact ⟨inv_lt_of_inv_lt₀ hvalue hupper, lt_inv_of_lt_inv₀ (ten_zpow_pos _) hlower⟩
    · rename_i hne
      have hbounds := natCast_div_bounds m (twoTo (-e).toNat)
      rw [← hquotient] at hbounds
      exact toDigits_zpow_bounds (Nat.pos_of_ne_zero hne) hbounds.1 hbounds.2

/-- With seventeen digits and more every number reads back. -/
theorem onGrid_of_fine (hprecision : m < 2 ^ 53) (hm : 0 < m) (f : Format) (e : ℤ) :
    OnGrid f m e (decimalExponentBound m e - 19) := by
  obtain ⟨hlower, -⟩ := decimalExponentBound_spec hm e
  obtain ⟨hbelow, habove⟩ := flooredUnits_bounds m e (decimalExponentBound m e - 19)
  have hunit : (10 : ℚ) ^ (decimalExponentBound m e - 19) < 2 ^ e / 2 := by
    have hexp : (10 : ℚ) ^ (decimalExponentBound m e - 2) =
        10 ^ 17 * 10 ^ (decimalExponentBound m e - 19) := by
      rw [← zpow_natCast, ← zpow_add₀ (by norm_num)]
      congr 1
      push_cast
      omega
    have hshort : (m : ℚ) < 2 ^ 53 := by exact_mod_cast hprecision
    have htwo := two_zpow_pos e
    have hle : (m : ℚ) * 2 ^ e ≤ 2 ^ 53 * 2 ^ e :=
      mul_le_mul_of_nonneg_right hshort.le htwo.le
    rw [hexp] at hlower
    have hten := ten_zpow_pos (decimalExponentBound m e - 19)
    norm_num at hlower hle
    linarith
  refine ⟨flooredUnits m e (decimalExponentBound m e - 19) + 1, Nat.succ_ne_zero _, ?_⟩
  refine .of_lt ((f.middleBelow_lt m e).trans habove) ?_
  rw [middleAbove]
  push_cast
  linarith

/-- No positive multiple of a power of ten far above the number reads back. -/
theorem not_onGrid_of_coarse (hm : 0 < m) {k : ℤ} (hk : decimalExponentBound m e < k) :
    ¬ OnGrid f m e k := by
  rintro ⟨n, hn, hbetween⟩
  obtain ⟨-, hupper⟩ := decimalExponentBound_spec hm e
  have hone : (1 : ℚ) ≤ n := by exact_mod_cast Nat.pos_of_ne_zero hn
  have hm' : (1 : ℚ) ≤ m := by exact_mod_cast hm
  have hten := ten_zpow_pos (decimalExponentBound m e)
  have hpow : 10 * (10 : ℚ) ^ decimalExponentBound m e ≤ 10 ^ k := by
    rw [← zpow_one_add₀ (by norm_num)]
    exact zpow_le_zpow_right₀ (by norm_num) (by omega)
  have hle : (10 : ℚ) ^ k ≤ n * 10 ^ k := le_mul_of_one_le_left (ten_zpow_pos k).le hone
  have hmiddle : n * 10 ^ k ≤ (m + 1 / 2) * (2 : ℚ) ^ e := hbetween.upper
  have htwo := two_zpow_pos e
  have hdouble : (m + 1 / 2) * (2 : ℚ) ^ e ≤ 2 * m * 2 ^ e :=
    mul_le_mul_of_nonneg_right (by linarith) htwo.le
  linarith

/-- The digits of a number that reads back, and no number on a coarser decimal grid does. -/
structure IsShortest (f : Format) (m : ℕ) (e : ℤ) (n : ℕ) (k : ℤ) : Prop where
  ne_zero : n ≠ 0
  between : f.Between m e (n * 10 ^ k)
  coarsest : ∀ j, k < j → ¬ OnGrid f m e j

/-- Such digits are found. -/
theorem shortestDigits_spec (hprecision : m < 2 ^ 53) (hm : 0 < m) (f : Format) (tie : Tie)
    (e : ℤ) :
    IsShortest f m e (shortestDigits f tie m e).1 (shortestDigits f tie m e).2 := by
  have hfound : ∃ k, decimalExponentBound m e - (20 : ℕ) < k ∧ k ≤ decimalExponentBound m e ∧
      OnGrid f m e k :=
    ⟨decimalExponentBound m e - 19, by omega, by omega, onGrid_of_fine hprecision hm f e⟩
  obtain ⟨hne, hbetween, hcoarser⟩ := shortest_spec hm tie hfound
  refine ⟨hne, hbetween, fun k hk => ?_⟩
  by_cases hle : k ≤ decimalExponentBound m e
  · exact hcoarser k hk hle
  · exact not_onGrid_of_coarse hm (not_le.1 hle)

/-- A grid with a number that reads back is not coarser than the digits. -/
theorem IsShortest.le_of_onGrid {f : Format} {n : ℕ} {k j : ℤ} (h : IsShortest f m e n k)
    (hj : OnGrid f m e j) : j ≤ k :=
  not_lt.1 fun hlt => h.coarsest j hlt hj

end Binary

end ShEx.Number
