import ShEx.Proofs.DecimalValues

/-!
# How many digits a number has

The total and the fraction digits of a literal are counted on its text, with the zeros at the two
ends left out.  The standard defines them by the number: the fraction digits are the places that it
needs behind the point, and with `t` digits in all one can write the numbers `i / 10 ^ n` where `i`
has at most `t` digits and there are at most `t` places.  The two agree for every number of any
length (`digitCounts?_isLeast`).
-/

set_option autoImplicit false

namespace ShEx.Datatype

open ShEx.Number ShEx.Rdf

/-- Zeros in front do not change the number that digits denote. -/
theorem decimalNumber_dropZeros (a b : List Char) :
    decimalNumber (a.dropWhile (· = '0') ++ b) = decimalNumber (a ++ b) := by
  induction a with
  | nil => rfl
  | cons c a ih =>
    by_cases hc : c = '0'
    · have hdrop : (c :: a).dropWhile (· = '0') = a.dropWhile (· = '0') := by simp [hc]
      rw [hdrop, ih, hc]
      exact (decimalNumber_zeros_append 1 (a ++ b)).symm
    · have hdrop : (c :: a).dropWhile (· = '0') = c :: a := by simp [hc]
      rw [hdrop]

/-- A number that begins with another digit than zero is at least the power of ten where this digit
stands. -/
theorem le_decimalNumber {c : Char} {digits : List Char} (hc : c.isDigit = true) (hne : c ≠ '0') :
    10 ^ digits.length ≤ decimalNumber (c :: digits) := by
  have happend := decimalNumber_cons c digits
  have hle : 1 * 10 ^ digits.length ≤ decimalNumber [c] * 10 ^ digits.length :=
    Nat.mul_le_mul_right _ (decimalNumber_digit hc hne).1
  omega

namespace DecimalForm

variable (p : DecimalForm)

/-- The digits in front of the point without the zeros in front. -/
def leading : List Char := p.whole.dropWhile (· = '0')

/-- How many digits count. -/
def width : ℕ := p.leading.length + p.places

/-- In a text, the digits of its parts that count are counted, and never fewer than one. -/
theorem Of.writtenDigits_eq {p : DecimalForm} {text : List Char} (hp : p.Of text) :
    writtenDigits text = (max p.width 1, p.places) := by
  have hwhole := hp.whole
  have hfraction := hp.fraction
  simp only [writtenDigits, hwhole, hfraction]
  rfl

/-- The digits that count are those in front of the point without zeros in front, and those of the
fraction without zeros at the end. -/
theorem units_eq_leading : p.units = decimalNumber (p.leading ++ dropTrailing '0' p.fraction) :=
  (decimalNumber_dropZeros p.whole _).symm

/-- The digits that count are that many. -/
theorem units_lt : p.units < 10 ^ p.width := by
  have hall : allDigits (p.leading ++ dropTrailing '0' p.fraction) = true := by
    have h := p.allDigits_dropTrailing
    simp only [allDigits, List.all_append, Bool.and_eq_true, List.all_eq_true] at h ⊢
    refine ⟨fun c hc => h.1 c ?_, h.2⟩
    exact (List.dropWhile_suffix _).subset hc
  have hlt := decimalNumber_lt hall
  rw [← units_eq_leading, List.length_append] at hlt
  exact hlt

/-- With a digit in front of the point none of the digits that count can be spared. -/
theorem le_units (h : p.leading ≠ []) : 10 ^ (p.width - 1) ≤ p.units := by
  cases hlead : p.leading with
  | nil => exact absurd hlead h
  | cons c rest =>
    have hmem : c ∈ p.whole := by
      have hsuffix : p.leading <:+ p.whole := List.dropWhile_suffix _
      exact hsuffix.subset (hlead ▸ List.mem_cons_self)
    have hne : c ≠ '0' := by
      have hhead := List.head_dropWhile_not (fun x => decide (x = '0')) (l := p.whole) h
      simp only [leading] at hlead
      simp only [hlead, List.head_cons] at hhead
      exact of_decide_eq_false hhead
    have hle : 10 ^ (rest ++ dropTrailing '0' p.fraction).length ≤
        decimalNumber (c :: (rest ++ dropTrailing '0' p.fraction)) :=
      le_decimalNumber (isDigit_of_allDigits p.whole_digits hmem) hne
    have hwidth : p.width - 1 = (rest ++ dropTrailing '0' p.fraction).length := by
      have hlength : (rest ++ dropTrailing '0' p.fraction).length =
          rest.length + (dropTrailing '0' p.fraction).length := List.length_append
      simp only [width, hlead, places, List.length_cons]
      omega
    rw [units_eq_leading, hlead, hwidth]
    exact hle

/-- The counted digits are those that are needed to write the number. -/
theorem isLeast_width : IsLeast
    {t : ℕ | 1 ≤ t ∧ ∃ (i : ℤ) (n : ℕ), p.value = i / 10 ^ n ∧ |i| < 10 ^ t ∧ n ≤ t}
    (max p.width 1) := by
  have hplaces : p.places ≤ p.width := Nat.le_add_left _ _
  have habs : |signed p.negative p.units| = p.units := by
    unfold signed
    split
    · rw [abs_neg, Nat.abs_cast]
    · rw [Nat.abs_cast]
  constructor
  · refine ⟨le_max_right _ _, signed p.negative p.units, p.places, p.value_eq, ?_, by omega⟩
    rw [habs]
    have hlt : p.units < 10 ^ max p.width 1 :=
      p.units_lt.trans_le (Nat.pow_le_pow_right (by norm_num) (le_max_left _ _))
    exact_mod_cast hlt
  · rintro t ⟨hone, i, n, hi, hlt, hn⟩
    have hn' : p.places ≤ n := by
      apply p.isLeast_places.2
      exact ⟨i, by rw [hi]; field_simp⟩
    -- Without leading digits the width is the number of places.
    by_cases hlead : p.leading = []
    · have hwidth : p.width = p.places := by simp [width, hlead]
      omega
    · have hsize : |i| = (p.units : ℤ) * 10 ^ (n - p.places) := by
        have hpow : (10 : ℚ) ^ n = 10 ^ p.places * 10 ^ (n - p.places) := by
          rw [← pow_add, Nat.add_sub_cancel' hn']
        rw [p.value_eq, hpow] at hi
        field_simp at hi
        have hi : i = signed p.negative p.units * 10 ^ (n - p.places) := by exact_mod_cast hi.symm
        rw [hi, abs_mul, habs, abs_of_pos (by positivity : (0 : ℤ) < 10 ^ (n - p.places))]
      have hunits : (p.units : ℤ) ≤ |i| := by
        rw [hsize]
        exact le_mul_of_one_le_right (Int.natCast_nonneg _) (one_le_pow₀ (by norm_num))
      have hpow : (10 : ℤ) ^ (p.width - 1) < 10 ^ t := by
        calc (10 : ℤ) ^ (p.width - 1) ≤ (p.units : ℤ) := by exact_mod_cast p.le_units hlead
          _ ≤ |i| := hunits
          _ < 10 ^ t := hlt
      have hexp := (pow_lt_pow_iff_right₀ (by norm_num : (1 : ℤ) < 10)).1 hpow
      omega

end DecimalForm

/-- The digits of a literal are counted on its text. -/
theorem HasValue.digitCounts?_eq {l : Literal} {v : ℚ} (h : HasValue l v) :
    digitCounts? l = some (writtenDigits l.lexical.toList) := by
  obtain ⟨d, hd, hfamily⟩ := isExact_iff.1 h.datatype
  have hlexical := isLexical_of_isValid hd h.valid
  have hexact : (decide (d.family = .integer) || decide (d.family = .decimal)) = true := by
    simpa [Family.Exact] using hfamily
  simp [digitCounts?, hd, hexact, hlexical]

/-- The parts of a valid literal say its value and its digits. -/
theorem HasValue.exists_form {l : Literal} {v : ℚ} (h : HasValue l v) :
    ∃ p : DecimalForm, p.value = v ∧ digitCounts? l = some (max p.width 1, p.places) := by
  have hdecimal := h.denotes.isDecimal
  obtain ⟨p, hp⟩ := ShEx.Datatype.exists_form hdecimal
  refine ⟨p, ((hp.denotes_iff hdecimal).1 h.denotes).symm, ?_⟩
  rw [h.digitCounts?_eq, hp.writtenDigits_eq]

/-- Literals that denote the same number have the same digits. -/
theorem HasValue.digitCounts?_congr {l l' : Literal} {v : ℚ} (h : HasValue l v)
    (h' : HasValue l' v) : digitCounts? l = digitCounts? l' := by
  obtain ⟨p, hvalue, hcounts⟩ := h.exists_form
  obtain ⟨p', hvalue', hcounts'⟩ := h'.exists_form
  have heq : p.value = p'.value := hvalue.trans hvalue'.symm
  have hwidth := p.isLeast_width
  rw [heq] at hwidth
  rw [hcounts, hcounts', hwidth.unique p'.isLeast_width, DecimalForm.places_eq heq]

/-- The digits of valid integers and decimals, of any length and however they are written, are
counted as the standard defines them: `f` fraction digits are the least number of places that make
the number a whole one, `t` digits in all the least number of which one can write it.  Literals that
denote the same number have the same digits. -/
theorem digitCounts?_isLeast :
    (∀ l : Literal, IsExact l.datatype → isValid l = true → ∃! v, HasValue l v) ∧
    ∀ (l : Literal) (v : ℚ), HasValue l v →
      (∃ t f : ℕ, digitCounts? l = some (t, f) ∧
        IsLeast {n : ℕ | ∃ i : ℤ, v * 10 ^ n = i} f ∧
        IsLeast {t : ℕ | 1 ≤ t ∧
          ∃ (i : ℤ) (n : ℕ), v = i / 10 ^ n ∧ |i| < 10 ^ t ∧ n ≤ t} t) ∧
      ∀ l' : Literal, HasValue l' v → digitCounts? l' = digitCounts? l := by
  refine ⟨fun l => existsUnique_hasValue, fun l v h => ?_⟩
  obtain ⟨p, hvalue, hcounts⟩ := h.exists_form
  refine ⟨⟨max p.width 1, p.places, hcounts, ?_, ?_⟩, fun l' h' => h'.digitCounts?_congr h⟩
  · rw [← hvalue]
    exact p.isLeast_places
  · rw [← hvalue]
    exact p.isLeast_width

/-- One hundredth below zero, with zeros on both sides of its digits. -/
def paddedLiteral : Literal := .typed "-00.0100" (Vocabulary.xsd "decimal")

/-- The padded literal is valid and denotes minus one hundredth. -/
theorem paddedLiteral_hasValue : HasValue paddedLiteral (-1 / 100) where
  datatype := ⟨"decimal", by simp [exactNames], rfl⟩
  valid := by decide
  denotes := by
    have hwhole : decimalNumber ['0', '0'] = 0 := by decide
    have hfraction : decimalNumber ['0', '1', '0', '0'] = 100 := by decide
    have hunsigned : DenotesUnsigned (['0', '0'] ++ '.' :: ['0', '1', '0', '0'])
        (decimalNumber ['0', '0'] +
          decimalNumber ['0', '1', '0', '0'] / 10 ^ ['0', '1', '0', '0'].length) :=
      .pointed (Grammar.mem_digit_star.2 rfl) (Grammar.mem_digits.2 rfl)
    rw [hwhole, hfraction] at hunsigned
    have hvalue : (-1 / 100 : ℚ) = -((0 : ℕ) + (100 : ℕ) / 10 ^ ['0', '1', '0', '0'].length) := by
      norm_num
    rw [hvalue]
    exact .minus hunsigned

/-- The zeros on both sides count neither as digits nor as places. -/
theorem digitCounts?_isLeast_padded :
    IsExact paddedLiteral.datatype ∧ isValid paddedLiteral = true ∧
    HasValue paddedLiteral (-1 / 100) ∧ (∃! v, HasValue paddedLiteral v) ∧
    ∃ t f : ℕ, digitCounts? paddedLiteral = some (t, f) ∧
      IsLeast {n : ℕ | ∃ i : ℤ, (-1 / 100 : ℚ) * 10 ^ n = i} f := by
  have hvalue := paddedLiteral_hasValue
  have hunique := digitCounts?_isLeast.1 paddedLiteral hvalue.datatype hvalue.valid
  obtain ⟨⟨t, f, hcounts, hfraction, -⟩, -⟩ := digitCounts?_isLeast.2 _ _ hvalue
  exact ⟨hvalue.datatype, hvalue.valid, hvalue, hunique, t, f, hcounts, hfraction⟩

end ShEx.Datatype
