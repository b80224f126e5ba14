import ShEx.Proofs.NumericForms
import Mathlib.Algebra.Order.Field.Rat
import Mathlib.Data.List.DropRight
import Mathlib.Data.Nat.Digits.Lemmas
import Mathlib.Tactic.FieldSimp
import Mathlib.Tactic.Linarith
import Mathlib.Tactic.NormNum
import Mathlib.Tactic.Positivity
import Mathlib.Tactic.Ring

/-!
# The rational numbers that decimals denote

A decimal denotes a rational number: the digits in front of the point count as they do in an
integer, those behind it as a fraction, and a sign says which of the two numbers of that size is
meant (`DenotesDecimal`).  What reads decimals splits them into sign, whole part and fraction
(`DecimalForm`), and these say which number a decimal denotes (`DecimalForm.Of.denotes_iff`).

A number with eighteen places behind the point that fits in 128 bits is read exactly, however it is
written, and no other number is read as a decimal at all (`DenotesDecimal.parse?_eq_some_iff`).  The
argument is that zeros at the end of a fraction say nothing and that without them no place can be
spared (`isLeast_places`).
-/

set_option autoImplicit false

namespace ShEx.Datatype

open ShEx.Number ShEx.Rdf

/-! ## What decimals denote -/

/-- An unsigned decimal denotes a number: its digits stand for ones, tens and so on, and behind a
point for tenths, hundredths and so on. -/
inductive DenotesUnsigned : List Char → ℚ → Prop
  | whole {digits : List Char} (h : digits ∈ Grammar.digits.matches') :
      DenotesUnsigned digits (decimalNumber digits)
  | pointed {whole fraction : List Char} (hwhole : whole ∈ Grammar.digit.star.matches')
      (hfraction : fraction ∈ Grammar.digits.matches') :
      DenotesUnsigned (whole ++ '.' :: fraction)
        (decimalNumber whole + decimalNumber fraction / 10 ^ fraction.length)

/-- A decimal denotes a rational number. -/
inductive DenotesDecimal : List Char → ℚ → Prop
  | bare {text : List Char} {q : ℚ} (h : DenotesUnsigned text q) : DenotesDecimal text q
  | plus {text : List Char} {q : ℚ} (h : DenotesUnsigned text q) : DenotesDecimal ('+' :: text) q
  | minus {text : List Char} {q : ℚ} (h : DenotesUnsigned text q) :
      DenotesDecimal ('-' :: text) (-q)

/-- Digits behind others: the first ones count as much more as there are digits behind them. -/
theorem decimalNumber_append (a b : List Char) :
    decimalNumber (a ++ b) = decimalNumber a * 10 ^ b.length + decimalNumber b := by
  unfold decimalNumber
  rw [List.reverse_append, List.map_append, Nat.ofDigits_append]
  simp only [List.length_map, List.length_reverse]
  ring

/-- The first digit is worth one more power of ten for each digit behind it. -/
theorem decimalNumber_cons (c : Char) (rest : List Char) :
    decimalNumber (c :: rest) = decimalNumber [c] * 10 ^ rest.length + decimalNumber rest :=
  decimalNumber_append [c] rest

/-- One digit denotes its own value. -/
theorem decimalNumber_singleton {c : Char} (hc : c.isDigit = true) :
    decimalNumber [c] = digitValue c := by
  rw [← idxOf_figures hc]
  simp [decimalNumber]

/-- Digits in a row are a digit and digits behind it. -/
theorem allDigits_cons {c : Char} {rest : List Char} :
    allDigits (c :: rest) = true ↔ c.isDigit = true ∧ allDigits rest = true := by
  rw [allDigits, List.all_cons, Bool.and_eq_true_iff]
  rfl

/-- Zeros denote zero. -/
theorem decimalNumber_replicate_zero (n : ℕ) : decimalNumber (List.replicate n '0') = 0 := by
  have hzero : Grammar.figures.idxOf '0' = 0 := by decide
  rw [decimalNumber, List.reverse_replicate, List.map_replicate, hzero]
  exact Nat.ofDigits_replicate_zero

/-- Zeros in front do not count. -/
theorem decimalNumber_zeros_append (n : ℕ) (digits : List Char) :
    decimalNumber (List.replicate n '0' ++ digits) = decimalNumber digits := by
  rw [decimalNumber_append, decimalNumber_replicate_zero, Nat.zero_mul, Nat.zero_add]

/-- A digit other than zero. -/
theorem decimalNumber_digit {c : Char} (hc : c.isDigit = true) (hne : c ≠ '0') :
    0 < decimalNumber [c] ∧ decimalNumber [c] < 10 := by
  have hone : decimalNumber [c] = Grammar.figures.idxOf c := by simp [decimalNumber]
  have hlt := List.idxOf_lt_length_of_mem (Grammar.mem_figures.2 hc)
  rw [hone]
  refine ⟨Nat.pos_of_ne_zero fun hzero => hne ?_, hlt⟩
  have hget := List.getElem_idxOf hlt
  simp only [hzero] at hget
  exact hget.symm

/-- Digits denote less than the power of ten that is one digit longer. -/
theorem decimalNumber_lt {digits : List Char} (h : allDigits digits = true) :
    decimalNumber digits < 10 ^ digits.length := by
  have hdigit : ∀ d ∈ digits.reverse.map Grammar.figures.idxOf, d < 10 := by
    intro d hd
    obtain ⟨c, hc, rfl⟩ := List.mem_map.1 hd
    have hmem := Grammar.mem_figures.2 (isDigit_of_allDigits h (List.mem_reverse.1 hc))
    exact List.idxOf_lt_length_of_mem hmem
  simpa [decimalNumber] using Nat.ofDigits_lt_base_pow_length (by norm_num : 1 < 10) hdigit

/-! ## Sign, whole part and fraction -/

/-- The parts of a decimal: at least one digit, in front of the point or behind it. -/
structure DecimalForm where
  negative : Bool
  whole : List Char
  fraction : List Char
  whole_digits : allDigits whole = true
  fraction_digits : allDigits fraction = true
  nonempty : whole ++ fraction ≠ []

namespace DecimalForm

/-- All digits of a decimal, as one number. -/
def digits (p : DecimalForm) : ℕ := decimalNumber (p.whole ++ p.fraction)

/-- The size of the number that a decimal with these parts denotes. -/
def size (p : DecimalForm) : ℚ := p.digits / 10 ^ p.fraction.length

/-- The number that a decimal with these parts denotes. -/
def value (p : DecimalForm) : ℚ := if p.negative then -p.size else p.size

/-- A text has these parts. -/
structure Of (p : DecimalForm) (text : List Char) : Prop where
  sign : (splitSign text).1 = p.negative
  whole : (splitAtFirst (· = '.') (unsigned text)).1 = p.whole
  fraction : (splitAtFirst (· = '.') (unsigned text)).2.getD [] = p.fraction

/-- The parts of a decimal, written without the point, are digits. -/
theorem allDigits_append {p : DecimalForm} : allDigits (p.whole ++ p.fraction) = true := by
  have hwhole := p.whole_digits
  have hfraction := p.fraction_digits
  simp only [allDigits] at hwhole hfraction ⊢
  rw [List.all_append, hwhole, hfraction]
  rfl

/-- What reads a decimal asks for digits only, and for one at least. -/
theorem hasDigits (p : DecimalForm) : (p.whole.all Char.isDigit && p.fraction.all Char.isDigit &&
    !(p.whole ++ p.fraction).isEmpty) = true := by
  have hwhole : p.whole.all Char.isDigit = true := p.whole_digits
  have hfraction : p.fraction.all Char.isDigit = true := p.fraction_digits
  rw [hwhole, hfraction, List.isEmpty_eq_false_iff.2 p.nonempty]
  rfl

/-- The digits in the text denote the number that is made of the parts. -/
theorem digitsValue_eq_digits (p : DecimalForm) : digitsValue (p.whole ++ p.fraction) = p.digits :=
  digitsValue_eq p.allDigits_append

/-- The size is not negative; the sign is not part of it. -/
theorem size_nonneg (p : DecimalForm) : 0 ≤ p.size := by
  unfold size
  positivity

/-- The sign is all that tells the number from its size. -/
theorem abs_value (p : DecimalForm) : |p.value| = p.size := by
  unfold value
  split
  · rw [abs_neg, abs_of_nonneg p.size_nonneg]
  · exact abs_of_nonneg p.size_nonneg

end DecimalForm

/-- Digits do not contain a point. -/
theorem allDigits_no_point {digits : List Char} (h : allDigits digits = true) :
    ∀ c ∈ digits, decide (c = '.') = false := by
  intro c hc
  exact decide_eq_false (isDigit_ne (isDigit_of_allDigits h hc) rfl)

/-- A decimal has parts. -/
theorem exists_form {text : List Char} (h : isDecimal text = true) :
    ∃ p : DecimalForm, p.Of text := by
  rw [isDecimal_iff, Grammar.mem_decimal] at h
  rcases h with ⟨whole, fraction, heq, hwhole, hfraction⟩ | h
  · have hsplit : splitAtFirst (· = '.') (unsigned text) = (whole, some fraction) := by
      rw [heq]
      exact splitAtFirst_append (allDigits_no_point hwhole) (decide_eq_true rfl)
    have hne : whole ++ fraction ≠ [] := by
      cases fraction with
      | nil => cases hfraction
      | cons c rest => simp
    refine ⟨⟨(splitSign text).1, whole, fraction, hwhole, allDigits_of_isDigits hfraction, hne⟩, ?_⟩
    exact ⟨rfl, by rw [hsplit], by rw [hsplit]; rfl⟩
  · have hdigits := allDigits_of_isDigits h
    have hsplit : splitAtFirst (· = '.') (unsigned text) = (unsigned text, none) :=
      splitAtFirst_of_forall (allDigits_no_point hdigits)
    have hne : unsigned text ++ [] ≠ [] := by
      intro hnil
      rw [List.append_nil] at hnil
      rw [hnil] at h
      cases h
    refine ⟨⟨(splitSign text).1, unsigned text, [], hdigits, rfl, hne⟩, ?_⟩
    exact ⟨rfl, by rw [hsplit], by rw [hsplit]; rfl⟩

namespace DecimalForm

variable {p : DecimalForm} {text : List Char}

/-- With a point, the fraction counts as tenths, hundredths and so on. -/
theorem Of.size_pointed (hp : p.Of text) {whole fraction : List Char}
    (htext : unsigned text = whole ++ '.' :: fraction) (hwhole : allDigits whole = true) :
    p.size = decimalNumber whole + decimalNumber fraction / 10 ^ fraction.length := by
  have hsplit : splitAtFirst (· = '.') (unsigned text) = (whole, some fraction) := by
    rw [htext]
    exact splitAtFirst_append (allDigits_no_point hwhole) (decide_eq_true rfl)
  have hpwhole := hp.whole
  have hpfraction := hp.fraction
  rw [hsplit] at hpwhole hpfraction
  simp only [Option.getD_some] at hpwhole hpfraction
  rw [size, digits, ← hpwhole, ← hpfraction, decimalNumber_append]
  push_cast
  field_simp

/-- Without a point, the number is a whole one. -/
theorem Of.size_whole (hp : p.Of text) (htext : isDigits (unsigned text) = true) :
    p.size = decimalNumber (unsigned text) := by
  have hsplit : splitAtFirst (· = '.') (unsigned text) = (unsigned text, none) :=
    splitAtFirst_of_forall (allDigits_no_point (allDigits_of_isDigits htext))
  have hpwhole := hp.whole
  have hpfraction := hp.fraction
  rw [hsplit] at hpwhole hpfraction
  simp only [Option.getD_none] at hpwhole hpfraction
  simp [size, digits, ← hpwhole, ← hpfraction]

/-- What is behind the sign denotes the size of the number. -/
theorem Of.denotesUnsigned_iff (hp : p.Of text) (h : isDecimal text = true) {q : ℚ} :
    DenotesUnsigned (unsigned text) q ↔ q = p.size := by
  constructor
  · intro hq
    generalize hv : unsigned text = v at hq
    cases hq with
    | whole hdigits =>
      have hdigits := Grammar.mem_digits.1 hdigits
      rw [hp.size_whole (hv ▸ hdigits), hv]
    | pointed hwhole _ => rw [hp.size_pointed hv (Grammar.mem_digit_star.1 hwhole)]
  · rintro rfl
    rw [isDecimal_iff, Grammar.mem_decimal] at h
    rcases h with ⟨whole, fraction, hv, hwhole, hfraction⟩ | h
    · rw [hp.size_pointed hv hwhole, hv]
      exact .pointed (Grammar.mem_digit_star.2 hwhole) (Grammar.mem_digits.2 hfraction)
    · rw [hp.size_whole h]
      exact .whole (Grammar.mem_digits.2 h)

end DecimalForm

/-- What denotes a number without a sign follows the grammar of unsigned decimals. -/
theorem DenotesUnsigned.mem {text : List Char} {q : ℚ} (h : DenotesUnsigned text q) :
    text ∈ Grammar.unsignedDecimal.matches' := by
  rw [Grammar.mem_unsignedDecimal]
  cases h with
  | whole h => exact .inr (Grammar.mem_digits.1 h)
  | pointed hwhole hfraction =>
    exact .inl ⟨_, _, rfl, Grammar.mem_digit_star.1 hwhole, Grammar.mem_digits.1 hfraction⟩

/-- What denotes a number follows the grammar. -/
theorem DenotesDecimal.isDecimal {text : List Char} {q : ℚ} (h : DenotesDecimal text q) :
    isDecimal text = true := by
  have hunsigned : ∀ v ∈ Grammar.unsignedDecimal.matches', unsigned v = v :=
    fun _ => Grammar.unsigned_of_unsignedDecimal
  rw [isDecimal_iff, Grammar.decimal, Grammar.mem_sign_mul hunsigned]
  cases h with
  | bare h =>
    rw [hunsigned text h.mem]
    exact h.mem
  | plus h => exact h.mem
  | minus h => exact h.mem

namespace DecimalForm

variable {p : DecimalForm} {text : List Char}

/-- A decimal denotes the number that its parts say, and no other one. -/
theorem Of.denotes_iff (hp : p.Of text) (h : isDecimal text = true) {q : ℚ} :
    DenotesDecimal text q ↔ q = p.value := by
  have hsign := hp.sign
  have hiff := fun q : ℚ => hp.denotesUnsigned_iff h (q := q)
  -- A text begins with a minus, with a plus, or with neither.
  rcases splitSign_cases text with ⟨rest, rfl⟩ | ⟨rest, rfl⟩ | hnone
  · have hvalue : p.value = -p.size := if_pos hsign.symm
    have hrest : ∀ q, DenotesUnsigned rest q ↔ q = p.size := hiff
    rw [hvalue]
    constructor
    · intro hq
      cases hq with
      | bare hq => cases Grammar.unsigned_of_unsignedDecimal hq.mem
      | minus hq => rw [(hrest _).1 hq]
    · rintro rfl
      exact .minus ((hrest _).2 rfl)
  · have hvalue : p.value = p.size := if_neg (hsign ▸ Bool.false_ne_true)
    have hrest : ∀ q, DenotesUnsigned rest q ↔ q = p.size := hiff
    rw [hvalue]
    constructor
    · intro hq
      cases hq with
      | bare hq => cases Grammar.unsigned_of_unsignedDecimal hq.mem
      | plus hq => exact (hrest _).1 hq
    · rintro rfl
      exact .plus ((hrest _).2 rfl)
  · have hvalue : p.value = p.size := by
      rw [hnone] at hsign
      exact if_neg (hsign ▸ Bool.false_ne_true)
    have hbare : unsigned text = text := congrArg Prod.snd hnone
    rw [hbare] at hiff
    rw [hvalue]
    constructor
    · intro hq
      cases hq with
      | bare hq => exact (hiff _).1 hq
      | plus => cases congrArg Prod.snd hnone
      | minus => cases congrArg Prod.fst hnone
    · rintro rfl
      exact .bare ((hiff _).2 rfl)

end DecimalForm

/-- A text follows the grammar of decimals if and only if it denotes a number, and it denotes one
only. -/
theorem mem_decimal_iff_denotes {text : List Char} :
    text ∈ Grammar.decimal.matches' ↔ ∃! q, DenotesDecimal text q := by
  rw [← isDecimal_iff]
  constructor
  · intro h
    obtain ⟨p, hp⟩ := exists_form h
    exact ⟨p.value, (hp.denotes_iff h).2 rfl, fun q hq => (hp.denotes_iff h).1 hq⟩
  · rintro ⟨q, hq, -⟩
    exact hq.isDecimal

/-- A decimal denotes one number. -/
theorem DenotesDecimal.unique {text : List Char} {q q' : ℚ} (h : DenotesDecimal text q)
    (h' : DenotesDecimal text q') : q = q' :=
  (mem_decimal_iff_denotes.1 (isDecimal_iff.1 h.isDecimal)).unique h h'

/-! ## Zeros at the end -/

/-- Zeros at the end are dropped as by the operation of the library. -/
theorem dropTrailing_eq (c : Char) (text : List Char) :
    dropTrailing c text = text.rdropWhile (fun x => decide (x = c)) := rfl

/-- What is dropped at the end of a text is one character, repeated. -/
theorem dropTrailing_append_replicate (c : Char) (text : List Char) :
    ∃ n, text = dropTrailing c text ++ List.replicate n c := by
  have hrun : ∀ x ∈ text.rtakeWhile (fun x => decide (x = c)), x = c := by
    intro x hx
    have h := List.mem_rtakeWhile_imp hx
    exact of_decide_eq_true h
  refine ⟨(text.rtakeWhile fun x => decide (x = c)).length, ?_⟩
  rw [dropTrailing_eq, ← List.eq_replicate_of_mem hrun]
  exact List.rdropWhile_append_rtakeWhile.symm

/-- Digits that do not end with a zero denote no multiple of ten. -/
theorem not_ten_dvd_decimalNumber {a b : List Char} (hb : allDigits b = true)
    (hne : dropTrailing '0' b ≠ []) : ¬ 10 ∣ decimalNumber (a ++ dropTrailing '0' b) := by
  obtain ⟨n, hn⟩ := dropTrailing_append_replicate '0' b
  have hlast : (dropTrailing '0' b).getLast hne ≠ '0' := by
    have h := List.rdropWhile_last_not (fun x => decide (x = '0')) b hne
    exact of_decide_eq_false (Bool.eq_false_iff.2 h)
  have hmem : (dropTrailing '0' b).getLast hne ∈ b := by
    have hmem := List.mem_append_left (List.replicate n '0') (List.getLast_mem hne)
    rwa [← hn] at hmem
  generalize hd : (dropTrailing '0' b).getLast hne = d at hlast hmem
  have hsplit : dropTrailing '0' b = (dropTrailing '0' b).dropLast ++ [d] := by
    rw [← hd, List.dropLast_append_getLast]
  obtain ⟨hpos, hlt⟩ := decimalNumber_digit (isDigit_of_allDigits hb hmem) hlast
  rw [hsplit, ← List.append_assoc, decimalNumber_append]
  simp only [List.length_singleton, pow_one]
  omega

/-- In lowest terms with a power of ten below, the power is the least one that makes the number
whole. -/
theorem isLeast_exponent {d : ℤ} {f : ℕ} (h : f = 0 ∨ ¬ 10 ∣ d) :
    IsLeast {n : ℕ | ∃ i : ℤ, (d / 10 ^ f : ℚ) * 10 ^ n = i} f := by
  constructor
  · exact ⟨d, by field_simp⟩
  · intro n hn
    obtain ⟨i, hi⟩ := hn
    by_contra hlt
    rcases h with rfl | hndvd
    · omega
    · have hpow : (10 : ℚ) ^ f = 10 ^ n * 10 ^ (f - n) := by rw [← pow_add]; congr 1; omega
      have hd : (d : ℚ) = i * 10 ^ (f - n) := by
        rw [hpow] at hi
        field_simp at hi
        linarith
      have hd : d = i * 10 ^ (f - n) := by exact_mod_cast hd
      apply hndvd
      rw [hd]
      exact dvd_mul_of_dvd_right (dvd_pow_self 10 (by omega)) i

namespace DecimalForm

variable (p : DecimalForm)

/-- How many places behind the point count. -/
def places : ℕ := (dropTrailing '0' p.fraction).length

/-- The digits that count, as one number. -/
def units : ℕ := decimalNumber (p.whole ++ dropTrailing '0' p.fraction)

/-- The digits that count are digits. -/
theorem allDigits_dropTrailing : allDigits (p.whole ++ dropTrailing '0' p.fraction) = true := by
  obtain ⟨n, hn⟩ := dropTrailing_append_replicate '0' p.fraction
  have hall := p.allDigits_append
  rw [hn, ← List.append_assoc] at hall
  simp only [allDigits, List.all_append, Bool.and_eq_true] at hall ⊢
  exact hall.1

/-- Zeros at the end of the fraction do not change the size. -/
theorem size_eq : p.size = p.units / 10 ^ p.places := by
  obtain ⟨n, hn⟩ := dropTrailing_append_replicate '0' p.fraction
  have hdigits : p.digits = p.units * 10 ^ n := by
    unfold digits
    rw [hn, ← List.append_assoc, decimalNumber_append, decimalNumber_replicate_zero,
      List.length_replicate]
    rfl
  have hlength : p.fraction.length = p.places + n := by
    conv_lhs => rw [hn]
    rw [List.length_append, List.length_replicate]
    rfl
  rw [size, hdigits, hlength, pow_add]
  push_cast
  field_simp

/-- Zeros at the end of the fraction do not change the number. -/
theorem value_eq : p.value = (signed p.negative p.units : ℤ) / 10 ^ p.places := by
  unfold value signed
  split
  · rw [size_eq]
    push_cast
    ring
  · rw [size_eq]
    push_cast
    rfl

/-- The last digit that counts behind the point is not zero. -/
theorem units_reduced : p.places = 0 ∨ ¬ 10 ∣ p.units := by
  by_cases hne : dropTrailing '0' p.fraction = []
  · left
    rw [places, hne]
    rfl
  · exact .inr (not_ten_dvd_decimalNumber p.fraction_digits hne)

/-- As many places are needed to make the number whole as there are digits behind the point without
the zeros at the end. -/
theorem isLeast_places : IsLeast {n : ℕ | ∃ i : ℤ, p.value * 10 ^ n = i} p.places := by
  rw [p.value_eq]
  apply isLeast_exponent
  refine p.units_reduced.imp_right fun h hdvd => h ?_
  unfold signed at hdvd
  split at hdvd
  · exact Int.natCast_dvd_natCast.1 ((dvd_neg (a := (10 : ℤ))).1 hdvd)
  · exact Int.natCast_dvd_natCast.1 hdvd

/-- How many places count depends on the number only. -/
theorem places_eq {p p' : DecimalForm} (h : p.value = p'.value) : p.places = p'.places :=
  (h ▸ p.isLeast_places).unique p'.isLeast_places

end DecimalForm

/-! ## Reading -/

/-- A decimal denotes its units, in the last of the places it can have. -/
theorem toRat_eq (d : Decimal) : d.toRat = d.scaled / 10 ^ Decimal.places := by
  rw [Decimal.toRat, Rat.mkRat_eq_div]
  rfl

/-- Two decimals with the same value are the same. -/
theorem scaled_eq_of_toRat_eq {a b : Decimal} (h : a.toRat = b.toRat) : a = b := by
  rw [toRat_eq, toRat_eq] at h
  field_simp at h
  have h : a.scaled = b.scaled := by exact_mod_cast h
  cases a
  cases b
  simpa using h

/-- Reading looks at the parts of a decimal. -/
theorem DecimalForm.Of.parse?_eq {p : DecimalForm} {text : List Char} (hp : p.Of text) :
    Decimal.parse? text =
      if p.places ≤ Decimal.places then
        Decimal.ofScaled? (signed p.negative (p.units * 10 ^ (Decimal.places - p.places)))
      else none := by
  have hunits : digitsValue (p.whole ++ dropTrailing '0' p.fraction) = p.units :=
    digitsValue_eq p.allDigits_dropTrailing
  have hwhole := hp.whole
  have hfraction := hp.fraction
  unfold unsigned at hwhole hfraction
  simp only [Decimal.parse?, hp.sign, hwhole, hfraction, p.hasDigits, if_true]
  simp only [Decimal.ofDigits?, hunits]
  rfl

/-- A decimal is read as the number that it denotes, if that can be held, and as no other one. -/
theorem DecimalForm.Of.parse?_eq_some_iff {p : DecimalForm} {text : List Char} (hp : p.Of text)
    {d : Decimal} : Decimal.parse? text = some d ↔ d.toRat = p.value := by
  have hscaled : p.places ≤ Decimal.places →
      p.value = (signed p.negative (p.units * 10 ^ (Decimal.places - p.places)) : ℤ) /
        10 ^ Decimal.places := by
    intro hle
    have hpow : (10 : ℚ) ^ Decimal.places = 10 ^ p.places * 10 ^ (Decimal.places - p.places) := by
      rw [← pow_add, Nat.add_sub_cancel' hle]
    rw [p.value_eq, hpow]
    unfold signed
    split
    · push_cast
      field_simp
    · push_cast
      field_simp
  rw [hp.parse?_eq, toRat_eq]
  constructor
  · intro h
    split at h
    · rename_i hle
      unfold Decimal.ofScaled? at h
      split at h
      · rw [hscaled hle, ← Option.some.inj h]
      · cases h
    · cases h
  · intro h
    have hle : p.places ≤ Decimal.places := by
      apply p.isLeast_places.2
      exact ⟨d.scaled, by rw [← h]; field_simp⟩
    rw [hscaled hle] at h
    field_simp at h
    have h : d.scaled = signed p.negative (p.units * 10 ^ (Decimal.places - p.places)) := by
      exact_mod_cast h
    rw [if_pos hle, ← h]
    exact dif_pos ⟨d.lower, d.upper⟩

/-- A rational number can be held as a decimal. -/
def Representable (q : ℚ) : Prop :=
  ∃ k : ℤ, -2 ^ 127 ≤ k ∧ k < 2 ^ 127 ∧ q = k / 10 ^ 18

/-- A number can be held as a decimal if and only if some decimal has it as its value. -/
theorem representable_iff {q : ℚ} : Representable q ↔ ∃ d : Decimal, d.toRat = q := by
  have hbound : (twoTo 127 : ℤ) = 2 ^ 127 := by norm_num [twoTo]
  constructor
  · rintro ⟨k, hlower, hupper, rfl⟩
    exact ⟨⟨k, by rw [hbound]; exact hlower, by rw [hbound]; exact hupper⟩, toRat_eq _⟩
  · rintro ⟨d, rfl⟩
    have hlower := d.lower
    have hupper := d.upper
    rw [hbound] at hlower hupper
    exact ⟨d.scaled, hlower, hupper, toRat_eq d⟩

/-- A decimal that denotes a number is read as this number or not at all. -/
theorem DenotesDecimal.parse?_eq_some_iff {text : List Char} {q : ℚ} (h : DenotesDecimal text q)
    {d : Decimal} : Decimal.parse? text = some d ↔ d.toRat = q := by
  obtain ⟨p, hp⟩ := exists_form h.isDecimal
  rw [hp.parse?_eq_some_iff, (hp.denotes_iff h.isDecimal).1 h]

/-- A decimal that denotes a number is read if the number can be held. -/
theorem DenotesDecimal.parse?_isSome_iff {text : List Char} {q : ℚ} (h : DenotesDecimal text q) :
    (Decimal.parse? text).isSome = true ↔ Representable q := by
  rw [representable_iff, Option.isSome_iff_exists]
  exact exists_congr fun d => h.parse?_eq_some_iff

/-! ## Literals -/

/-- The datatypes of integers and decimals. -/
def exactNames : List String :=
  ["integer", "decimal", "nonPositiveInteger", "negativeInteger", "long", "int", "short", "byte",
    "nonNegativeInteger", "unsignedLong", "unsignedInt", "unsignedShort", "unsignedByte",
    "positiveInteger"]

/-- A datatype of integers or decimals. -/
def IsExact (iri : Iri) : Prop := ∃ name ∈ exactNames, iri = Vocabulary.xsd name

/-- A valid literal of a datatype of integers or decimals, and the number that its text denotes. -/
structure HasValue (l : Literal) (q : ℚ) : Prop where
  datatype : IsExact l.datatype
  valid : isValid l = true
  denotes : DenotesDecimal l.lexical.toList q

/-- The families of the datatypes of integers and decimals. -/
def Family.Exact (family : Family) : Prop := family = .integer ∨ family = .decimal

instance : DecidablePred Family.Exact := fun _ => inferInstanceAs (Decidable (_ ∨ _))

/-- The datatypes of integers and decimals are the numeric datatypes of the exact families. -/
theorem isExact_iff {iri : Iri} :
    IsExact iri ↔ ∃ d, numericDatatype? iri = some d ∧ d.family.Exact := by
  have hnames : ∀ name ∈ exactNames, ∃ d ∈ numericDatatypes,
      d.iri = Vocabulary.xsd name ∧ d.family.Exact := by decide
  have hdatatypes : ∀ d ∈ numericDatatypes, d.family.Exact →
      ∃ name ∈ exactNames, d.iri = Vocabulary.xsd name := by decide
  constructor
  · rintro ⟨name, hname, rfl⟩
    obtain ⟨d, hd, hiri, hexact⟩ := hnames name hname
    exact ⟨d, hiri ▸ numericDatatype?_of_mem hd, hexact⟩
  · rintro ⟨d, hd, hexact⟩
    have hmem : d ∈ numericDatatypes := List.mem_of_find?_eq_some hd
    have hiri : d.iri = iri := by simpa using List.find?_some hd
    obtain ⟨name, hname, heq⟩ := hdatatypes d hmem hexact
    exact ⟨name, hname, hiri ▸ heq⟩

/-- Every integer is a decimal. -/
theorem isDecimal_of_isInteger {text : List Char} (h : isInteger text = true) :
    isDecimal text = true := by
  rw [isDecimal_iff, Grammar.mem_decimal]
  exact .inr h

/-- The lexical forms of integers and decimals are decimals. -/
theorem NumericDatatype.isDecimal_of_isLexical {d : NumericDatatype} (hd : d.family.Exact)
    {text : List Char} (h : d.isLexical text = true) : isDecimal text = true := by
  unfold NumericDatatype.isLexical at h
  rcases hd with hd | hd
  · rw [hd] at h
    exact isDecimal_of_isInteger (Bool.and_eq_true_iff.1 h).1
  · rw [hd] at h
    exact h

/-- The text of a valid literal is a lexical form of its datatype. -/
theorem isLexical_of_isValid {l : Literal} {d : NumericDatatype}
    (hd : numericDatatype? l.datatype = some d) (h : isValid l = true) :
    d.isLexical l.lexical.toList = true := by
  rw [isValid, hd] at h
  exact h

/-- A valid literal of such a datatype denotes a number, and only one. -/
theorem existsUnique_hasValue {l : Literal} (hexact : IsExact l.datatype)
    (hvalid : isValid l = true) : ∃! q, HasValue l q := by
  obtain ⟨d, hd, hfamily⟩ := isExact_iff.1 hexact
  have hlexical := isLexical_of_isValid hd hvalid
  have hdecimal := isDecimal_iff.1 (d.isDecimal_of_isLexical hfamily hlexical)
  obtain ⟨q, hq, hunique⟩ := mem_decimal_iff_denotes.1 hdecimal
  exact ⟨q, ⟨hexact, hvalid, hq⟩, fun q' hq' => hunique q' hq'.denotes⟩

end ShEx.Datatype
