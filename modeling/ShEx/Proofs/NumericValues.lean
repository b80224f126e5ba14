import ShEx.Proofs.DecimalValues
import ShEx.Proofs.Rounding

/-!
# The values of numbers

A number with an exponent denotes the decimal in front of the exponent times a power of ten
(`DenotesNumber`).  What reads it takes all its digits for one integer and the places behind the
point off the exponent, and rounds once, so that it gives the floating point number nearest to the
number that is denoted (`DenotesNumber.binary_parse?_eq`), and every word of the grammar of doubles
is read (`isSome_binary_parse?`).

So the two ways in which numbers come in, literals and bounds, accept the words of the grammars and
nothing else, and give the decimal of the same value if there is one (`parseNumeric_eq`,
`numericLiteral_parse?_eq_decimal_iff`).
-/

set_option autoImplicit false

namespace ShEx.Datatype

open ShEx.Number ShEx.Rdf

/-! ## What numbers with exponents denote -/

/-- A number, possibly with an exponent, denotes a rational number. -/
inductive DenotesNumber : List Char → ℚ → Prop
  | plain {text : List Char} {q : ℚ} (h : DenotesDecimal text q) : DenotesNumber text q
  | scaled {mantissa exponent : List Char} {mark : Char} {q : ℚ} {e : ℤ}
      (hmark : isExponentMark mark = true) (h : DenotesDecimal mantissa q)
      (he : Denotes exponent e) : DenotesNumber (mantissa ++ mark :: exponent) (q * 10 ^ e)

/-- A sign stays in front when something is put behind the text. -/
theorem splitSign_append {a : List Char} (ha : a ≠ []) (b : List Char) :
    splitSign (a ++ b) = ((splitSign a).1, unsigned a ++ b) := by
  cases a with
  | nil => exact absurd rfl ha
  | cons c w =>
    by_cases hminus : c = '-'
    · subst hminus
      rfl
    · by_cases hplus : c = '+'
      · subst hplus
        rfl
      · have hnone : ∀ v, splitSign (c :: v) = (false, c :: v) := by
          intro v
          rcases splitSign_cases (c :: v) with ⟨rest, h⟩ | ⟨rest, h⟩ | h
          · exact absurd (List.cons.inj h).1 hminus
          · exact absurd (List.cons.inj h).1 hplus
          · exact h
        rw [unsigned, hnone w, List.cons_append, hnone (w ++ b)]

/-- Behind its sign a decimal begins with a digit or the point. -/
theorem exists_head_of_isDecimal {text : List Char} (h : isDecimal text = true) :
    ∃ c rest, unsigned text = c :: rest ∧ (c.isDigit = true ∨ c = '.') := by
  rw [isDecimal_iff, Grammar.mem_decimal] at h
  rcases h with ⟨whole, fraction, heq, hwhole, -⟩ | h
  · cases whole with
    | nil => exact ⟨'.', fraction, heq, .inr rfl⟩
    | cons c rest =>
      exact ⟨c, rest ++ '.' :: fraction, heq, .inl (isDigit_of_allDigits hwhole List.mem_cons_self)⟩
  · cases hv : unsigned text with
    | nil =>
      rw [hv] at h
      cases h
    | cons c rest =>
      rw [hv] at h
      exact ⟨c, rest, rfl, .inl (isDigits_cons.1 h).1⟩

/-- What begins with a digit or the point is not the name of a number. -/
theorem named?_eq_none {c : Char} (hc : c.isDigit = true ∨ c = '.') (negative : Bool)
    (rest : List Char) : Binary.named? negative ((c :: rest).map Char.toLower) = none := by
  have hlower : c.toLower ≠ 'i' ∧ c.toLower ≠ 'n' := by
    rcases hc with hc | rfl
    · have hsame : Grammar.figures.map Char.toLower = Grammar.figures := rfl
      have hfigure : c.toLower ∈ Grammar.figures :=
        hsame ▸ List.mem_map_of_mem (Grammar.mem_figures.2 hc)
      have hi : 'i' ∉ Grammar.figures := by decide
      have hn : 'n' ∉ Grammar.figures := by decide
      exact ⟨ne_of_mem_of_not_mem hfigure hi, ne_of_mem_of_not_mem hfigure hn⟩
    · decide
  have hne : ∀ (d : Char) (name : List Char), c.toLower ≠ d →
      (c :: rest).map Char.toLower ≠ d :: name := by
    intro d name hd heq
    exact hd (List.cons.inj heq).1
  have hinf := hne 'i' ['n', 'f'] hlower.1
  have hinfinity := hne 'i' ['n', 'f', 'i', 'n', 'i', 't', 'y'] hlower.1
  have hnan := hne 'n' ['a', 'n'] hlower.2
  have hboth : (decide ((c :: rest).map Char.toLower = "inf".toList) ||
      decide ((c :: rest).map Char.toLower = "infinity".toList)) = false := by
    rw [Bool.or_eq_false_iff]
    exact ⟨decide_eq_false hinf, decide_eq_false hinfinity⟩
  unfold Binary.named?
  rw [hboth, if_neg Bool.false_ne_true]
  exact if_neg hnan

/-- A decimal with something behind it is read by the parts of the decimal and the exponent. -/
theorem DecimalForm.Of.binary_parse?_eq {p : DecimalForm} {mantissa : List Char}
    (hp : p.Of mantissa) (hdecimal : isDecimal mantissa = true) {f : Format} (hf : f.Proper)
    {suffix : List Char} {power : Option (List Char)} {e : ℤ}
    (hsplit : splitAtFirst isExponentMark (unsigned mantissa ++ suffix) =
      (unsigned mantissa, power))
    (hpower : Binary.exponent? power = some e) :
    Binary.parse? f (mantissa ++ suffix) = some (f.nearest p.negative (p.size * 10 ^ e)) := by
  obtain ⟨c, rest, hbody, hc⟩ := exists_head_of_isDecimal hdecimal
  have hne : mantissa ≠ [] := by
    rintro rfl
    cases hbody
  have hsign : splitSign (mantissa ++ suffix) = (p.negative, unsigned mantissa ++ suffix) := by
    rw [splitSign_append hne, hp.sign]
  have hnamed :
      Binary.named? p.negative ((unsigned mantissa ++ suffix).map Char.toLower) = none := by
    rw [hbody, List.cons_append]
    exact named?_eq_none hc _ _
  have hsplit : splitAtFirst (fun c => c = 'e' || c = 'E') (unsigned mantissa ++ suffix) =
      (unsigned mantissa, power) := hsplit
  have hvalue : (p.digits : ℚ) * 10 ^ (e - p.fraction.length) = p.size * 10 ^ e := by
    rw [DecimalForm.size, zpow_sub₀ (by norm_num), zpow_natCast]
    ring
  simp only [Binary.parse?, hsign, hnamed, hsplit, hp.whole, hp.fraction, hpower, p.hasDigits,
    if_true, p.digitsValue_eq_digits, Format.ofDecimal_eq hf, hvalue]

/-- What stands behind the sign of a text stands in it. -/
theorem mem_of_mem_unsigned {c : Char} {text : List Char} (h : c ∈ unsigned text) : c ∈ text := by
  rcases splitSign_cases text with ⟨rest, rfl⟩ | ⟨rest, rfl⟩ | hnone
  · exact List.mem_cons_of_mem _ h
  · exact List.mem_cons_of_mem _ h
  · rwa [unsigned, hnone] at h

/-- An exponent is read as the integer that it denotes. -/
theorem exponent?_eq {exponent : List Char} {e : ℤ} (h : Denotes exponent e) :
    Binary.exponent? (some exponent) = some e := by
  obtain ⟨hinteger, rfl⟩ := denotes_iff.1 h
  have hdigits : (!(unsigned exponent).isEmpty && (unsigned exponent).all Char.isDigit) = true :=
    hinteger
  unfold unsigned at hdigits
  simp only [Binary.exponent?, hdigits, if_true]
  rfl

/-- A decimal without an exponent is read as the nearest floating point number. -/
theorem DecimalForm.Of.binary_parse?_plain {p : DecimalForm} {text : List Char} (hp : p.Of text)
    (hdecimal : isDecimal text = true) {f : Format} (hf : f.Proper) :
    Binary.parse? f text = some (f.nearest p.negative p.size) := by
  have hmarks : ∀ c ∈ unsigned text, isExponentMark c = false := by
    intro c hc
    exact not_isExponentMark hdecimal c (mem_of_mem_unsigned hc)
  have hsplit : splitAtFirst isExponentMark (unsigned text ++ []) = (unsigned text, none) := by
    rw [List.append_nil]
    exact splitAtFirst_of_forall hmarks
  have h := hp.binary_parse?_eq hdecimal hf hsplit (e := 0) rfl
  rw [List.append_nil, zpow_zero, mul_one] at h
  exact h

/-- The sign of a number that is not zero. -/
theorem DecimalForm.negative_eq {p : DecimalForm} (h : p.value ≠ 0) :
    p.negative = decide (p.value < 0) := by
  have hsize : 0 < p.size := by
    rw [← p.abs_value]
    exact abs_pos.2 h
  cases hsign : p.negative with
  | true =>
    have hvalue : p.value = -p.size := if_pos hsign
    rw [hvalue]
    exact (decide_eq_true (neg_lt_zero.2 hsize)).symm
  | false =>
    have hvalue : p.value = p.size := if_neg (hsign ▸ Bool.false_ne_true)
    rw [hvalue]
    exact (decide_eq_false hsize.le.not_gt).symm

/-- A number is read as the floating point number nearest to what it denotes, with its sign. -/
theorem DenotesNumber.binary_parse?_eq {text : List Char} {q : ℚ} (h : DenotesNumber text q)
    {f : Format} (hf : f.Proper) :
    ∃ negative, Binary.parse? f text = some (f.nearest negative |q|) ∧
      (q ≠ 0 → negative = decide (q < 0)) := by
  cases h with
  | plain h =>
    have hdecimal := h.isDecimal
    obtain ⟨p, hp⟩ := exists_form hdecimal
    obtain rfl := (hp.denotes_iff hdecimal).1 h
    refine ⟨p.negative, ?_, fun hne => p.negative_eq hne⟩
    rw [hp.binary_parse?_plain hdecimal hf, p.abs_value]
  | @scaled mantissa exponent mark q e hmark h he =>
    have hdecimal := h.isDecimal
    obtain ⟨p, hp⟩ := exists_form hdecimal
    obtain rfl := (hp.denotes_iff hdecimal).1 h
    have hten := ten_zpow_pos e
    have hmarks : ∀ c ∈ unsigned mantissa, isExponentMark c = false := by
      intro c hc
      exact not_isExponentMark hdecimal c (mem_of_mem_unsigned hc)
    have hsplit : splitAtFirst isExponentMark (unsigned mantissa ++ mark :: exponent) =
        (unsigned mantissa, some exponent) := splitAtFirst_append hmarks hmark
    refine ⟨p.negative, ?_, fun hne => ?_⟩
    · rw [hp.binary_parse?_eq hdecimal hf hsplit (exponent?_eq he), abs_mul, p.abs_value,
        abs_of_pos hten]
    · rw [p.negative_eq (left_ne_zero_of_mul hne), decide_eq_decide]
      constructor
      · intro hneg
        exact mul_neg_of_neg_of_pos hneg hten
      · intro hneg
        by_contra hnot
        exact hneg.not_ge (mul_nonneg (not_lt.1 hnot) hten.le)

/-- A word of the grammar of doubles is the name of a number or denotes one. -/
theorem isDouble_iff_denotes {text : List Char} :
    isDouble text = true ↔
      (text = "NaN".toList ∨ text = "INF".toList ∨ text = "-INF".toList) ∨
        ∃ q, DenotesNumber text q := by
  have hspecial : specialNumbers.any (fun name => decide (name.toList = text)) = true ↔
      text = "NaN".toList ∨ text = "INF".toList ∨ text = "-INF".toList := by
    simp only [specialNumbers, List.any_cons, List.any_nil, Bool.or_false, Bool.or_eq_true_iff,
      decide_eq_true_eq]
    exact or_congr eq_comm (or_congr eq_comm eq_comm)
  rw [isDouble, Bool.or_eq_true_iff, hspecial]
  refine or_congr_right ?_
  constructor
  · intro h
    rcases exists_first_separator isExponentMark text with ⟨a, c, b, rfl, ha, hc⟩ | hnone
    · rw [splitAtFirst_append ha hc] at h
      obtain ⟨hmantissa, hexponent⟩ := Bool.and_eq_true_iff.1 h
      obtain ⟨q, hq, -⟩ := mem_decimal_iff_denotes.1 (isDecimal_iff.1 hmantissa)
      exact ⟨_, .scaled hc hq (denotes_iff.2 ⟨hexponent, rfl⟩)⟩
    · rw [splitAtFirst_of_forall hnone] at h
      obtain ⟨q, hq, -⟩ := mem_decimal_iff_denotes.1 (isDecimal_iff.1 h)
      exact ⟨q, .plain hq⟩
  · rintro ⟨q, hq⟩
    cases hq with
    | plain hq =>
      rw [splitAtFirst_of_forall (not_isExponentMark hq.isDecimal)]
      exact hq.isDecimal
    | scaled hmark hq he =>
      rw [splitAtFirst_append (not_isExponentMark hq.isDecimal) hmark]
      exact Bool.and_eq_true_iff.2 ⟨hq.isDecimal, (denotes_iff.1 he).1⟩

/-- A text that is a decimal denotes the same number with and without regard to exponents. -/
theorem DenotesNumber.eq_of_denotesDecimal {text : List Char} {q q' : ℚ} (h : DenotesNumber text q)
    (h' : DenotesDecimal text q') : q = q' := by
  cases h with
  | plain h => exact h.unique h'
  | scaled hmark h he =>
    have hmark' := not_isExponentMark h'.isDecimal _ (List.mem_append_right _ List.mem_cons_self)
    rw [hmark] at hmark'
    cases hmark'

/-- A text denotes one number at most. -/
theorem DenotesNumber.unique {text : List Char} {q q' : ℚ} (h : DenotesNumber text q)
    (h' : DenotesNumber text q') : q = q' := by
  cases h with
  | plain h => exact (h'.eq_of_denotesDecimal h).symm
  | @scaled mantissa exponent mark q e hmark h he =>
    generalize htext : mantissa ++ mark :: exponent = text at h'
    cases h' with
    | plain h' =>
      rw [← htext] at h'
      exact (DenotesNumber.scaled hmark h he).eq_of_denotesDecimal h'
    | @scaled mantissa' exponent' mark' q' e' hmark' h' he' =>
      have hsplit := congrArg (splitAtFirst isExponentMark) htext
      rw [splitAtFirst_append (not_isExponentMark h.isDecimal) hmark,
        splitAtFirst_append (not_isExponentMark h'.isDecimal) hmark'] at hsplit
      obtain ⟨rfl, hexponent⟩ := Prod.mk.inj hsplit
      obtain rfl := Option.some.inj hexponent
      rw [h.unique h', (denotes_iff.1 he).2, (denotes_iff.1 he').2]

/-- A decimal is a double without an exponent. -/
theorem isDouble_of_isDecimal {text : List Char} (h : isDecimal text = true) :
    isDouble text = true := by
  obtain ⟨q, hq, -⟩ := mem_decimal_iff_denotes.1 (isDecimal_iff.1 h)
  exact isDouble_iff_denotes.2 (.inr ⟨q, .plain hq⟩)

/-- Every word of the grammar of doubles is read. -/
theorem isSome_binary_parse? {text : List Char} (h : isDouble text = true) {f : Format}
    (hf : f.Proper) : (Binary.parse? f text).isSome = true := by
  rcases isDouble_iff_denotes.1 h with (rfl | rfl | rfl) | ⟨q, hq⟩
  · rfl
  · rfl
  · rfl
  · obtain ⟨negative, heq, -⟩ := hq.binary_parse?_eq hf
    rw [heq]
    rfl

/-! ## Literals -/

/-- What a literal of a numeric datatype is parsed as. -/
theorem parseNumeric_eq {l : Literal} {d : NumericDatatype}
    (hd : numericDatatype? l.datatype = some d) :
    parseNumeric l = if isValid l then d.value? l.lexical.toList else none := by
  simp only [parseNumeric, isValid, hd]

/-- A text of these datatypes is read as a decimal if it can be held as one, and else as a
double. -/
theorem NumericDatatype.value?_eq {d : NumericDatatype} (h : d.family.Exact) (text : List Char) :
    d.value? text = match Decimal.parse? text with
      | some n => some (.decimal n)
      | none => (Binary.parse? .double text).map .double := by
  obtain ⟨iri, family, min, max⟩ := d
  rcases h with h | h
  · obtain rfl : family = .integer := h
    rfl
  · obtain rfl : family = .decimal := h
    rfl

/-- A lexical form of a numeric datatype has a value. -/
theorem NumericDatatype.isSome_value? {d : NumericDatatype} {text : List Char}
    (h : d.isLexical text = true) : (d.value? text).isSome = true := by
  have hfallback : d.family.Exact → (d.value? text).isSome = true := by
    intro hexact
    have hdouble := isDouble_of_isDecimal (d.isDecimal_of_isLexical hexact h)
    rw [d.value?_eq hexact]
    split
    · rfl
    · rw [Option.isSome_map]
      exact isSome_binary_parse? hdouble Format.proper_double
  cases hfamily : d.family with
  | integer => exact hfallback (.inl hfamily)
  | decimal => exact hfallback (.inr hfamily)
  | float =>
    simp only [NumericDatatype.isLexical, hfamily] at h
    simp only [NumericDatatype.value?, hfamily, Option.isSome_map]
    exact isSome_binary_parse? h Format.proper_single
  | double =>
    simp only [NumericDatatype.isLexical, hfamily] at h
    simp only [NumericDatatype.value?, hfamily, Option.isSome_map]
    exact isSome_binary_parse? h Format.proper_double

/-- A literal is parsed if it is a valid one of a numeric datatype. -/
theorem parseNumeric_isSome_iff (l : Literal) :
    (parseNumeric l).isSome = true ↔ isNumeric l.datatype = true ∧ isValid l = true := by
  cases hd : numericDatatype? l.datatype with
  | none =>
    have hnone : parseNumeric l = none := by simp only [parseNumeric, hd]
    have hnumeric : isNumeric l.datatype = false := by rw [isNumeric, hd]; rfl
    rw [hnone, hnumeric]
    simp
  | some d =>
    have hnumeric : isNumeric l.datatype = true := by rw [isNumeric, hd]; rfl
    have hlexical : isValid l = d.isLexical l.lexical.toList := by rw [isValid, hd]
    rw [parseNumeric_eq hd, hnumeric]
    constructor
    · intro h
      by_cases hvalid : isValid l = true
      · exact ⟨rfl, hvalid⟩
      · rw [if_neg hvalid] at h
        cases h
    · rintro ⟨-, hvalid⟩
      rw [if_pos hvalid]
      exact d.isSome_value? (hlexical ▸ hvalid)

/-- The double for a number that cannot be held as a decimal. -/
def nearestDouble (q : ℚ) : Binary := Format.double.nearest (decide (q < 0)) |q|

/-- Zero can be held as a decimal. -/
theorem representable_zero : Representable 0 := ⟨0, by norm_num, by norm_num, by norm_num⟩

/-- An integer or a decimal is parsed as the decimal of its value if there is one, else as the
nearest double. -/
theorem HasValue.parseNumeric_eq {l : Literal} {q : ℚ} (h : HasValue l q) :
    (∀ n : Decimal, parseNumeric l = some (.decimal n) ↔ n.toRat = q) ∧
    (¬ Representable q → parseNumeric l = some (.double (nearestDouble q))) := by
  obtain ⟨d, hd, hexact⟩ := isExact_iff.1 h.datatype
  have hparse : parseNumeric l = match Decimal.parse? l.lexical.toList with
      | some n => some (.decimal n)
      | none => (Binary.parse? .double l.lexical.toList).map .double := by
    rw [ShEx.Datatype.parseNumeric_eq hd, if_pos h.valid, d.value?_eq hexact]
  have hiff := fun n => h.denotes.parse?_eq_some_iff (d := n)
  constructor
  · intro n
    rw [hparse, ← hiff n]
    cases hdecimal : Decimal.parse? l.lexical.toList with
    | some n' => simp
    | none => simp
  · intro hnot
    have hnone : Decimal.parse? l.lexical.toList = none := by
      rw [← Option.not_isSome_iff_eq_none, h.denotes.parse?_isSome_iff]
      exact hnot
    have hne : q ≠ 0 := by
      rintro rfl
      exact hnot representable_zero
    obtain ⟨negative, hbinary, hsign⟩ :=
      (DenotesNumber.plain h.denotes).binary_parse?_eq Format.proper_double
    rw [hparse, hnone, hbinary, hsign hne]
    rfl

/-! ## Bounds -/

/-- A text is read as a number if it follows the grammar of doubles. -/
theorem numericLiteral_parse?_isSome_iff (text : String) :
    (NumericLiteral.parse? text).isSome = true ↔ isDouble text.toList = true := by
  simp only [NumericLiteral.parse?]
  constructor
  · intro h
    by_contra hnot
    have hdecimal : ¬ isDecimal text.toList = true :=
      fun hdecimal => hnot (isDouble_of_isDecimal hdecimal)
    simp [hnot, hdecimal] at h
  · intro h
    split
    · rfl
    · rw [if_pos h, Option.isSome_map]
      exact isSome_binary_parse? h Format.proper_double

/-- A text is read as a decimal if it is one of the same value. -/
theorem numericLiteral_parse?_eq_decimal_iff (text : String) (n : Decimal) :
    NumericLiteral.parse? text = some (.decimal n) ↔ DenotesDecimal text.toList n.toRat := by
  -- What is read as a double is not a decimal, whatever its value is.
  have hdouble : (if isDouble text.toList = true then
      (Binary.parse? .double text.toList).map NumericLiteral.double else none) ≠
        some (.decimal n) := by
    split
    · simp
    · simp
  unfold NumericLiteral.parse?
  by_cases hdecimal : isDecimal text.toList = true
  · obtain ⟨q, hq, hunique⟩ := mem_decimal_iff_denotes.1 (isDecimal_iff.1 hdecimal)
    have hiff := fun n => hq.parse?_eq_some_iff (d := n)
    simp only [if_pos hdecimal]
    constructor
    · intro h
      cases hparse : Decimal.parse? text.toList with
      | none =>
        rw [hparse] at h
        exact absurd h hdouble
      | some n' =>
        rw [hparse] at h
        have hn : n' = n := by simpa using h
        rw [← hn, (hiff n').1 hparse]
        exact hq
    · intro h
      rw [(hiff n).2 (hunique _ h)]
  · simp only [if_neg hdecimal]
    constructor
    · intro h
      exact absurd h hdouble
    · intro h
      exact absurd h.isDecimal hdecimal

end ShEx.Datatype
