import Mathlib.Computability.RegularExpressions
import Mathlib.Data.Int.ConditionallyCompleteOrder
import Mathlib.Data.List.TakeWhile
import Mathlib.Data.Nat.Digits.Defs
import Mathlib.Order.Interval.Set.Basic
import ShEx.Datatype.Validity
import ShEx.Proofs.Correspondence

/-!
# The lexical forms of numbers

The grammars of integers, decimals and doubles are written down as regular expressions here, and
what an integer denotes as a sum of powers of ten; of both the datatypes are defined on paper.  What
decides whether a text is a number knows neither: it takes a sign away, splits at the first point or
exponent mark and looks at digits, and it compares an integer with bounds in 128 bits if it fits.

It accepts the words of the grammars, all of them and no others (`isInteger_iff`, `isDecimal_iff`,
`isDouble_iff`), and the words for integers within the bounds, however long
(`NumericDatatype.containsWritten_eq`).  So a literal of a numeric datatype is valid if and only if
its text is in the lexical space of the datatype (`isValid_iff_mem_lexicalSpace`).
-/

set_option autoImplicit false

namespace ShEx.Datatype

open ShEx.Number ShEx.Rdf
open RegularExpression (char)

/-- A text begins with a sign, or there is none to be taken away. -/
theorem splitSign_cases (text : List Char) :
    (∃ rest, text = '-' :: rest) ∨ (∃ rest, text = '+' :: rest) ∨
      splitSign text = (false, text) := by
  unfold splitSign
  split
  · exact .inl ⟨_, rfl⟩
  · exact .inr (.inl ⟨_, rfl⟩)
  · exact .inr (.inr rfl)

/-- Digits in a row begin with a digit, and none but digits follow. -/
theorem isDigits_cons {c : Char} {w : List Char} :
    isDigits (c :: w) = true ↔ c.isDigit = true ∧ allDigits w = true := by
  simp [isDigits, allDigits]

/-! ## Grammars -/

namespace Grammar

/-- One of several characters. -/
def oneOf (cs : List Char) : RegularExpression Char := (cs.map char).foldr (· + ·) 0

/-- A text, character by character. -/
def word (text : String) : RegularExpression Char := (text.toList.map char).foldr (· * ·) 1

/-- The ten digits, each in the place of its value. -/
def figures : List Char := ['0', '1', '2', '3', '4', '5', '6', '7', '8', '9']

/-- `[0-9]` -/
def digit : RegularExpression Char := oneOf figures

/-- `[0-9]+` -/
def digits : RegularExpression Char := digit * digit.star

/-- `[+-]?` -/
def sign : RegularExpression Char := 1 + oneOf ['+', '-']

/-- `[+-]?[0-9]+` -/
def integer : RegularExpression Char := sign * digits

/-- `[0-9]*\.[0-9]+|[0-9]+` -/
def unsignedDecimal : RegularExpression Char := digit.star * char '.' * digits + digits

/-- `[+-]?([0-9]*\.[0-9]+|[0-9]+)` -/
def decimal : RegularExpression Char := sign * unsignedDecimal

/-- `[eE][+-]?[0-9]+` -/
def exponent : RegularExpression Char := oneOf ['e', 'E'] * integer

/-- A decimal with an optional exponent, or one of three words. -/
def double : RegularExpression Char :=
  decimal * (1 + exponent) + word "NaN" + word "INF" + word "-INF"

/-- The words of this expression are the single characters. -/
theorem mem_oneOf {cs w : List Char} : w ∈ (oneOf cs).matches' ↔ ∃ c ∈ cs, w = [c] := by
  induction cs with
  | nil => simp [oneOf]
  | cons c cs ih =>
    have hcons : w ∈ (oneOf (c :: cs)).matches' ↔ w = [c] ∨ w ∈ (oneOf cs).matches' := Iff.rfl
    rw [hcons, ih, List.exists_mem_cons_iff]

/-- The only word of this expression is the text. -/
theorem mem_word {text : String} {w : List Char} : w ∈ (word text).matches' ↔ w = text.toList := by
  have hletters : ∀ cs w : List Char,
      w ∈ ((cs.map char).foldr (· * ·) 1).matches' ↔ w = cs := by
    intro cs
    induction cs with
    | nil => exact fun w => Iff.rfl
    | cons c cs ih =>
      intro w
      have hcons : w ∈ (((c :: cs).map char).foldr (· * ·) 1).matches' ↔
          ∃ a ∈ (char c).matches', ∃ b ∈ ((cs.map char).foldr (· * ·) 1).matches', a ++ b = w :=
        Language.mem_mul
      rw [hcons]
      constructor
      · rintro ⟨a, rfl, b, hb, rfl⟩
        rw [(ih b).1 hb]
        rfl
      · rintro rfl
        exact ⟨[c], rfl, cs, (ih cs).2 rfl, rfl⟩
  exact hletters text.toList w

/-- The figures are the characters that count as digits. -/
theorem mem_figures {c : Char} : c ∈ figures ↔ c.isDigit = true := by
  constructor
  · have hall : figures.all Char.isDigit = true := by decide
    exact List.all_eq_true.1 hall c
  · intro h
    have hbounds : 48 ≤ c.toNat ∧ c.toNat ≤ 57 := by
      simpa [Char.isDigit, UInt32.le_iff_toNat_le] using h
    have hall : ∀ n, 48 ≤ n → n ≤ 57 → Char.ofNat n ∈ figures := by decide
    rw [← Char.ofNat_toNat c]
    exact hall c.toNat hbounds.1 hbounds.2

/-- The words for a digit are the digits. -/
theorem mem_digit {w : List Char} :
    w ∈ digit.matches' ↔ ∃ c : Char, c.isDigit = true ∧ w = [c] := by
  simp only [digit, mem_oneOf, mem_figures]

/-- The words for any number of digits are the texts of digits only. -/
theorem mem_digit_star {w : List Char} : w ∈ digit.star.matches' ↔ allDigits w = true := by
  rw [RegularExpression.matches'_star, Language.mem_kstar, allDigits, List.all_eq_true]
  constructor
  · rintro ⟨words, rfl, hwords⟩ c hc
    obtain ⟨w, hw, hc⟩ := List.mem_flatten.1 hc
    obtain ⟨d, hd, rfl⟩ := mem_digit.1 (hwords w hw)
    rw [List.mem_singleton.1 hc]
    exact hd
  · intro hall
    refine ⟨w.map fun c => [c], ?_, fun v hv => ?_⟩
    · rw [← List.flatMap_def, List.flatMap_singleton']
    · obtain ⟨c, hc, rfl⟩ := List.mem_map.1 hv
      exact mem_digit.2 ⟨c, hall c hc, rfl⟩

/-- The words for one or more digits are the texts of digits only that are not empty. -/
theorem mem_digits {w : List Char} : w ∈ digits.matches' ↔ isDigits w = true := by
  rw [digits, RegularExpression.matches'_mul, Language.mem_mul]
  constructor
  · rintro ⟨a, ha, b, hb, rfl⟩
    obtain ⟨c, hc, rfl⟩ := mem_digit.1 ha
    exact isDigits_cons.2 ⟨hc, mem_digit_star.1 hb⟩
  · intro h
    cases w with
    | nil => cases h
    | cons c w =>
      obtain ⟨hc, hw⟩ := isDigits_cons.1 h
      exact ⟨[c], mem_digit.2 ⟨c, hc, rfl⟩, w, mem_digit_star.2 hw, rfl⟩

/-- A sign may be put before words that begin with none. -/
theorem mem_sign_mul {P : RegularExpression Char} (hP : ∀ v ∈ P.matches', unsigned v = v)
    {w : List Char} : w ∈ (sign * P).matches' ↔ unsigned w ∈ P.matches' := by
  rw [RegularExpression.matches'_mul, Language.mem_mul]
  constructor
  · rintro ⟨a, ha, v, hv, rfl⟩
    rcases ha with rfl | ha
    · rw [List.nil_append, hP v hv]
      exact hv
    · obtain ⟨c, hc, rfl⟩ := mem_oneOf.1 ha
      rcases List.mem_cons.1 hc with rfl | hc
      · exact hv
      · rw [List.mem_singleton.1 hc]
        exact hv
  · intro hw
    rcases splitSign_cases w with ⟨v, rfl⟩ | ⟨v, rfl⟩ | hnone
    · exact ⟨['-'], .inr (mem_oneOf.2 ⟨'-', by simp, rfl⟩), v, hw, rfl⟩
    · exact ⟨['+'], .inr (mem_oneOf.2 ⟨'+', by simp, rfl⟩), v, hw, rfl⟩
    · rw [unsigned, hnone] at hw
      exact ⟨[], .inl rfl, w, hw, rfl⟩

end Grammar

/-! ## Splitting at a character -/

/-- A text is split at the first separator if there is one. -/
theorem splitAtFirst_append {separator : Char → Bool} {a b : List Char} {c : Char}
    (ha : ∀ x ∈ a, separator x = false) (hc : separator c = true) :
    splitAtFirst separator (a ++ c :: b) = (a, some b) := by
  have hkept : ∀ x ∈ a, (!separator x) = true := by simpa using ha
  rw [splitAtFirst, List.takeWhile_append_of_pos hkept, List.dropWhile_append_of_pos hkept]
  simp [hc]

/-- A text without separator is not split. -/
theorem splitAtFirst_of_forall {separator : Char → Bool} {w : List Char}
    (hw : ∀ x ∈ w, separator x = false) : splitAtFirst separator w = (w, none) := by
  have hkept : ∀ x ∈ w, (!separator x) = true := by simpa using hw
  rw [splitAtFirst, List.takeWhile_eq_self_iff.2 hkept, List.dropWhile_eq_nil_iff.2 hkept]
  rfl

/-- A text has a first separator, or none. -/
theorem exists_first_separator (separator : Char → Bool) (w : List Char) :
    (∃ a c b, w = a ++ c :: b ∧ (∀ x ∈ a, separator x = false) ∧ separator c = true) ∨
      ∀ x ∈ w, separator x = false := by
  induction w with
  | nil => exact .inr nofun
  | cons c w ih =>
    cases hc : separator c with
    | true => exact .inl ⟨[], c, w, rfl, nofun, hc⟩
    | false =>
      rcases ih with ⟨a, c', b, rfl, ha, hc'⟩ | hw
      · exact .inl ⟨c :: a, c', b, rfl, List.forall_mem_cons.2 ⟨hc, ha⟩, hc'⟩
      · exact .inr (List.forall_mem_cons.2 ⟨hc, hw⟩)

/-! ## Texts that are accepted -/

/-- A digit is no other character. -/
theorem isDigit_ne {c d : Char} (hc : c.isDigit = true) (hd : d.isDigit = false) : c ≠ d := by
  rintro rfl
  rw [hd] at hc
  cases hc

/-- A digit in front is no sign. -/
theorem splitSign_of_digit {c : Char} (hc : c.isDigit = true) (w : List Char) :
    splitSign (c :: w) = (false, c :: w) := by
  unfold splitSign
  split
  · next heq =>
    cases heq
    cases hc
  · next heq =>
    cases heq
    cases hc
  · rfl

/-- Digits have no sign in front. -/
theorem splitSign_of_isDigits {w : List Char} (h : isDigits w = true) :
    splitSign w = (false, w) := by
  cases w with
  | nil => rfl
  | cons c w => exact splitSign_of_digit (isDigits_cons.1 h).1 w

/-- The texts that are accepted as integers are the words of their grammar. -/
theorem isInteger_iff {w : List Char} : isInteger w = true ↔ w ∈ Grammar.integer.matches' := by
  have hunsigned : ∀ v ∈ Grammar.digits.matches', unsigned v = v :=
    fun v hv => congrArg Prod.snd (splitSign_of_isDigits (Grammar.mem_digits.1 hv))
  rw [Grammar.integer, Grammar.mem_sign_mul hunsigned, Grammar.mem_digits, isInteger]

/-- Each character in a text of digits is one. -/
theorem isDigit_of_allDigits {w : List Char} (h : allDigits w = true) {c : Char} (hc : c ∈ w) :
    c.isDigit = true :=
  List.all_eq_true.1 h c hc

/-- One or more digits are digits. -/
theorem allDigits_of_isDigits {w : List Char} (h : isDigits w = true) : allDigits w = true :=
  (Bool.and_eq_true_iff.1 h).2

/-- A point stands behind digits and in front of at least one, or there is none. -/
theorem Grammar.mem_unsignedDecimal {w : List Char} : w ∈ unsignedDecimal.matches' ↔
    (∃ a b, w = a ++ '.' :: b ∧ allDigits a = true ∧ isDigits b = true) ∨ isDigits w = true := by
  rw [unsignedDecimal, RegularExpression.matches'_add, Language.mem_add, mem_digits]
  refine or_congr_left ?_
  rw [RegularExpression.matches'_mul, RegularExpression.matches'_mul, Language.mem_mul]
  constructor
  · rintro ⟨-, ⟨a, ha, -, rfl, rfl⟩, b, hb, rfl⟩
    exact ⟨a, b, List.append_assoc _ _ _, mem_digit_star.1 ha, mem_digits.1 hb⟩
  · rintro ⟨a, b, rfl, ha, hb⟩
    refine ⟨a ++ ['.'], ⟨a, mem_digit_star.2 ha, ['.'], rfl, rfl⟩, b, mem_digits.2 hb, ?_⟩
    exact List.append_assoc _ _ _

/-- A decimal of the grammar without sign has none. -/
theorem Grammar.unsigned_of_unsignedDecimal {w : List Char} (h : w ∈ unsignedDecimal.matches') :
    unsigned w = w := by
  rcases mem_unsignedDecimal.1 h with ⟨a, b, rfl, ha, -⟩ | h
  · cases a with
    | nil => rfl
    | cons c a =>
      have hc := isDigit_of_allDigits ha List.mem_cons_self
      exact congrArg Prod.snd (splitSign_of_digit hc _)
  · exact congrArg Prod.snd (splitSign_of_isDigits h)

/-- A decimal is one without sign behind a sign that may be missing. -/
theorem Grammar.mem_decimal {w : List Char} : w ∈ decimal.matches' ↔
    (∃ a b, unsigned w = a ++ '.' :: b ∧ allDigits a = true ∧ isDigits b = true) ∨
      isDigits (unsigned w) = true := by
  rw [decimal, mem_sign_mul fun _ => unsigned_of_unsignedDecimal, mem_unsignedDecimal]

/-- The texts that are accepted as decimals are the words of their grammar, since a point is looked
for where it has to stand. -/
theorem isDecimal_iff {w : List Char} : isDecimal w = true ↔ w ∈ Grammar.decimal.matches' := by
  have hpoint : ∀ {v : List Char}, allDigits v = true → ∀ x ∈ v, decide (x = '.') = false := by
    intro v hv x hx
    exact decide_eq_false (isDigit_ne (isDigit_of_allDigits hv hx) rfl)
  rw [Grammar.mem_decimal, isDecimal]
  generalize unsigned w = v
  constructor
  · intro h
    rcases exists_first_separator (· = '.') v with ⟨a, c, b, rfl, ha, hc⟩ | hv
    · rw [splitAtFirst_append ha hc] at h
      rw [of_decide_eq_true hc]
      exact .inl ⟨a, b, rfl, Bool.and_eq_true_iff.1 h⟩
    · rw [splitAtFirst_of_forall hv] at h
      exact .inr h
  · rintro (⟨a, b, rfl, ha, hb⟩ | hv)
    · rw [splitAtFirst_append (hpoint ha) (decide_eq_true rfl)]
      exact Bool.and_eq_true_iff.2 ⟨ha, hb⟩
    · rw [splitAtFirst_of_forall (hpoint (allDigits_of_isDigits hv))]
      exact hv

/-- A character of a text is its sign or stands behind it. -/
theorem mem_unsigned {w : List Char} {x : Char} (hx : x ∈ w) :
    x = '-' ∨ x = '+' ∨ x ∈ unsigned w := by
  rcases splitSign_cases w with ⟨v, rfl⟩ | ⟨v, rfl⟩ | hnone
  · exact (List.mem_cons.1 hx).imp_right .inr
  · exact .inr (List.mem_cons.1 hx)
  · rw [unsigned, hnone]
    exact .inr (.inr hx)

/-- There is no exponent mark in a decimal. -/
theorem not_isExponentMark {w : List Char} (h : isDecimal w = true) :
    ∀ x ∈ w, isExponentMark x = false := by
  have hdigit : ∀ {v : List Char}, allDigits v = true → ∀ x ∈ v, isExponentMark x = false := by
    intro v hv x hx
    have hx := isDigit_of_allDigits hv hx
    rw [isExponentMark, decide_eq_false (isDigit_ne hx rfl), decide_eq_false (isDigit_ne hx rfl)]
    rfl
  rw [isDecimal_iff, Grammar.mem_decimal] at h
  intro x hx
  rcases mem_unsigned hx with rfl | rfl | hx
  · rfl
  · rfl
  rcases h with ⟨a, b, heq, ha, hb⟩ | h
  · rw [heq] at hx
    rcases List.mem_append.1 hx with hx | hx
    · exact hdigit ha x hx
    · rcases List.mem_cons.1 hx with rfl | hx
      · rfl
      · exact hdigit (allDigits_of_isDigits hb) x hx
  · exact hdigit (allDigits_of_isDigits h) x hx

/-- An exponent is split off at the first mark. -/
theorem splitExponent_iff {w : List Char} :
    (match splitAtFirst isExponentMark w with
      | (mantissa, some exponent) => isDecimal mantissa && isInteger exponent
      | (mantissa, none) => isDecimal mantissa) = true ↔
    w ∈ (Grammar.decimal * (1 + Grammar.exponent)).matches' := by
  rw [RegularExpression.matches'_mul, Language.mem_mul]
  constructor
  · intro h
    rcases exists_first_separator isExponentMark w with ⟨a, c, b, rfl, ha, hc⟩ | hw
    · rw [splitAtFirst_append ha hc] at h
      obtain ⟨hmantissa, hexponent⟩ := Bool.and_eq_true_iff.1 h
      have hmark : c ∈ ['e', 'E'] := by
        simpa [isExponentMark] using hc
      have hmem : c :: b ∈ Grammar.exponent.matches' :=
        ⟨[c], Grammar.mem_oneOf.2 ⟨c, hmark, rfl⟩, b, isInteger_iff.1 hexponent, rfl⟩
      exact ⟨a, isDecimal_iff.1 hmantissa, c :: b, .inr hmem, rfl⟩
    · rw [splitAtFirst_of_forall hw] at h
      exact ⟨w, isDecimal_iff.1 h, [], .inl rfl, List.append_nil w⟩
  · rintro ⟨a, ha, v, hv, rfl⟩
    have hmantissa := isDecimal_iff.2 ha
    rcases hv with rfl | hv
    · rw [List.append_nil, splitAtFirst_of_forall (not_isExponentMark hmantissa)]
      exact hmantissa
    · obtain ⟨m, hm, b, hb, rfl⟩ := Language.mem_mul.1 hv
      obtain ⟨c, hc, rfl⟩ := Grammar.mem_oneOf.1 hm
      have hmark : isExponentMark c = true := by
        simpa [isExponentMark] using hc
      have hsplit : splitAtFirst isExponentMark (a ++ c :: b) = (a, some b) :=
        splitAtFirst_append (not_isExponentMark hmantissa) hmark
      rw [List.singleton_append, hsplit]
      exact Bool.and_eq_true_iff.2 ⟨hmantissa, isInteger_iff.2 hb⟩

/-- The texts that are accepted as doubles are the words of their grammar, since an exponent mark is
looked for where it has to stand. -/
theorem isDouble_iff {w : List Char} : isDouble w = true ↔ w ∈ Grammar.double.matches' := by
  have hspecial : specialNumbers.any (fun name => decide (name.toList = w)) = true ↔
      w = "NaN".toList ∨ w = "INF".toList ∨ w = "-INF".toList := by
    simp only [specialNumbers, List.any_cons, List.any_nil, Bool.or_false, Bool.or_eq_true_iff,
      decide_eq_true_eq]
    exact or_congr eq_comm (or_congr eq_comm eq_comm)
  have hparts : w ∈ Grammar.double.matches' ↔
      ((w ∈ (Grammar.decimal * (1 + Grammar.exponent)).matches' ∨
        w ∈ (Grammar.word "NaN").matches') ∨ w ∈ (Grammar.word "INF").matches') ∨
          w ∈ (Grammar.word "-INF").matches' := Iff.rfl
  rw [hparts, @Grammar.mem_word "NaN", @Grammar.mem_word "INF", @Grammar.mem_word "-INF",
    ← splitExponent_iff, isDouble, Bool.or_eq_true_iff, hspecial]
  exact or_comm.trans (or_assoc.symm.trans or_assoc.symm)

/-! ## What integers denote -/

/-- The number that digits denote: the last one stands for ones, the one before it for tens, and so
on. -/
def decimalNumber (digits : List Char) : Nat :=
  Nat.ofDigits 10 (digits.reverse.map Grammar.figures.idxOf)

/-- A text denotes an integer: digits denote a number, and a sign in front of them says which of the
two integers of that size is meant. -/
inductive Denotes : List Char → Int → Prop
  | bare {digits : List Char} (h : digits ∈ Grammar.digits.matches') :
      Denotes digits (decimalNumber digits)
  | plus {digits : List Char} (h : digits ∈ Grammar.digits.matches') :
      Denotes ('+' :: digits) (decimalNumber digits)
  | minus {digits : List Char} (h : digits ∈ Grammar.digits.matches') :
      Denotes ('-' :: digits) (-decimalNumber digits)

/-- The place of a digit among the figures is its value. -/
theorem idxOf_figures {c : Char} (hc : c.isDigit = true) :
    Grammar.figures.idxOf c = digitValue c := by
  have hall : Grammar.figures.map Grammar.figures.idxOf = Grammar.figures.map digitValue := by
    decide
  exact List.map_inj_left.1 hall c (Grammar.mem_figures.2 hc)

/-- Reading digits from left to right gives the number that they denote. -/
theorem digitsValue_eq {digits : List Char} (h : allDigits digits = true) :
    digitsValue digits = decimalNumber digits := by
  induction digits using List.reverseRecOn with
  | nil => rfl
  | append_singleton digits c ih =>
    have hc : c.isDigit = true := isDigit_of_allDigits h (by simp)
    have hdigits : allDigits digits = true := by
      rw [allDigits, List.all_append, Bool.and_eq_true_iff] at h
      exact h.1
    have hvalue : digitsValue (digits ++ [c]) = 10 * digitsValue digits + digitValue c := by
      rw [digitsValue, List.foldl_append]
      rfl
    have hnumber : decimalNumber (digits ++ [c]) =
        Grammar.figures.idxOf c + 10 * decimalNumber digits := by
      rw [decimalNumber, List.reverse_append, List.reverse_singleton, List.singleton_append,
        List.map_cons, Nat.ofDigits_cons]
      rfl
    rw [hvalue, hnumber, ih hdigits, idxOf_figures hc, Nat.add_comm]

/-- A minus sign makes the number of the digits negative. -/
theorem integerValue_minus (digits : List Char) :
    integerValue ('-' :: digits) = -(digitsValue digits : Int) := rfl

/-- A plus sign changes nothing. -/
theorem integerValue_plus (digits : List Char) :
    integerValue ('+' :: digits) = digitsValue digits := rfl

/-- Without a sign, the digits say which number it is. -/
theorem integerValue_bare {text : List Char} (h : splitSign text = (false, text)) :
    integerValue text = digitsValue text := by
  unfold integerValue
  rw [h]
  rfl

/-- A text denotes an integer if it is one, and then the one that is read. -/
theorem denotes_iff {text : List Char} {n : Int} :
    Denotes text n ↔ isInteger text = true ∧ n = integerValue text := by
  have hread : ∀ {digits : List Char}, isDigits digits = true →
      digitsValue digits = decimalNumber digits :=
    fun h => digitsValue_eq (allDigits_of_isDigits h)
  constructor
  · intro h
    cases h with
    | bare h =>
      have hdigits := Grammar.mem_digits.1 h
      have hnone := splitSign_of_isDigits hdigits
      rw [isInteger, unsigned, integerValue_bare hnone, hread hdigits, hnone]
      exact ⟨hdigits, rfl⟩
    | plus h =>
      have hdigits := Grammar.mem_digits.1 h
      rw [integerValue_plus, hread hdigits]
      exact ⟨hdigits, rfl⟩
    | minus h =>
      have hdigits := Grammar.mem_digits.1 h
      rw [integerValue_minus, hread hdigits]
      exact ⟨hdigits, rfl⟩
  · rintro ⟨hinteger, rfl⟩
    rcases splitSign_cases text with ⟨digits, rfl⟩ | ⟨digits, rfl⟩ | hnone
    · have hdigits : isDigits digits = true := hinteger
      rw [integerValue_minus, hread hdigits]
      exact .minus (Grammar.mem_digits.2 hdigits)
    · have hdigits : isDigits digits = true := hinteger
      rw [integerValue_plus, hread hdigits]
      exact .plus (Grammar.mem_digits.2 hdigits)
    · have hdigits : isDigits text = true := by
        rwa [isInteger, unsigned, hnone] at hinteger
      rw [integerValue_bare hnone, hread hdigits]
      exact .bare (Grammar.mem_digits.2 hdigits)

/-- A text denotes one integer if it follows the grammar of integers, and none if it does not. -/
theorem mem_integer_iff_denotes {text : List Char} :
    text ∈ Grammar.integer.matches' ↔ ∃! n, Denotes text n := by
  rw [← isInteger_iff]
  constructor
  · intro h
    refine ⟨integerValue text, denotes_iff.2 ⟨h, rfl⟩, fun n hn => (denotes_iff.1 hn).2⟩
  · rintro ⟨n, hn, -⟩
    exact (denotes_iff.1 hn).1

/-! ## Bounds -/

namespace NumericDatatype

/-- The bounds of a datatype fit in 128 bits. -/
def Narrow (d : NumericDatatype) : Prop :=
  ∀ bound, bound ∈ d.min ∨ bound ∈ d.max → -(twoTo 127 : Int) ≤ bound ∧ bound < twoTo 127

/-- An integer is in range if it is on the right side of the bounds that there are. -/
theorem contains_iff {d : NumericDatatype} {n : Int} : d.contains n = true ↔
    (∀ bound ∈ d.min, bound ≤ n) ∧ ∀ bound ∈ d.max, n ≤ bound := by
  obtain ⟨iri, family, lower, upper⟩ := d
  cases lower <;> cases upper <;> simp [contains]

/-- Without a minus sign a text does not denote less than zero. -/
theorem integerValue_nonneg {text : List Char} (h : text.head? ≠ some '-') :
    0 ≤ integerValue text := by
  rcases splitSign_cases text with ⟨rest, rfl⟩ | ⟨rest, rfl⟩ | hnone
  · exact absurd rfl h
  · rw [integerValue_plus]
    exact Int.natCast_nonneg _
  · rw [integerValue_bare hnone]
    exact Int.natCast_nonneg _

/-- With a minus sign a text does not denote more than zero. -/
theorem integerValue_nonpos {text : List Char} (h : text.head? = some '-') :
    integerValue text ≤ 0 := by
  obtain ⟨rest, rfl⟩ := List.head?_eq_some_iff.1 h
  rw [integerValue_minus]
  exact Int.neg_nonpos_of_nonneg (Int.natCast_nonneg _)

/-- A power of two is not zero. -/
theorem twoTo_pos (k : Nat) : 0 < twoTo k := Nat.two_pow_pos k

/-- An integer below everything that fits in 128 bits is within the bounds if there is none
below. -/
theorem contains_below {d : NumericDatatype} (hd : d.Narrow) {n : Int}
    (hn : n < -(twoTo 127 : Int)) : d.contains n = d.min.isNone := by
  have hpos := twoTo_pos 127
  rw [Bool.eq_iff_iff, contains_iff, Option.isNone_iff_eq_none]
  constructor
  · rintro ⟨hmin, -⟩
    by_contra hsome
    obtain ⟨bound, hbound⟩ := Option.ne_none_iff_exists'.1 hsome
    have hle := (hd bound (.inl hbound)).1
    have hcontains := hmin bound hbound
    omega
  · intro hnone
    constructor
    · rw [hnone]
      nofun
    · intro bound hbound
      have hle := (hd bound (.inr hbound)).1
      omega

/-- An integer above everything that fits in 128 bits is within the bounds if there is none
above. -/
theorem contains_above {d : NumericDatatype} (hd : d.Narrow) {n : Int}
    (hn : (twoTo 127 : Int) ≤ n) : d.contains n = d.max.isNone := by
  rw [Bool.eq_iff_iff, contains_iff, Option.isNone_iff_eq_none]
  constructor
  · rintro ⟨-, hmax⟩
    by_contra hsome
    obtain ⟨bound, hbound⟩ := Option.ne_none_iff_exists'.1 hsome
    have hlt := (hd bound (.inr hbound)).2
    have hcontains := hmax bound hbound
    omega
  · intro hnone
    constructor
    · intro bound hbound
      have hlt := (hd bound (.inl hbound)).2
      omega
    · rw [hnone]
      nofun

/-- The sign is enough for an integer that does not fit in 128 bits: it is beyond every bound. -/
theorem containsWritten_eq {d : NumericDatatype} (hd : d.Narrow) (text : List Char) :
    d.containsWritten text = d.contains (integerValue text) := by
  have hpos := twoTo_pos 127
  rw [containsWritten, wideInteger?]
  by_cases hfits : -(twoTo 127 : Int) ≤ integerValue text ∧ integerValue text < twoTo 127
  · rw [if_pos hfits]
  rw [if_neg hfits]
  by_cases hminus : text.head? = some '-'
  · have hle := integerValue_nonpos hminus
    have hbelow : integerValue text < -(twoTo 127 : Int) := by omega
    rw [if_pos hminus, contains_below hd hbelow]
  · have hle := integerValue_nonneg hminus
    have habove : (twoTo 127 : Int) ≤ integerValue text := by omega
    rw [if_neg hminus, contains_above hd habove]

end NumericDatatype

/-! ## Lexical spaces -/

/-- The integers in a range, as they are written. -/
def integersIn (range : Set Int) : Language Char :=
  {text | text ∈ Grammar.integer.matches' ∧ ∃ n ∈ range, Denotes text n}

/-- The numeric datatypes of XML Schema, and the texts that each of them admits. -/
def lexicalSpaces : List (String × Language Char) :=
  [("integer", integersIn Set.univ),
    ("decimal", Grammar.decimal.matches'),
    ("float", Grammar.double.matches'),
    ("double", Grammar.double.matches'),
    ("nonPositiveInteger", integersIn (Set.Iic 0)),
    ("negativeInteger", integersIn (Set.Iic (-1))),
    ("long", integersIn (Set.Ico (-2 ^ 63) (2 ^ 63))),
    ("int", integersIn (Set.Ico (-2 ^ 31) (2 ^ 31))),
    ("short", integersIn (Set.Ico (-2 ^ 15) (2 ^ 15))),
    ("byte", integersIn (Set.Ico (-2 ^ 7) (2 ^ 7))),
    ("nonNegativeInteger", integersIn (Set.Ici 0)),
    ("unsignedLong", integersIn (Set.Ico 0 (2 ^ 64))),
    ("unsignedInt", integersIn (Set.Ico 0 (2 ^ 32))),
    ("unsignedShort", integersIn (Set.Ico 0 (2 ^ 16))),
    ("unsignedByte", integersIn (Set.Ico 0 (2 ^ 8))),
    ("positiveInteger", integersIn (Set.Ici 1))]

/-- A datatype has a name, and admits certain texts. -/
structure NumericDatatype.Admits (d : NumericDatatype) (name : String) (forms : Language Char) :
    Prop where
  iri : d.iri = Vocabulary.xsd name
  lexical : ∀ text, d.isLexical text = true ↔ text ∈ forms

namespace NumericDatatype

/-- An integer datatype admits the integers in its range, if its bounds are those of the range. -/
theorem admits_integersIn {name : String} {lower upper : Option Int} {range : Set Int}
    (hnarrow : Narrow ⟨Vocabulary.xsd name, .integer, lower, upper⟩)
    (hrange : ∀ n, ((∀ bound ∈ lower, bound ≤ n) ∧ ∀ bound ∈ upper, n ≤ bound) ↔ n ∈ range) :
    Admits ⟨Vocabulary.xsd name, .integer, lower, upper⟩ name (integersIn range) where
  iri := rfl
  lexical text := by
    show (isInteger text && containsWritten _ text) = true ↔ _
    rw [containsWritten_eq hnarrow text, Bool.and_eq_true_iff, contains_iff, hrange, isInteger_iff]
    refine and_congr_right fun hmem => ?_
    constructor
    · intro hin
      exact ⟨_, hin, denotes_iff.2 ⟨isInteger_iff.2 hmem, rfl⟩⟩
    · rintro ⟨n, hin, hn⟩
      rw [← (denotes_iff.1 hn).2]
      exact hin

/-- A power of two is the same as an integer. -/
theorem cast_twoTo (k : Nat) : (twoTo k : Int) = 2 ^ k := Nat.cast_pow 2 k

/-- Powers of two of fewer bits are no larger than the bound of 128 bits with a sign. -/
theorem twoTo_le {k : Nat} (hk : k ≤ 127) : twoTo k ≤ twoTo 127 :=
  Nat.pow_le_pow_right Nat.two_pos hk

/-- Integers from a bound on and below another one. -/
theorem admits_Ico (name : String) {lower upper : Int}
    (hlower : -(twoTo 127 : Int) ≤ lower ∧ lower < twoTo 127)
    (hupper : -(twoTo 127 : Int) < upper ∧ upper ≤ twoTo 127) :
    Admits ⟨Vocabulary.xsd name, .integer, some lower, some (upper - 1)⟩ name
      (integersIn (Set.Ico lower upper)) := by
  apply admits_integersIn
  · rintro bound (hbound | hbound)
    · cases hbound
      exact hlower
    · cases hbound
      omega
  · intro n
    simp only [Option.mem_some_iff, forall_eq', Set.mem_Ico]
    omega

/-- Integers of so many bits, one of them for the sign. -/
theorem admits_signed (name : String) {k : Nat} (hk : k ≤ 127) :
    Admits ⟨Vocabulary.xsd name, .integer, some (-(twoTo k)), some (twoTo k - 1)⟩ name
      (integersIn (Set.Ico (-2 ^ k) (2 ^ k))) := by
  have hle := twoTo_le hk
  have hpos := twoTo_pos k
  rw [← cast_twoTo]
  apply admits_Ico <;> omega

/-- Integers of so many bits without a sign. -/
theorem admits_unsigned (name : String) {k : Nat} (hk : k ≤ 127) :
    Admits ⟨Vocabulary.xsd name, .integer, some 0, some (twoTo k - 1)⟩ name
      (integersIn (Set.Ico 0 (2 ^ k))) := by
  have hle := twoTo_le hk
  have hpos := twoTo_pos k
  rw [← cast_twoTo]
  apply admits_Ico <;> omega

/-- Integers from a bound on. -/
theorem admits_Ici (name : String) {lower : Int}
    (hlower : -(twoTo 127 : Int) ≤ lower ∧ lower < twoTo 127) :
    Admits ⟨Vocabulary.xsd name, .integer, some lower, none⟩ name
      (integersIn (Set.Ici lower)) := by
  apply admits_integersIn
  · rintro bound (hbound | hbound)
    · cases hbound
      exact hlower
    · cases hbound
  · intro n
    simp

/-- Integers up to a bound. -/
theorem admits_Iic (name : String) {upper : Int}
    (hupper : -(twoTo 127 : Int) ≤ upper ∧ upper < twoTo 127) :
    Admits ⟨Vocabulary.xsd name, .integer, none, some upper⟩ name
      (integersIn (Set.Iic upper)) := by
  apply admits_integersIn
  · rintro bound (hbound | hbound)
    · cases hbound
    · cases hbound
      exact hupper
  · intro n
    simp

/-- All integers, without bounds. -/
theorem admits_univ (name : String) :
    Admits ⟨Vocabulary.xsd name, .integer, none, none⟩ name (integersIn Set.univ) := by
  apply admits_integersIn
  · rintro bound (hbound | hbound)
    · cases hbound
    · cases hbound
  · intro n
    simp

end NumericDatatype

open NumericDatatype

/-- The numeric datatypes have the names and the lexical spaces of the standard, in this order. -/
theorem admits_lexicalSpaces : List.Forall₂ (fun d (entry : String × Language Char) =>
    d.Admits entry.1 entry.2) numericDatatypes lexicalSpaces := by
  refine .cons (admits_univ "integer") ?_
  refine .cons ⟨rfl, fun _ => isDecimal_iff⟩ ?_
  refine .cons ⟨rfl, fun _ => isDouble_iff⟩ ?_
  refine .cons ⟨rfl, fun _ => isDouble_iff⟩ ?_
  refine .cons (admits_Iic "nonPositiveInteger" (by decide)) ?_
  refine .cons (admits_Iic "negativeInteger" (by decide)) ?_
  refine .cons (admits_signed "long" (by decide)) ?_
  refine .cons (admits_signed "int" (by decide)) ?_
  refine .cons (admits_signed "short" (by decide)) ?_
  refine .cons (admits_signed "byte" (by decide)) ?_
  refine .cons (admits_Ici "nonNegativeInteger" (by decide)) ?_
  refine .cons (admits_unsigned "unsignedLong" (by decide)) ?_
  refine .cons (admits_unsigned "unsignedInt" (by decide)) ?_
  refine .cons (admits_unsigned "unsignedShort" (by decide)) ?_
  refine .cons (admits_unsigned "unsignedByte" (by decide)) ?_
  exact .cons (admits_Ici "positiveInteger" (by decide)) .nil

/-- Every numeric datatype is found by its IRI. -/
theorem numericDatatype?_of_mem {d : NumericDatatype} (h : d ∈ numericDatatypes) :
    numericDatatype? d.iri = some d := by
  have hnodup : (numericDatatypes.map (·.iri)).Nodup := by decide
  unfold numericDatatype?
  cases hfind : numericDatatypes.find? fun d' => d'.iri = d.iri with
  | none =>
    have hne := List.find?_eq_none.1 hfind d h
    simp at hne
  | some d' =>
    have hiri : d'.iri = d.iri := by simpa using List.find?_some hfind
    rw [List.inj_on_of_nodup_map hnodup (List.mem_of_find?_eq_some hfind) h hiri]

/-- A datatype is numeric if and only if it has one of the sixteen names. -/
theorem isNumeric_iff {iri : Iri} :
    isNumeric iri = true ↔ ∃ entry ∈ lexicalSpaces, iri = Vocabulary.xsd entry.1 := by
  rw [isNumeric, Option.isSome_iff_exists]
  constructor
  · rintro ⟨d, hd⟩
    have hmem : d ∈ numericDatatypes := List.mem_of_find?_eq_some hd
    have hiri : d.iri = iri := by simpa using List.find?_some hd
    obtain ⟨entry, hentry, hadmits⟩ := (exists_of_forall₂ admits_lexicalSpaces).1 d hmem
    exact ⟨entry, hentry, hiri.symm.trans hadmits.iri⟩
  · rintro ⟨entry, hentry, rfl⟩
    obtain ⟨d, hd, hadmits⟩ := (exists_of_forall₂ admits_lexicalSpaces).2 entry hentry
    rw [← hadmits.iri]
    exact ⟨d, numericDatatype?_of_mem hd⟩

/-- Sixteen datatypes are numeric.  A literal of such a datatype is valid if and only if its text,
whatever it is, follows the grammar of its family and, if that is the one of integers, denotes an
integer within the bounds of the datatype.  The grammar of integers is followed by the texts that
denote an integer, and each of them denotes one only. -/
theorem isValid_iff_mem_lexicalSpace :
    (∀ iri, isNumeric iri = true ↔ ∃ entry ∈ lexicalSpaces, iri = Vocabulary.xsd entry.1) ∧
    (∀ text, text ∈ Grammar.integer.matches' ↔ ∃! n, Denotes text n) ∧
    ∀ entry ∈ lexicalSpaces, ∀ literal : Literal, literal.datatype = Vocabulary.xsd entry.1 →
      (isValid literal = true ↔ literal.lexical.toList ∈ entry.2) := by
  refine ⟨fun _ => isNumeric_iff, fun _ => mem_integer_iff_denotes, ?_⟩
  intro entry hentry literal hdatatype
  obtain ⟨d, hd, hadmits⟩ := (exists_of_forall₂ admits_lexicalSpaces).2 entry hentry
  have hfound : numericDatatype? literal.datatype = some d := by
    rw [hdatatype, ← hadmits.iri]
    exact numericDatatype?_of_mem hd
  rw [isValid, hfound]
  exact hadmits.lexical literal.lexical.toList

/-- A literal of forty digits behind a sign and zeros: an integer that does not fit in 128 bits. -/
def wideLiteral : Literal :=
  .typed "+001701411834604692317316873037158841057280" (Vocabulary.xsd "positiveInteger")

/-- An integer beyond 128 bits, with a sign and zeros in front, is a valid positive integer. -/
theorem isValid_iff_mem_lexicalSpace_wide :
    ("positiveInteger", integersIn (Set.Ici 1)) ∈ lexicalSpaces ∧
    wideLiteral.datatype = Vocabulary.xsd "positiveInteger" ∧ isValid wideLiteral = true ∧
    wideLiteral.lexical.toList ∈ integersIn (Set.Ici 1) := by
  have hentry : ("positiveInteger", integersIn (Set.Ici 1)) ∈ lexicalSpaces := by
    simp [lexicalSpaces]
  have hdatatype : wideLiteral.datatype = Vocabulary.xsd "positiveInteger" := rfl
  have hvalid : isValid wideLiteral = true := by rfl
  have hiff := isValid_iff_mem_lexicalSpace.2.2 _ hentry wideLiteral hdatatype
  exact ⟨hentry, hdatatype, hvalid, hiff.1 hvalid⟩

example : isValid (.typed "-170141183460469231731687303715884105729" (Vocabulary.xsd "long")) =
    false := by rfl

end ShEx.Datatype
