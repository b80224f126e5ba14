import Mathlib.Data.List.ReduceOption
import ShEx.Json.Written
import ShEx.Proofs.NumericValues

/-!
# The numbers of a JSON text and their written form

A number of a JSON text denotes a rational number (`denotesNumber_of_numeral?`), and so does what is
written for a number, an integer or a double (`denotes_integerText`, `denotesNumber_floatingText`):
the integer, and for a double the digits that were found for it, a power of ten moving the point or
standing behind them.  So every number that comes out of a JSON text is a word of the grammar of
doubles.
-/

set_option autoImplicit false

namespace ShEx.Json

open ShEx.Number ShEx.Datatype

/-! ## Digits -/

/-- The digits of a number are digits. -/
theorem allDigits_toDigits (n : ℕ) : allDigits (Nat.toDigits 10 n) = true := by
  rw [allDigits, List.all_eq_true]
  intro c hc
  exact Nat.isDigit_of_mem_toDigits (by norm_num) le_rfl hc

/-- The digits of a number are digits, and there is at least one. -/
theorem isDigits_toDigits (n : ℕ) : isDigits (Nat.toDigits 10 n) = true := by
  have hne := List.isEmpty_eq_false_iff.2 (Nat.toDigits_ne_nil (n := n) (b := 10))
  rw [isDigits, hne, allDigits_toDigits]
  rfl

/-- The digits of a number denote it. -/
theorem decimalNumber_toDigits (n : ℕ) : decimalNumber (Nat.toDigits 10 n) = n := by
  have hread : digitsValue (Nat.toDigits 10 n) = Nat.ofDigitChars 10 (Nat.toDigits 10 n) 0 := by
    rw [Nat.ofDigitChars_eq_foldl]
    rfl
  rw [← digitsValue_eq (allDigits_toDigits n), hread, Nat.ofDigitChars_ten_toDigits]

/-- An integer is written with a sign if it is negative, and with the digits of its magnitude. -/
theorem integerText_toList (i : ℤ) :
    (integerText i).toList = (if i < 0 then ['-'] else []) ++ Nat.toDigits 10 i.natAbs := by
  have hrepr : integerText i = i.repr := rfl
  have hnat : ∀ n : ℕ, n.repr = String.ofList (Nat.toDigits 10 n) :=
    fun _ => Nat.toString_eq_ofList_toDigits
  rw [hrepr, Int.repr_eq_if]
  split
  · have habs : i.toNat = i.natAbs := by omega
    rw [hnat, String.toList_ofList, habs, if_neg (by omega)]
    rfl
  · have habs : (-i).toNat = i.natAbs := by omega
    rw [hnat, String.toList_append, String.toList_ofList, String.toList_ofList, habs,
      if_pos (by omega)]

/-- The text of an integer denotes it. -/
theorem denotes_integerText (i : ℤ) : Denotes (integerText i).toList i := by
  have hmem := Grammar.mem_digits.2 (isDigits_toDigits i.natAbs)
  rw [integerText_toList]
  split
  · rename_i hneg
    have hvalue : i = -(decimalNumber (Nat.toDigits 10 i.natAbs) : ℤ) := by
      rw [decimalNumber_toDigits]
      omega
    have hminus := Denotes.minus hmem
    rw [← hvalue] at hminus
    exact hminus
  · rename_i hpos
    have hvalue : i = (decimalNumber (Nat.toDigits 10 i.natAbs) : ℤ) := by
      rw [decimalNumber_toDigits]
      omega
    have hbare := Denotes.bare hmem
    rw [← hvalue] at hbare
    exact hbare

/-! ## Signs -/

/-- A minus sign, if the flag is set, in front of a text without a sign. -/
def withSign (negative : Bool) (text : List Char) : List Char :=
  (if negative then ['-'] else []) ++ text

/-- A number that is negative if the flag is set. -/
def withSignRat (negative : Bool) (q : ℚ) : ℚ := if negative then -q else q

/-- A decimal stays one with a sign, and has the value with the sign. -/
theorem denotesDecimal_withSign (negative : Bool) {text : List Char} {q : ℚ}
    (h : DenotesUnsigned text q) :
    DenotesDecimal (withSign negative text) (withSignRat negative q) := by
  cases negative with
  | false => exact .bare h
  | true => exact .minus h

/-- A mantissa and an exponent denote a number with the sign in front. -/
theorem denotesNumber_withSign (negative : Bool) {mantissa exponent : List Char} {mark : Char}
    {q : ℚ} {e : ℤ} (hmark : isExponentMark mark = true) (h : DenotesUnsigned mantissa q)
    (he : Denotes exponent e) :
    DenotesNumber (withSign negative (mantissa ++ mark :: exponent))
      (withSignRat negative (q * 10 ^ e)) := by
  have hsign := DenotesNumber.scaled hmark (denotesDecimal_withSign negative h) he
  cases negative with
  | false => exact hsign
  | true =>
    have hmul : withSignRat true (q * 10 ^ e) = withSignRat true q * 10 ^ e := (neg_mul q _).symm
    rw [hmul]
    exact hsign

/-- An integer as a number. -/
theorem denotesDecimal_of_denotes {text : List Char} {i : ℤ} (h : Denotes text i) :
    DenotesDecimal text i := by
  cases h with
  | bare h =>
    have hbare := DenotesDecimal.bare (.whole h)
    exact_mod_cast hbare
  | plus h =>
    have hplus := DenotesDecimal.plus (.whole h)
    exact_mod_cast hplus
  | minus h =>
    have hminus := DenotesDecimal.minus (.whole h)
    push_cast
    exact hminus

/-! ## Plain and scientific form -/

/-- Digits with zeros behind them. -/
theorem decimalNumber_append_zeros (a : List Char) (n : ℕ) :
    decimalNumber (a ++ List.replicate n '0') = decimalNumber a * 10 ^ n := by
  rw [decimalNumber_append, decimalNumber_replicate_zero, List.length_replicate, Nat.add_zero]

/-- Zeros are digits. -/
theorem allDigits_replicate_zero (n : ℕ) : allDigits (List.replicate n '0') = true := by
  rw [allDigits, List.all_replicate]
  simp

/-- A number with a negative power of ten, written with a point. -/
theorem denotesUnsigned_plainText (n : ℕ) {k : ℤ} (hk : k < 0) :
    DenotesUnsigned (Binary.plainText n k) (n * 10 ^ k) := by
  obtain ⟨places, hplaces, hpos⟩ : ∃ places : ℕ, -k = places ∧ 0 < places :=
    ⟨(-k).toNat, by omega, by omega⟩
  have hto : (-k).toNat = places := by omega
  -- The digits are padded with zeros until one stands before the point.
  generalize hpadded : List.replicate (places + 1 - (Nat.toDigits 10 n).length) '0' ++
    Nat.toDigits 10 n = padded
  have hlength : places + 1 ≤ padded.length := by
    rw [← hpadded, List.length_append, List.length_replicate]
    omega
  have hdigits : allDigits padded = true := by
    rw [← hpadded, allDigits, List.all_append, Bool.and_eq_true_iff]
    exact ⟨allDigits_replicate_zero _, allDigits_toDigits n⟩
  have hnumber : decimalNumber padded = n := by
    rw [← hpadded, decimalNumber_zeros_append, decimalNumber_toDigits]
  have htext : Binary.plainText n k =
      padded.take (padded.length - places) ++ '.' :: padded.drop (padded.length - places) := by
    simp only [Binary.plainText, if_neg hk.not_ge, hto, hpadded]
  have hsplit := List.take_append_drop (padded.length - places) padded
  have hfraction : (padded.drop (padded.length - places)).length = places := by
    rw [List.length_drop]
    omega
  generalize padded.take (padded.length - places) = whole at htext hsplit
  generalize padded.drop (padded.length - places) = fraction at htext hsplit hfraction
  rw [← hsplit, allDigits, List.all_append, Bool.and_eq_true_iff] at hdigits
  have hfractionDigits : isDigits fraction = true := by
    cases fraction with
    | nil => rw [List.length_nil] at hfraction; omega
    | cons c rest => exact hdigits.2
  have hvalue : (n * 10 ^ k : ℚ) =
      decimalNumber whole + decimalNumber fraction / 10 ^ fraction.length := by
    have hexp : k = -(places : ℤ) := by omega
    rw [← hnumber, ← hsplit, decimalNumber_append, hfraction, hexp, zpow_neg, zpow_natCast]
    push_cast
    field_simp
  rw [htext, hvalue]
  exact .pointed (Grammar.mem_digit_star.2 hdigits.1) (Grammar.mem_digits.2 hfractionDigits)

/-- A number with a power of ten, written with zeros behind it. -/
theorem denotesUnsigned_plainText_zero (n : ℕ) {k : ℤ} (hk : 0 ≤ k) :
    DenotesUnsigned (Binary.plainText n k ++ ['.', '0']) (n * 10 ^ k) := by
  have hwhole : allDigits (Binary.plainText n k) = true ∧
      decimalNumber (Binary.plainText n k) = n * 10 ^ k.toNat := by
    by_cases hn : n = 0
    · have htext : Binary.plainText n k = ['0'] := by
        simp only [Binary.plainText, if_pos hk, if_pos hn]
      rw [htext, hn, Nat.zero_mul]
      exact ⟨rfl, decimalNumber_replicate_zero 1⟩
    · have htext : Binary.plainText n k = Nat.toDigits 10 n ++ List.replicate k.toNat '0' := by
        simp only [Binary.plainText, if_pos hk, if_neg hn]
      rw [htext, decimalNumber_append_zeros, decimalNumber_toDigits, allDigits, List.all_append,
        Bool.and_eq_true_iff]
      exact ⟨⟨allDigits_toDigits n, allDigits_replicate_zero _⟩, rfl⟩
  have hpointed := DenotesUnsigned.pointed (Grammar.mem_digit_star.2 hwhole.1)
    (Grammar.mem_digits.2 (isDigits_toDigits 0))
  have hvalue : (n * 10 ^ k : ℚ) = decimalNumber (Binary.plainText n k) +
      decimalNumber (Nat.toDigits 10 0) / 10 ^ (Nat.toDigits 10 0).length := by
    have hexp : (k.toNat : ℤ) = k := Int.toNat_of_nonneg hk
    rw [hwhole.2, decimalNumber_toDigits]
    push_cast
    rw [zero_div, add_zero, ← zpow_natCast, hexp]
  rw [hvalue]
  exact hpointed

/-- Digits with a point behind the first one. -/
theorem denotesUnsigned_pointed (n : ℕ) :
    DenotesUnsigned (pointed (Nat.toDigits 10 n)) (n / 10 ^ ((Nat.toDigits 10 n).length - 1)) := by
  have hdigits := allDigits_toDigits n
  have hnumber := decimalNumber_toDigits n
  have hne := Nat.toDigits_ne_nil (n := n) (b := 10)
  generalize Nat.toDigits 10 n = digits at hdigits hnumber hne
  match digits, hne with
  | [c], _ =>
    have hwhole : DenotesUnsigned [c] (decimalNumber [c]) := .whole (Grammar.mem_digits.2 hdigits)
    rw [hnumber] at hwhole
    simpa [pointed] using hwhole
  | c :: c' :: rest, _ =>
    obtain ⟨hc, hrest⟩ := allDigits_cons.1 hdigits
    have hfirst : allDigits [c] = true := allDigits_cons.2 ⟨hc, rfl⟩
    have hrest : isDigits (c' :: rest) = true := hrest
    have hpointed := DenotesUnsigned.pointed (Grammar.mem_digit_star.2 hfirst)
      (Grammar.mem_digits.2 hrest)
    have hvalue : (n / 10 ^ ((c :: c' :: rest).length - 1) : ℚ) =
        decimalNumber [c] + decimalNumber (c' :: rest) / 10 ^ (c' :: rest).length := by
      rw [← hnumber, decimalNumber_cons]
      push_cast
      simp only [List.length_cons, Nat.add_sub_cancel]
      field_simp
    rw [hvalue]
    exact hpointed

/-- The power of ten of the first digit of `n · 10 ^ k`. -/
def leadingPower (n : ℕ) (k : ℤ) : ℤ := k + ((Nat.toDigits 10 n).length - 1 : ℕ)

/-- The first digit is near enough to the point for a form without exponent. -/
def IsPlain (n : ℕ) (k : ℤ) : Prop := -5 ≤ leadingPower n k ∧ leadingPower n k < 16

/-- In the plain range no exponent is written. -/
theorem floatingText_of_isPlain {n : ℕ} {k : ℤ} (h : IsPlain n k) : floatingText n k =
    if 0 ≤ k then Binary.plainText n k ++ ['.', '0'] else Binary.plainText n k := by
  have hboth : (decide (-5 ≤ leadingPower n k) && decide (leadingPower n k < 16)) = true := by
    rw [decide_eq_true h.1, decide_eq_true h.2]
    rfl
  exact if_pos hboth

/-- Outside of the plain range there is one digit before the point, and an exponent. -/
theorem floatingText_of_not_isPlain {n : ℕ} {k : ℤ} (h : ¬ IsPlain n k) : floatingText n k =
    pointed (Nat.toDigits 10 n) ++ 'e' :: (integerText (leadingPower n k)).toList := by
  refine if_neg fun hboth => h ?_
  rw [Bool.and_eq_true_iff] at hboth
  exact ⟨of_decide_eq_true hboth.1, of_decide_eq_true hboth.2⟩

/-- Without an exponent the text is a decimal. -/
theorem denotesDecimal_floatingText (negative : Bool) {n : ℕ} {k : ℤ} (h : IsPlain n k) :
    DenotesDecimal (withSign negative (floatingText n k)) (withSignRat negative (n * 10 ^ k)) := by
  rw [floatingText_of_isPlain h]
  split
  · rename_i hk
    exact denotesDecimal_withSign negative (denotesUnsigned_plainText_zero n hk)
  · rename_i hk
    exact denotesDecimal_withSign negative (denotesUnsigned_plainText n (not_le.1 hk))

/-- What is written for a double denotes the digits that were found for it. -/
theorem denotesNumber_floatingText (negative : Bool) (n : ℕ) (k : ℤ) :
    DenotesNumber (withSign negative (floatingText n k)) (withSignRat negative (n * 10 ^ k)) := by
  by_cases h : IsPlain n k
  · exact .plain (denotesDecimal_floatingText negative h)
  · have hvalue : (n * 10 ^ k : ℚ) =
        n / 10 ^ ((Nat.toDigits 10 n).length - 1) * 10 ^ leadingPower n k := by
      rw [leadingPower, zpow_add₀ (by norm_num), zpow_natCast]
      field_simp
    rw [floatingText_of_not_isPlain h, hvalue]
    exact denotesNumber_withSign negative rfl (denotesUnsigned_pointed n) (denotes_integerText _)

/-- With an exponent it is no decimal. -/
theorem isDecimal_floatingText_eq_false (negative : Bool) {n : ℕ} {k : ℤ} (h : ¬ IsPlain n k) :
    isDecimal (withSign negative (floatingText n k)) = false := by
  rw [Bool.eq_false_iff]
  intro hdecimal
  have hmem : 'e' ∈ withSign negative (floatingText n k) := by
    rw [floatingText_of_not_isPlain h, withSign]
    simp
  have hmark := not_isExponentMark hdecimal 'e' hmem
  cases hmark

/-- What is written for a double that is not zero. -/
theorem numberText?_finite (negative : Bool) {m : ℕ} (hm : m ≠ 0) (e : ℤ) :
    numberText? (.float (.finite negative m e)) = some (String.ofList (withSign negative
      (floatingText (Binary.shortestDigits .double .even m e).1
        (Binary.shortestDigits .double .even m e).2))) := by
  simp only [numberText?, if_neg hm]
  rfl

/-- Zero is written with its sign. -/
theorem numberText?_zero (negative : Bool) (e : ℤ) :
    numberText? (.float (.finite negative 0 e)) =
      some (String.ofList (withSign negative ['0', '.', '0'])) := rfl

/-- What is written for zero denotes zero. -/
theorem denotesDecimal_zero (negative : Bool) :
    DenotesDecimal (withSign negative ['0', '.', '0']) 0 := by
  have hunsigned : DenotesUnsigned (['0'] ++ '.' :: ['0'])
      (decimalNumber ['0'] + decimalNumber ['0'] / 10 ^ ['0'].length) :=
    .pointed (Grammar.mem_digit_star.2 rfl) (Grammar.mem_digits.2 rfl)
  have hzero := denotesDecimal_withSign negative hunsigned
  have hnumber : decimalNumber ['0'] = 0 := decimalNumber_replicate_zero 1
  have hvalue : withSignRat negative ((0 : ℕ) + (0 : ℕ) / 10 ^ ['0'].length) = 0 := by
    cases negative <;> simp [withSignRat]
  rw [hnumber, hvalue] at hzero
  exact hzero

/-- What is written for a number denotes a rational number. -/
theorem exists_denotesNumber_of_numberText? {v : Json} {text : String}
    (h : numberText? v = some text) : ∃ q, DenotesNumber text.toList q := by
  cases v with
  | integer i =>
    obtain rfl := Option.some.inj h
    exact ⟨i, .plain (denotesDecimal_of_denotes (denotes_integerText i))⟩
  | float b =>
    cases b with
    | finite negative m e =>
      by_cases hm : m = 0
      · subst hm
        rw [numberText?_zero] at h
        obtain rfl := Option.some.inj h
        rw [String.toList_ofList]
        exact ⟨0, .plain (denotesDecimal_zero negative)⟩
      · rw [numberText?_finite negative hm] at h
        obtain rfl := Option.some.inj h
        rw [String.toList_ofList]
        exact ⟨_, denotesNumber_floatingText negative _ _⟩
    | nan => cases h
    | infinity negative => cases h
  | _ => cases h

/-! ## Reading -/

/-- A text as the symbols that it consists of. -/
def symbols (text : List Char) : List Symbol := text.map some

/-- Digits are read as far as they go. -/
theorem digits_symbols (text : List Char) :
    digits (symbols text) =
      (text.takeWhile Char.isDigit, symbols (text.dropWhile Char.isDigit)) := by
  induction text with
  | nil => rfl
  | cons c rest ih =>
    unfold digits symbols at ih ⊢
    cases hc : c.isDigit with
    | true =>
      have hsymbol : isDigitSymbol (some c) = true := hc
      simp only [List.map_cons, List.takeWhile_cons, List.dropWhile_cons, hsymbol, hc, if_true,
        List.reduceOption_cons_of_some]
      rw [(Prod.mk.inj ih).1, (Prod.mk.inj ih).2]
    | false =>
      have hsymbol : isDigitSymbol (some c) = false := hc
      simp [hsymbol, hc, List.reduceOption_nil]

/-- One digit or more are read from the front. -/
theorem exists_of_someDigits? {text ds : List Char} {rest : List Symbol}
    (h : someDigits? (symbols text) = some (ds, rest)) :
    ∃ left, text = ds ++ left ∧ rest = symbols left ∧ isDigits ds = true := by
  have hall : allDigits (text.takeWhile Char.isDigit) = true := by
    rw [allDigits, List.all_eq_true]
    intro c hc
    exact List.mem_takeWhile_imp hc
  rw [someDigits?, digits_symbols] at h
  split at h
  · cases h
  · rename_i hne
    obtain ⟨rfl, rfl⟩ := Prod.mk.inj (Option.some.inj h)
    refine ⟨text.dropWhile Char.isDigit, List.takeWhile_append_dropWhile.symm, rfl, ?_⟩
    have hnil : text.takeWhile Char.isDigit ≠ [] := fun hnil => hne _ (by rw [hnil])
    rw [isDigits, List.isEmpty_eq_false_iff.2 hnil, hall]
    rfl

/-- The text of a fraction. -/
def fractionText : Option (List Char) → List Char
  | none => []
  | some ds => '.' :: ds

/-- What is read as a fraction is a point with digits, or nothing. -/
theorem exists_of_fraction? {text : List Char} {fraction : Option (List Char)} {rest : List Symbol}
    (h : fraction? (symbols text) = some (fraction, rest)) :
    ∃ left, text = fractionText fraction ++ left ∧ rest = symbols left ∧
      ∀ ds ∈ fraction, isDigits ds = true := by
  unfold fraction? at h
  split at h
  · rename_i rest' heq
    cases text with
    | nil => cases heq
    | cons c text =>
      obtain ⟨hc, rfl⟩ := List.cons.inj heq
      obtain rfl := Option.some.inj hc
      obtain ⟨⟨ds, rest'⟩, hdigits, hfound⟩ := Option.map_eq_some_iff.1 h
      obtain ⟨left, rfl, hrest, hds⟩ := exists_of_someDigits? hdigits
      obtain ⟨rfl, rfl⟩ := Prod.mk.inj hfound
      refine ⟨left, rfl, hrest, fun ds' hds' => ?_⟩
      obtain rfl := Option.mem_some_iff.1 hds'
      exact hds
  · obtain ⟨rfl, rfl⟩ := Prod.mk.inj (Option.some.inj h)
    exact ⟨text, rfl, rfl, nofun⟩

/-- A text is an exponent of a number, its mark included, or empty if there is none. -/
inductive IsExponentText : Option (Bool × List Char) → List Char → Prop
  | none : IsExponentText none []
  | some {mark : Char} {negative : Bool} {ds digits : List Char}
      (hmark : isExponentMark mark = true)
      (hvalue : Denotes digits (exponentValue (.some (negative, ds)))) :
      IsExponentText (.some (negative, ds)) (mark :: digits)

/-- Digits denote the value of an exponent without a sign and with either one. -/
theorem denotes_signed {ds : List Char} (h : isDigits ds = true) :
    Denotes ds (exponentValue (some (false, ds))) ∧
      Denotes ('+' :: ds) (exponentValue (some (false, ds))) ∧
      Denotes ('-' :: ds) (exponentValue (some (true, ds))) := by
  have hvalue := digitsValue_eq (allDigits_of_isDigits h)
  have hmem := Grammar.mem_digits.2 h
  simp only [exponentValue, signed, hvalue]
  exact ⟨.bare hmem, .plus hmem, .minus hmem⟩

/-- Behind the mark of an exponent stand a sign, if there is one, and digits. -/
theorem exists_of_exponentSign {text : List Char} {ds : List Char} {rest : List Symbol}
    (h : someDigits? (exponentSign (symbols text)).2 = some (ds, rest)) :
    ∃ front left, text = front ++ left ∧ rest = symbols left ∧
      Denotes front (exponentValue (some ((exponentSign (symbols text)).1, ds))) := by
  unfold exponentSign at h ⊢
  split at h
  · rename_i rest' heq
    cases text with
    | nil => cases heq
    | cons c text =>
      obtain ⟨hc, rfl⟩ := List.cons.inj heq
      obtain rfl := Option.some.inj hc
      obtain ⟨left, rfl, hrest, hds⟩ := exists_of_someDigits? h
      exact ⟨'-' :: ds, left, rfl, hrest, (denotes_signed hds).2.2⟩
  · rename_i rest' heq
    cases text with
    | nil => cases heq
    | cons c text =>
      obtain ⟨hc, rfl⟩ := List.cons.inj heq
      obtain rfl := Option.some.inj hc
      obtain ⟨left, rfl, hrest, hds⟩ := exists_of_someDigits? h
      exact ⟨'+' :: ds, left, rfl, hrest, (denotes_signed hds).2.1⟩
  · obtain ⟨left, rfl, hrest, hds⟩ := exists_of_someDigits? h
    exact ⟨ds, left, rfl, hrest, (denotes_signed hds).1⟩

/-- What is read as an exponent is a mark, a sign if there is one and digits, or nothing. -/
theorem exists_of_exponent? {text : List Char} {exponent : Option (Bool × List Char)}
    {rest : List Symbol} (h : exponent? (symbols text) = some (exponent, rest)) :
    ∃ front left, text = front ++ left ∧ rest = symbols left ∧ IsExponentText exponent front := by
  cases text with
  | nil =>
    obtain ⟨rfl, rfl⟩ := Prod.mk.inj (Option.some.inj h)
    exact ⟨[], [], rfl, rfl, .none⟩
  | cons c text =>
    have hcons : symbols (c :: text) = some c :: symbols text := rfl
    simp only [hcons, exponent?] at h
    split at h
    · rename_i hmark
      have hmark : isExponentMark c = true := by simpa [isExponentMark] using hmark
      obtain ⟨⟨ds, rest'⟩, hdigits, hfound⟩ := Option.map_eq_some_iff.1 h
      obtain ⟨rfl, rfl⟩ := Prod.mk.inj hfound
      obtain ⟨front, left, rfl, hrest, hdenotes⟩ := exists_of_exponentSign hdigits
      exact ⟨c :: front, left, rfl, hrest, .some hmark hdenotes⟩
    · obtain ⟨rfl, rfl⟩ := Prod.mk.inj (Option.some.inj h)
      exact ⟨[], c :: text, rfl, rfl, .none⟩

/-- The digits of a number behind its point. -/
def Numeral.places (n : Numeral) : List Char := n.fraction.getD []

/-- All digits of a number, as one number. -/
def Numeral.digits (n : Numeral) : ℕ := decimalNumber (n.integer ++ n.places)

/-- The power of ten that the digits are multiplied with. -/
def Numeral.power (n : Numeral) : ℤ := exponentValue n.exponent - n.places.length

/-- The number that a number of a JSON text denotes. -/
def Numeral.toRat (n : Numeral) : ℚ := withSignRat n.negative (n.digits * 10 ^ n.power)

/-- The parts of a number in a text. -/
structure Numeral.WrittenAs (n : Numeral) (text : List Char) : Prop where
  integer : isDigits n.integer = true
  fraction : ∀ ds ∈ n.fraction, isDigits ds = true
  parts : ∃ exponent, text = n.integer ++ (fractionText n.fraction ++ exponent) ∧
    IsExponentText n.exponent exponent

/-- A number that is read without anything left stands for what was written. -/
theorem writtenAs_of_unsignedNumeral? {negative : Bool} {text : List Char} {n : Numeral}
    (h : unsignedNumeral? negative (symbols text) = some (n, [])) :
    n.WrittenAs text ∧ n.negative = negative := by
  simp only [unsignedNumeral?, Option.bind_eq_bind] at h
  obtain ⟨⟨whole, rest⟩, hwhole, h⟩ := Option.bind_eq_some_iff.1 h
  obtain ⟨left, rfl, rfl, hinteger⟩ := exists_of_someDigits? hwhole
  split at h
  · cases h
  obtain ⟨⟨fraction, rest⟩, hfraction, h⟩ := Option.bind_eq_some_iff.1 h
  obtain ⟨⟨exponent, rest'⟩, hexponent, hfound⟩ := Option.bind_eq_some_iff.1 h
  obtain ⟨left', rfl, rfl, hplaces⟩ := exists_of_fraction? hfraction
  obtain ⟨front, left'', rfl, rfl, hmark⟩ := exists_of_exponent? hexponent
  obtain ⟨rfl, hnil⟩ := Prod.mk.inj (Option.some.inj hfound)
  obtain rfl : left'' = [] := List.map_eq_nil_iff.1 hnil
  rw [List.append_nil]
  exact ⟨⟨hinteger, hplaces, front, rfl, hmark⟩, rfl⟩

/-- The digits in front of the exponent. -/
theorem Numeral.WrittenAs.denotesUnsigned {n : Numeral} {text : List Char} (h : n.WrittenAs text) :
    DenotesUnsigned (n.integer ++ fractionText n.fraction)
      (n.digits * 10 ^ (-(n.places.length : ℤ))) := by
  have hinteger := h.integer
  have hfraction := h.fraction
  unfold Numeral.digits Numeral.places
  cases hf : n.fraction with
  | none =>
    have hwhole := DenotesUnsigned.whole (Grammar.mem_digits.2 hinteger)
    simpa [fractionText] using hwhole
  | some ds =>
    rw [hf] at hfraction
    have hpointed := DenotesUnsigned.pointed
      (Grammar.mem_digit_star.2 (allDigits_of_isDigits hinteger))
      (Grammar.mem_digits.2 (hfraction ds rfl))
    have hvalue : (decimalNumber (n.integer ++ ds) * 10 ^ (-(ds.length : ℤ)) : ℚ) =
        decimalNumber n.integer + decimalNumber ds / 10 ^ ds.length := by
      rw [decimalNumber_append, zpow_neg, zpow_natCast]
      push_cast
      field_simp
    simp only [Option.getD_some]
    rw [hvalue]
    exact hpointed

/-- The text of a number denotes its value. -/
theorem Numeral.WrittenAs.denotesNumber {n : Numeral} {text : List Char} (h : n.WrittenAs text) :
    DenotesNumber (withSign n.negative text) n.toRat := by
  have hunsigned := h.denotesUnsigned
  obtain ⟨exponent, rfl, hexponent⟩ := h.parts
  have hpower : n.toRat = withSignRat n.negative
      (n.digits * 10 ^ (-(n.places.length : ℤ)) * 10 ^ exponentValue n.exponent) := by
    have hexp : n.power = -(n.places.length : ℤ) + exponentValue n.exponent := by
      rw [Numeral.power]
      omega
    rw [Numeral.toRat, mul_assoc, ← zpow_add₀ (by norm_num), hexp]
  rw [← List.append_assoc, hpower]
  cases hexp : n.exponent with
  | none =>
    rw [hexp] at hexponent
    cases hexponent
    have hzero : exponentValue none = 0 := rfl
    rw [List.append_nil, hzero, zpow_zero, mul_one]
    exact .plain (denotesDecimal_withSign n.negative hunsigned)
  | some found =>
    rw [hexp] at hexponent
    cases hexponent with
    | some hmark hvalue => exact denotesNumber_withSign n.negative hmark hunsigned hvalue

/-- A number of a JSON text. -/
theorem writtenAs_of_numeral? {text : List Char} {n : Numeral}
    (h : numeral? (symbols text) = some (n, [])) :
    ∃ digits, text = withSign n.negative digits ∧ n.WrittenAs digits := by
  unfold numeral? at h
  split at h
  · rename_i rest heq
    cases text with
    | nil => cases heq
    | cons c text =>
      obtain ⟨hc, rfl⟩ := List.cons.inj heq
      obtain rfl := Option.some.inj hc
      obtain ⟨hwritten, hsign⟩ := writtenAs_of_unsignedNumeral? h
      refine ⟨text, ?_, hwritten⟩
      rw [hsign]
      rfl
  · obtain ⟨hwritten, hsign⟩ := writtenAs_of_unsignedNumeral? h
    refine ⟨text, ?_, hwritten⟩
    rw [hsign]
    rfl

/-- A number of a JSON text denotes a rational number: its digits with the point and the exponent
taken together as one power of ten. -/
theorem denotesNumber_of_numeral? {text : List Char} {n : Numeral}
    (h : numeral? (symbols text) = some (n, [])) : DenotesNumber text n.toRat := by
  obtain ⟨digits, rfl, hwritten⟩ := writtenAs_of_numeral? h
  exact hwritten.denotesNumber

end ShEx.Json
