import ShEx.Rdf.LanguageTag
import ShEx.Validation.NodeEvaluation
import Mathlib.Data.List.Basic

/-!
# Language tags in value sets

An entry of a value set with a language speaks about the tag of a literal up to the case of its
ASCII letters (`contains_language_iff`).  Whether a tag begins with a stem is decided on the piece
of the tag that has as many bytes as the stem.  There is such a piece if and only if the tag has a
character boundary there (`isSome_takeBytes?_iff`).  A change of case changes the size of no
character (`byteCount_map_toLower`), so that no tag is missed for the want of one.
-/

set_option autoImplicit false

namespace ShEx

open ShEx.Rdf

/-! ## Pieces of so many bytes -/

/-- How many bytes the characters of a text have. -/
def byteCount (text : List Char) : Nat := (String.ofList text).utf8ByteSize

/-- No characters have no bytes. -/
theorem byteCount_nil : byteCount [] = 0 := rfl

/-- The bytes of a text are those of its characters. -/
theorem byteCount_cons (c : Char) (rest : List Char) :
    byteCount (c :: rest) = c.utf8Size + byteCount rest := by
  rw [byteCount, String.ofList_cons, String.utf8ByteSize_append, String.utf8ByteSize_singleton,
    byteCount]

/-- The bytes of the characters of a text are those of the text. -/
theorem byteCount_toList (text : String) : byteCount text.toList = text.utf8ByteSize := by
  rw [byteCount, String.ofList_toList]

/-- The piece that is taken is the beginning of the text with so many bytes. -/
theorem takeBytes?_eq_some_iff {text : List Char} {n : Nat} {start : List Char} :
    takeBytes? text n = some start ↔ start <+: text ∧ byteCount start = n := by
  -- The cases are those of the recursion: no bytes left to take, no text left, a character that
  -- fits or one that is too long.
  fun_induction takeBytes? text n generalizing start with
  | case1 text =>
    constructor
    · intro h
      cases h
      exact ⟨List.nil_prefix, rfl⟩
    · rintro ⟨-, h⟩
      cases start with
      | nil => rfl
      | cons c rest =>
        have hpos := c.utf8Size_pos
        rw [byteCount_cons] at h
        omega
  | case2 n =>
    refine ⟨nofun, ?_⟩
    rintro ⟨hbegin, h⟩
    rw [List.prefix_nil.1 hbegin, byteCount_nil] at h
    omega
  | case3 c rest n hfits ih =>
    rw [Option.map_eq_some_iff]
    constructor
    · rintro ⟨later, hlater, rfl⟩
      obtain ⟨hbegin, hcount⟩ := ih.1 hlater
      refine ⟨List.cons_prefix_cons.2 ⟨rfl, hbegin⟩, ?_⟩
      rw [byteCount_cons, hcount]
      omega
    · rintro ⟨hbegin, hcount⟩
      cases start with
      | nil =>
        rw [byteCount_nil] at hcount
        omega
      | cons c' later =>
        obtain ⟨rfl, hlater⟩ := List.cons_prefix_cons.1 hbegin
        rw [byteCount_cons] at hcount
        exact ⟨later, ih.2 ⟨hlater, by omega⟩, rfl⟩
  | case4 c rest n hlarge =>
    refine ⟨nofun, ?_⟩
    rintro ⟨hbegin, hcount⟩
    cases start with
    | nil =>
      rw [byteCount_nil] at hcount
      omega
    | cons c' later =>
      obtain ⟨rfl, -⟩ := List.cons_prefix_cons.1 hbegin
      rw [byteCount_cons] at hcount
      omega

/-- There is such a piece if and only if a character of the text ends there. -/
theorem isSome_takeBytes?_iff (text : String) (n : Nat) :
    (takeBytes? text.toList n).isSome = true ↔ (⟨n⟩ : String.Pos.Raw).IsValid text := by
  rw [Option.isSome_iff_exists, String.Pos.Raw.isValid_iff_exists_append]
  constructor
  · rintro ⟨start, hstart⟩
    obtain ⟨⟨rest, hrest⟩, hcount⟩ := takeBytes?_eq_some_iff.1 hstart
    refine ⟨String.ofList start, String.ofList rest, ?_, ?_⟩
    · rw [← String.ofList_append, hrest, String.ofList_toList]
    · exact congrArg String.Pos.Raw.mk hcount.symm
  · rintro ⟨start, rest, rfl, hposition⟩
    refine ⟨start.toList, takeBytes?_eq_some_iff.2 ⟨?_, ?_⟩⟩
    · rw [String.toList_append]
      exact List.prefix_append _ _
    · rw [byteCount_toList]
      exact (congrArg String.Pos.Raw.byteIdx hposition).symm

/-! ## The case of letters -/

/-- An ASCII character has one byte. -/
theorem utf8Size_of_ascii {c : Char} (h : c.val.toNat ≤ 127) : c.utf8Size = 1 :=
  Char.utf8Size_eq_one_iff.2 (UInt32.le_iff_toNat_le.2 h)

/-- A letter has one byte in either case. -/
theorem utf8Size_toLower (c : Char) : c.toLower.utf8Size = c.utf8Size := by
  unfold Char.toLower
  split
  · next h =>
    have hupper : c.val.toNat ≤ 90 := UInt32.le_iff_toNat_le.1 h.2
    have hlower : (c.val + ('a'.val - 'A'.val)).toNat ≤ 127 := by
      have hdistance : ('a'.val - 'A'.val).toNat = 32 := rfl
      rw [UInt32.toNat_add, hdistance]
      omega
    have hc : c.val.toNat ≤ 127 := by omega
    rw [utf8Size_of_ascii hc, utf8Size_of_ascii hlower]
  · rfl

/-- The case of ASCII letters does not change the number of bytes. -/
theorem byteCount_map_toLower (text : List Char) :
    byteCount (text.map Char.toLower) = byteCount text := by
  induction text with
  | nil => rfl
  | cons c rest ih => rw [List.map_cons, byteCount_cons, byteCount_cons, utf8Size_toLower, ih]

open LanguageTag (lowerCase)

/-- A text is put in lower case letter by letter. -/
theorem toList_lowerCase (text : String) :
    (lowerCase text).toList = text.toList.map Char.toLower := String.toList_ofList

/-- Two texts are equal up to the case of their letters if they are equal in lower case. -/
theorem equalIgnoringCase_iff (s t : String) :
    equalIgnoringCase s.toList t.toList = true ↔ lowerCase s = lowerCase t := by
  rw [equalIgnoringCase, decide_eq_true_iff, ← toList_lowerCase, ← toList_lowerCase,
    String.toList_inj]

/-- A tag begins with a stem if it does so in lower case. -/
theorem hasLanguageStem_iff (tag stem : String) :
    hasLanguageStem tag stem = true ↔ (lowerCase stem).toList <+: (lowerCase tag).toList := by
  rw [toList_lowerCase, toList_lowerCase]
  unfold hasLanguageStem
  constructor
  · intro h
    split at h
    · next start hstart =>
      obtain ⟨⟨rest, hrest⟩, -⟩ := takeBytes?_eq_some_iff.1 hstart
      refine ⟨rest.map Char.toLower, ?_⟩
      rw [← of_decide_eq_true h, ← List.map_append, hrest]
    · cases h
  · rintro ⟨rest, hrest⟩
    obtain ⟨start, later, htag, hstart, -⟩ := List.map_eq_append_iff.1 hrest.symm
    have htake : takeBytes? tag.toList stem.utf8ByteSize = some start := by
      refine takeBytes?_eq_some_iff.2 ⟨⟨later, htag.symm⟩, ?_⟩
      rw [← byteCount_map_toLower, hstart, byteCount_map_toLower, byteCount_toList]
    rw [htake]
    exact decide_eq_true hstart

/-! ## Value sets -/

/-- An exclusion names a tag, or a stem that the tag begins with, in any case. -/
def StemExclusion.Names (tag : String) : StemExclusion → Prop
  | .value excluded => lowerCase tag = lowerCase excluded
  | .stem start => (lowerCase start).toList <+: (lowerCase tag).toList

/-- An exclusion takes out the tags that it names. -/
theorem StemExclusion.excludesLanguage_iff (tag : String) (x : StemExclusion) :
    x.excludesLanguage tag = true ↔ x.Names tag := by
  cases x with
  | value excluded => exact equalIgnoringCase_iff tag excluded
  | stem start => exact hasLanguageStem_iff tag start

/-- A literal that has a tag, and one that is not empty, is looked at by its tag. -/
theorem any_languageTag?_iff (l : Literal) (p : String → Bool) :
    ((Term.literal l).languageTag?.any p) = true ↔
      ∃ tag, l.language? = some tag ∧ tag ≠ "" ∧ p tag = true := by
  have hlanguage : (Term.literal l).languageTag? = l.language?.filter (· != "") := rfl
  rw [hlanguage, Option.any_eq_true]
  simp only [Option.filter_eq_some_iff, bne_iff_ne, ne_eq, and_assoc]

/-- Entries with a language say what a tag is up to the case of its ASCII letters.

A literal is one of those that they stand for if and only if it has a tag that is not empty, and the
tag in lower case is the one of the entry in lower case, or begins with its stem in lower case and
is named by no exclusion.  A stem that ends behind the tag or inside one of its characters, as bytes
are counted, is no beginning of it; all other places in the tag are between two characters. -/
theorem contains_language_iff (l : Literal) :
    (∀ expected, ValueSetValue.contains (.literal l) (.language expected) = true ↔
      ∃ tag, l.language? = some tag ∧ tag ≠ "" ∧ lowerCase tag = lowerCase expected) ∧
    (∀ stem, ValueSetValue.contains (.literal l) (.languageStem stem) = true ↔
      ∃ tag, l.language? = some tag ∧ tag ≠ "" ∧
        (lowerCase stem).toList <+: (lowerCase tag).toList) ∧
    (∀ stem exclusions,
      ValueSetValue.contains (.literal l) (.languageStemRange stem exclusions) = true ↔
        ∃ tag, l.language? = some tag ∧ tag ≠ "" ∧
          (lowerCase stem).toList <+: (lowerCase tag).toList ∧
          ∀ x ∈ exclusions, ¬ x.Names tag) ∧
    (∀ (tag : String) (n : Nat),
      (takeBytes? tag.toList n).isSome = true ↔ (⟨n⟩ : String.Pos.Raw).IsValid tag) ∧
    (∀ (tag : String) (n : Nat) (start : List Char), takeBytes? tag.toList n = some start ↔
      ∃ rest, tag = String.ofList start ++ rest ∧ (String.ofList start).utf8ByteSize = n) := by
  refine ⟨fun expected => ?_, fun stem => ?_, fun stem exclusions => ?_, isSome_takeBytes?_iff,
    fun tag n start => ?_⟩
  · rw [ValueSetValue.contains, any_languageTag?_iff]
    simp only [equalIgnoringCase_iff]
  · rw [ValueSetValue.contains, any_languageTag?_iff]
    simp only [hasLanguageStem_iff]
  · rw [ValueSetValue.contains, any_languageTag?_iff]
    simp only [Bool.and_eq_true, Bool.not_eq_true', List.any_eq_false, hasLanguageStem_iff,
      StemExclusion.excludesLanguage_iff]
  · rw [takeBytes?_eq_some_iff, exists_and_right, byteCount]
    refine and_congr_left' ⟨?_, ?_⟩
    · rintro ⟨rest, hrest⟩
      refine ⟨String.ofList rest, ?_⟩
      rw [← String.ofList_append, hrest, String.ofList_toList]
    · rintro ⟨rest, rfl⟩
      rw [String.toList_append, String.toList_ofList]
      exact List.prefix_append _ _

/-- The first byte of the tag is half a character. -/
example : ValueSetValue.contains (.literal (.tagged "" "é")) (.languageStem "e") = false := by
  decide

end ShEx
