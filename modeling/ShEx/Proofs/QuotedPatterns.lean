import ShEx.Proofs.ConstraintParts
import ShEx.Proofs.LanguageTags
import ShEx.Proofs.Patterns

/-!
# Quoted patterns

With the flag `q` every character of a pattern stands for itself, so that the pattern occurs in a
text if the text contains it as it is written (`Pattern.compile_quoted`).  Of the other flags only
`i` counts then; `m`, `s` and `x` change nothing, also where the pattern has white space or a `#`.

The same expression is got from a pattern without flags, if a backslash is written in front of each
character that has a meaning of its own (`Pattern.compile_escaped`).
-/

set_option autoImplicit false

namespace ShEx.Pattern

open ShEx.Rdf ShEx.Unicode

/-! ## Where a sequence of characters is found -/

/-- A place behind a character is reached if the one before it was, and the character is in the
set. -/
theorem Places.getElem?_advance_succ {set : CharSet} {text : List Char} {s : Places} {i : Nat} :
    (s.advance set text)[i + 1]? = some true ↔
      ∃ c, text[i]? = some c ∧ set.contains c = true ∧ s[i]? = some true := by
  rw [Places.advance, List.getElem?_cons_succ, List.getElem?_zipWith]
  cases text[i]? with
  | none => simp
  | some c =>
    cases s[i]? with
    | none => simp
    | some here => simp [and_comm]

/-- So a place behind a piece of the text is reached if the piece ends with a character of the
set. -/
theorem Places.getElem?_advance_length {set : CharSet} {start later : List Char} {s : Places} :
    (s.advance set (start ++ later))[start.length]? = some true ↔
      ∃ before c, start = before ++ [c] ∧ set.contains c = true ∧
        s[before.length]? = some true := by
  rcases List.eq_nil_or_concat' start with rfl | ⟨before, c, rfl⟩
  · simp [Places.advance]
  · rw [List.length_append, List.length_singleton, getElem?_advance_succ]
    simp only [List.append_assoc, List.getElem?_append_right (Nat.le_refl _), Nat.sub_self,
      List.cons_append, List.getElem?_cons_zero, Option.some.injEq, exists_eq_left']
    constructor
    · rintro ⟨hc, hbefore⟩
      exact ⟨before, c, rfl, hc, hbefore⟩
    · rintro ⟨before', c', heq, hc, hbefore⟩
      obtain ⟨rfl, hcc⟩ := List.append_inj' heq rfl
      cases hcc
      exact ⟨hc, hbefore⟩

/-- No place behind the end of the text is reached. -/
theorem Places.length_advance_le (set : CharSet) (text : List Char) (s : Places) :
    (s.advance set text).length ≤ text.length + 1 := by
  rw [Places.advance, List.length_cons, List.length_zipWith]
  omega

/-- A sequence goes on from the places that its first expression reaches. -/
theorem Regex.reach_ofList_cons (r : Regex) (rs : List Regex) (text : List Char) (s : Places) :
    (Regex.ofList (r :: rs)).reach text s = (Regex.ofList rs).reach text (r.reach text s) := by
  cases rs <;> rfl

/-- From a place the places are reached that come behind a piece with a character of each set. -/
theorem Regex.reach_sequence {sets : List CharSet} {text : List Char} {s : Places}
    (hs : s.length ≤ text.length + 1) {i : Nat} :
    ((Regex.ofList (sets.map .chars)).reach text s)[i]? = some true ↔
      ∃ start piece rest, text = start ++ (piece ++ rest) ∧ i = start.length + piece.length ∧
        List.Forall₂ (fun set c => set.contains c = true) sets piece ∧
        s[start.length]? = some true := by
  induction sets generalizing s with
  | nil =>
    constructor
    · intro h
      have hi : i < s.length := (List.getElem?_eq_some_iff.1 h).1
      have htake : (text.take i).length = i := by
        rw [List.length_take]
        omega
      refine ⟨text.take i, [], text.drop i, (List.take_append_drop i text).symm, ?_, .nil, ?_⟩
      · exact htake.symm
      · rw [htake]
        exact h
    · rintro ⟨start, piece, rest, -, rfl, hpiece, hstart⟩
      cases hpiece
      exact hstart
  | cons set sets ih =>
    -- The first set moves every place by one character, and the rest goes on from there.
    rw [List.map_cons, reach_ofList_cons, reach, ih (Places.length_advance_le set text s)]
    constructor
    · rintro ⟨start, piece, rest, htext, rfl, hpiece, hstart⟩
      rw [htext] at hstart
      obtain ⟨before, c, rfl, hc, hbefore⟩ := Places.getElem?_advance_length.1 hstart
      refine ⟨before, c :: piece, rest, ?_, ?_, .cons hc hpiece, hbefore⟩
      · rw [htext, List.append_assoc]
        rfl
      · simp only [List.length_append, List.length_cons, List.length_nil]
        omega
    · rintro ⟨before, piece, rest, htext, rfl, hpiece, hbefore⟩
      obtain ⟨c, later, hc, hlater, rfl⟩ := List.forall₂_cons_left_iff.1 hpiece
      have hsplit : text = (before ++ [c]) ++ (later ++ rest) := by
        rw [htext, List.append_assoc]
        rfl
      refine ⟨before ++ [c], later, rest, hsplit, ?_, hlater, ?_⟩
      · simp only [List.length_append, List.length_cons, List.length_nil]
        omega
      · rw [hsplit]
        exact Places.getElem?_advance_length.2 ⟨before, c, rfl, hc, hbefore⟩

/-- A sequence of sets is found in a text that has a character of each, one behind the other. -/
theorem Regex.search_sequence {sets : List CharSet} {text : List Char} :
    (Regex.ofList (sets.map .chars)).search text = true ↔
      ∃ piece, piece <:+: text ∧ List.Forall₂ (fun set c => set.contains c = true) sets piece := by
  have hall : (Places.all text).length ≤ text.length + 1 := (List.length_replicate ..).le
  rw [Regex.search, Places.isEmpty, Bool.not_not, List.any_eq_true]
  simp only [id, exists_eq_right, List.mem_iff_getElem?, reach_sequence hall]
  constructor
  · rintro ⟨-, start, piece, rest, rfl, -, hpiece, -⟩
    exact ⟨piece, ⟨start, rest, List.append_assoc ..⟩, hpiece⟩
  · rintro ⟨piece, ⟨start, rest, rfl⟩, hpiece⟩
    refine ⟨_, start, piece, rest, List.append_assoc .., rfl, hpiece, ?_⟩
    rw [Places.all, List.getElem?_replicate, if_pos]
    simp only [List.length_append]
    omega

/-! ## The expression of a quoted pattern -/

/-- The set of one character contains this character only. -/
theorem contains_single {c d : Char} : (CharSet.single c).contains d = true ↔ c = d := by
  rw [CharSet.contains, CharSet.containsCode, CharSet.single, List.any_cons, List.any_nil,
    Bool.or_false, Bool.and_eq_true, decide_eq_true_iff, decide_eq_true_iff, ← Char.toNat_inj]
  omega

/-- A pattern that is quoted, in which case counts, is the sequence of its characters. -/
theorem quotedRegex_eq (text : List Char) :
    quotedRegex false text = .ofList ((text.map .single).map .chars) := by
  rw [quotedRegex, List.map_map]
  rfl

/-- The expression of a quoted pattern is found in the texts that contain the pattern. -/
theorem search_quotedRegex_iff {pattern text : List Char} :
    (quotedRegex false pattern).search text = true ↔ pattern <:+: text := by
  rw [quotedRegex_eq, Regex.search_sequence]
  simp only [List.forall₂_map_left_iff, contains_single, List.forall₂_eq_eq_eq, exists_eq_right']

/-- The size of one character is that of its bytes. -/
theorem charsFootprint_single (c : Char) : charsFootprint (.single c) = 32 * c.utf8Size := by
  have hbelow (n : Nat) (h : n < UInt32.size) : c.val ≤ UInt32.ofNatLT n h ↔ c.toNat < n + 1 :=
    ⟨Nat.lt_succ_of_le, Nat.le_of_lt_succ⟩
  simp only [charsFootprint, CharSet.single, if_true, Char.utf8Size, hbelow, Nat.reduceAdd]

/-- The size of a sequence is that of its expressions together. -/
theorem footprint_ofList (rs : List Regex) :
    (Regex.ofList rs).footprint = (rs.map Regex.footprint).sum := by
  fun_induction Regex.ofList rs with
  | case1 => rfl
  | case2 r => simp
  | case3 r rs hrs ih => rw [Regex.footprint, ih, List.map_cons, List.sum_cons]

/-- The size of a quoted pattern is that of its bytes. -/
theorem footprint_quotedRegex (text : List Char) :
    (quotedRegex false text).footprint = 32 * byteCount text := by
  rw [quotedRegex_eq, footprint_ofList]
  induction text with
  | nil => rfl
  | cons c rest ih =>
    rw [List.map_cons, List.map_cons, List.map_cons, List.sum_cons, ih, Regex.footprint,
      charsFootprint_single, byteCount_cons, Nat.mul_add]

/-- A quoted pattern is used unless it has too many bytes. -/
theorem bounded?_quotedRegex (text : List Char) :
    (quotedRegex false text).bounded? =
      if 32 * byteCount text ≤ footprintLimit then some (quotedRegex false text) else none := by
  rw [Regex.bounded?, footprint_quotedRegex]

/-! ## The flags of a quoted pattern -/

namespace Options

/-- A flag that is set does not change whether the pattern is quoted. -/
theorem quoted_set (options : Options) (flag : Flag) :
    (options.set flag).quoted = options.quoted := by
  unfold set
  split <;> rfl

/-- The flags that are set behind a further one are those before and this one. -/
theorem mem_flags_set {options : Options} {flag other : Flag} :
    other ∈ (options.set flag).flags ↔ other ∈ options.flags ∨ other = flag := by
  unfold set
  split
  · next h =>
    refine ⟨.inl, ?_⟩
    rintro (h' | rfl)
    · exact h'
    · exact List.contains_iff_mem.1 h
  · rw [List.mem_append, List.mem_singleton]

/-- Options that a supported flag gives: the flag `q` quotes, and the flag `i` only makes case not
count. -/
theorem exists_add? (options : Options) {flag : Char} (h : flag ∈ ['i', 'm', 's', 'x', 'q']) :
    ∃ later, options.add? flag = some later ∧
      (later.quoted = true ↔ options.quoted = true ∨ 'q' = flag) ∧
      (.caseInsensitive ∈ later.flags ↔ .caseInsensitive ∈ options.flags ∨ 'i' = flag) := by
  simp only [List.mem_cons, List.not_mem_nil, or_false] at h
  rcases h with rfl | rfl | rfl | rfl | rfl
  all_goals
    refine ⟨_, rfl, ?_, ?_⟩
    all_goals simp [quoted_set, mem_flags_set]

/-- Supported flags are put together in any order and number. -/
theorem exists_addAll (options : Options) {flags : List Char}
    (h : ∀ flag ∈ flags, flag ∈ ['i', 'm', 's', 'x', 'q']) :
    ∃ later, options.addAll flags = .ok later ∧
      (later.quoted = true ↔ options.quoted = true ∨ 'q' ∈ flags) ∧
      (.caseInsensitive ∈ later.flags ↔ .caseInsensitive ∈ options.flags ∨ 'i' ∈ flags) := by
  induction flags generalizing options with
  | nil => exact ⟨options, rfl, by simp, by simp⟩
  | cons flag flags ih =>
    obtain ⟨hflag, hflags⟩ := List.forall_mem_cons.1 h
    obtain ⟨next, hnext, hquoted, hcase⟩ := options.exists_add? hflag
    obtain ⟨later, hlater, hquoted', hcase'⟩ := ih next hflags
    refine ⟨later, ?_, ?_, ?_⟩
    · rw [addAll, hnext]
      exact hlater
    · rw [hquoted', hquoted, or_assoc, List.mem_cons]
    · rw [hcase', hcase, or_assoc, List.mem_cons]

end Options

/-- A pattern that is quoted, and in which case counts. -/
structure Quoted (facet : PatternFacet) : Prop where
  supported : ∀ flag ∈ (facet.flags.getD "").toList, flag ∈ ['i', 'm', 's', 'x', 'q']
  quoted : 'q' ∈ (facet.flags.getD "").toList
  caseSensitive : 'i' ∉ (facet.flags.getD "").toList

/-- The flags other than `q` say nothing about a pattern that is quoted. -/
theorem Quoted.compile_eq {facet : PatternFacet} (h : Quoted facet) :
    compile facet = if 32 * facet.pattern.utf8ByteSize ≤ footprintLimit
      then .ok (quotedRegex false facet.pattern.toList) else .error .malformed := by
  obtain ⟨options, hoptions, hquoted, hcase⟩ := Options.initial.exists_addAll h.supported
  have hcounts : options.flags.contains .caseInsensitive = false := by
    rw [List.contains_eq_mem, decide_eq_false_iff_not, hcase]
    exact not_or.2 ⟨List.not_mem_nil, h.caseSensitive⟩
  rw [compile, hoptions]
  dsimp only
  rw [if_pos (hquoted.2 (.inr h.quoted)), hcounts, bounded?_quotedRegex, byteCount_toList]
  split_ifs <;> rfl

/-! ## Escaped patterns -/

/-- The characters that are written with a backslash in front to stand for themselves. -/
def metacharacters : List Char :=
  ['\\', '.', '+', '*', '?', '(', ')', '|', '[', ']', '\x7b', '\x7d', '^', '$', '#', '&', '-', '~']

/-- A character as it is written in a pattern without flags. -/
def escape (c : Char) : List Char := if c ∈ metacharacters then ['\\', c] else [c]

/-- A text as it is written in a pattern without flags. -/
def escaped (text : String) : String := .ofList (text.toList.flatMap escape)

namespace Reader

/-- A backslash in front of a metacharacter makes a literal of it, whether or not white space
counts. -/
theorem escape?_metacharacter {c : Char} (h : c ∈ metacharacters) (x : Bool) (rest : Rest) :
    escape? x (c :: rest) = some (.literal ⟨c, false⟩, rest) := by
  have hall : metacharacters.all isEscapable = true := by decide
  exact if_pos (List.all_eq_true.1 hall c h)

/-- A character that is written with `escape` is read as itself. -/
theorem branches?_escape (c : Char) (fuel : Nat) (names : List (List Char))
    (branches parts : List Tree) (rest : Rest) :
    branches? (fuel + 1) ⟨false, names⟩ branches parts (escape c ++ rest) =
      branches? fuel ⟨false, names⟩ branches (.literal ⟨c, false⟩ :: parts) rest := by
  unfold escape
  split
  · next h =>
    simp only [branches?, skip, List.cons_append, List.nil_append, Bool.false_eq_true, if_false,
      escape?_metacharacter h, Option.bind_eq_bind, Option.bind_some]
  · next h =>
    -- Every branch of the reader but the last one is for a metacharacter.
    simp only [metacharacters, List.mem_cons, List.not_mem_nil, or_false, not_or] at h
    rw [branches?]
    simp only [skip, Bool.false_eq_true, if_false, List.cons_append, List.nil_append]
    split <;> simp_all

/-- The characters of a text, as the parts of a pattern. -/
def literals (text : List Char) : List Tree := text.map fun c => .literal ⟨c, false⟩

/-- Reading consumes the written text to its end, a character at a time. -/
theorem branches?_escaped (text : List Char) {fuel : Nat} (hfuel : text.length < fuel)
    (names : List (List Char)) (branches parts : List Tree) :
    branches? fuel ⟨false, names⟩ branches parts (text.flatMap escape) =
      some (closeBranches branches ((literals text).reverse ++ parts), ⟨false, names⟩, []) := by
  induction text generalizing fuel parts with
  | nil =>
    cases fuel with
    | zero => cases hfuel
    | succ fuel => rfl
  | cons c text ih =>
    cases fuel with
    | zero => cases hfuel
    | succ fuel =>
      rw [List.flatMap_cons, branches?_escape, ih (Nat.lt_of_succ_lt_succ hfuel), literals,
        literals, List.map_cons, List.reverse_cons, List.append_assoc]
      rfl

/-- Literals are not nested. -/
theorem nestingOfAll_literals (text : List Char) : Tree.nestingOfAll (literals text) = 0 := by
  induction text with
  | nil => rfl
  | cons c text ih =>
    rw [literals, List.map_cons, Tree.nestingOfAll, ← literals, ih]
    rfl

/-- A sequence of parts is nested at most once more than its parts. -/
theorem nesting_ofParts_le (parts : List Tree) :
    (Tree.ofParts parts).nesting ≤ Tree.nestingOfAll parts + 1 := by
  fun_cases Tree.ofParts parts with
  | case1 => exact Nat.zero_le _
  | case2 t =>
    rw [Tree.nestingOfAll]
    omega
  | case3 => exact Nat.le_of_eq (Tree.nesting.eq_def _)

/-- A text does not become shorter when it is escaped. -/
theorem length_le_escaped (text : List Char) : text.length ≤ (text.flatMap escape).length := by
  have hpos : ∀ c, 1 ≤ (escape c).length := by
    intro c
    unfold escape
    split <;> simp
  induction text with
  | nil => exact Nat.zero_le _
  | cons c text ih =>
    rw [List.flatMap_cons, List.length_append, List.length_cons]
    have := hpos c
    omega

/-- A text that is written with `escape` is read as the sequence of its characters. -/
theorem pattern?_escaped (text : String) :
    pattern? .nothing (escaped text) = some (Tree.ofParts (literals text.toList)) := by
  have hread := branches?_escaped text.toList (Nat.lt_succ_of_le (length_le_escaped text.toList))
    [] [] []
  have hnesting : (Tree.ofParts (literals text.toList)).nesting ≤ nestingLimit := by
    refine (nesting_ofParts_le _).trans ?_
    rw [nestingOfAll_literals]
    decide
  have hclose : closeBranches [] ((literals text.toList).reverse ++ []) =
      Tree.ofParts (literals text.toList) := by
    rw [closeBranches, List.append_nil, List.reverse_reverse]
    rfl
  rw [hclose] at hread
  unfold pattern? escaped
  rw [String.toList_ofList]
  have hstate : State.change ⟨false, []⟩ .nothing = ⟨false, []⟩ := rfl
  have hparts : FlagChange.nothing.set.isEmpty = true := rfl
  dsimp only
  rw [hstate, if_pos hparts, hread]
  exact if_pos hnesting

end Reader

/-- A sequence of parts has the expressions of the parts, one behind the other. -/
theorem Tree.regex?_ofParts (flags : Flags) (parts : List Tree) :
    (Tree.ofParts parts).regex? flags =
      (Tree.regexes? flags parts).map fun (rs, flags) => (.ofList rs, flags) := by
  fun_cases Tree.ofParts parts with
  | case1 => rfl
  | case2 t =>
    rw [Tree.regexes?]
    cases t.regex? flags with
    | none => rfl
    | some r => rfl
  | case3 =>
    rw [Tree.regex?]
    cases Tree.regexes? flags parts <;> rfl

/-- A literal becomes the set of its character, and no group is counted. -/
theorem Tree.regexes?_literals (text : List Char) :
    Tree.regexes? .initial (Reader.literals text) =
      some ((text.map .single).map .chars, .initial) := by
  induction text with
  | nil => rfl
  | cons c text ih =>
    rw [Reader.literals, List.map_cons, Tree.regexes?, ← Reader.literals]
    have hc : (Tree.literal ⟨c, false⟩).regex? .initial = some (.chars (.single c), .initial) := rfl
    rw [hc]
    dsimp only
    rw [ih]
    rfl

/-- A text that is written with a backslash in front of each metacharacter is a pattern for
itself. -/
theorem compile_escaped (text : String) :
    compile ⟨escaped text, none⟩ = if 32 * text.utf8ByteSize ≤ footprintLimit
      then .ok (quotedRegex false text.toList) else .error .malformed := by
  have hregex : (Tree.ofParts (Reader.literals text.toList)).compiled? =
      (quotedRegex false text.toList).bounded? := by
    rw [Tree.compiled?, Tree.regex?_ofParts, Tree.regexes?_literals, quotedRegex_eq]
    rfl
  have hflags : Options.initial.addAll ((none : Option String).getD "").toList = .ok .initial := rfl
  have hquoted : ¬Options.initial.quoted = true := Bool.false_ne_true
  have hread : Reader.pattern? ⟨Options.initial.flags, []⟩ (escaped text) =
      some (Tree.ofParts (Reader.literals text.toList)) := Reader.pattern?_escaped text
  rw [compile, hflags]
  dsimp only
  rw [if_neg hquoted, hread, Option.bind_some, hregex, bounded?_quotedRegex, byteCount_toList]
  split_ifs <;> rfl

/-! ## Nodes -/

/-- A node satisfies a pattern that can be used if the pattern is found in its text, whatever
patterns are known. -/
theorem exists_evaluate_ofPattern {limit : Nat} {facet : PatternFacet} {r : Regex}
    (hr : compileWithin limit facet = .ok r) {known : KnownPatterns}
    (hknown : PatternsSound limit known) (node : Term) :
    ∃ b, ((NodeConstraint.ofPattern facet).evaluate limit node known).1 = .ok b ∧
      (b = true ↔ ∃ text, node.string? = some text ∧ r.search text.toList = true) := by
  have hcompiles : (NodeConstraint.ofPattern facet).Compiles limit := by
    intro other hother
    cases List.mem_singleton.1 hother
    exact ⟨r, hr⟩
  have hfacet : ∀ text, ((StringFacet.pattern facet).evaluate limit text []).1 =
      .ok (r.search text.toList) := by
    intro text
    simp only [StringFacet.evaluate, findPattern, List.lookup_nil, hr]
  obtain ⟨b, hb⟩ := NodeConstraint.exists_evaluate hcompiles node known
  have hiff : ((NodeConstraint.ofPattern facet).evaluate limit node known).1 = .ok true ↔
      NodeConstraint.StringHolds limit node (.pattern facet) :=
    NodeConstraint.evaluate_string_iff hknown (.pattern facet)
  refine ⟨b, hb, ?_⟩
  rw [← Except.ok.injEq (ε := Failure), ← hb]
  refine hiff.trans (exists_congr fun text => and_congr_right' ?_)
  rw [hfacet, Except.ok.injEq]

/-- A quoted pattern in which case counts, with any of the flags that say nothing about it, is found
in the texts that contain it as it is written.

It can always be used but for its size.  Then a node satisfies it if its text contains the pattern;
a blank node has none.  It means the same as the pattern in which a backslash stands in front of
each metacharacter, without flags, and the same with the flag `q` and any others in any order and
number. -/
theorem compile_quoted {facet : PatternFacet} (h : Quoted facet) :
    (32 * facet.pattern.utf8ByteSize ≤ footprintLimit →
      (∃ r, compile facet = .ok r ∧
        ∀ text : String, r.search text.toList = true ↔ facet.pattern.toList <:+: text.toList) ∧
      ∀ (limit : Nat) (known : KnownPatterns) (node : Term),
        facet.pattern.utf8ByteSize ≤ limit → PatternsSound limit known →
          ∃ b, ((NodeConstraint.ofPattern facet).evaluate limit node known).1 = .ok b ∧
            (b = true ↔
              ∃ text, node.string? = some text ∧ facet.pattern.toList <:+: text.toList)) ∧
    (footprintLimit < 32 * facet.pattern.utf8ByteSize → compile facet = .error .malformed) ∧
    compile facet = compile ⟨escaped facet.pattern, none⟩ ∧
    ∀ flags : Option String, Quoted ⟨facet.pattern, flags⟩ →
      compile ⟨facet.pattern, flags⟩ = compile facet := by
  refine ⟨fun hfits => ?_, fun hlarge => ?_, ?_, fun flags hflags => ?_⟩
  · have hcompile : compile facet = .ok (quotedRegex false facet.pattern.toList) := by
      rw [h.compile_eq, if_pos hfits]
    refine ⟨⟨_, hcompile, fun text => search_quotedRegex_iff⟩, ?_⟩
    intro limit known node hshort hknown
    have hwithin : compileWithin limit facet = .ok (quotedRegex false facet.pattern.toList) :=
      (compileWithin_of_le hshort).trans hcompile
    obtain ⟨b, hb, hholds⟩ := exists_evaluate_ofPattern hwithin hknown node
    exact ⟨b, hb, by simpa only [search_quotedRegex_iff] using hholds⟩
  · rw [h.compile_eq, if_neg (Nat.not_le_of_lt hlarge)]
  · rw [h.compile_eq, compile_escaped]
  · rw [h.compile_eq, hflags.compile_eq]

/-- Metacharacters, white space and a comment mark, all of them quoted. -/
theorem compile_quoted_mixed :
    compile ⟨"(a.b] # \nü", some "xqmsxq"⟩ = compile ⟨"\\(a\\.b\\] \\# \nü", none⟩ ∧
    compile ⟨"(a.b] # \nü", some "q"⟩ = compile ⟨"(a.b] # \nü", some "xqmsxq"⟩ ∧
    (∃ r, compile ⟨"(a.b] # \nü", some "xqmsxq"⟩ = .ok r ∧
      r.search "<(a.b] # \nü>".toList = true) ∧
    ((NodeConstraint.ofPattern ⟨"(a.b] # \nü", some "xqmsxq"⟩).evaluate 20
      (.iri ⟨"(axb] # \nü"⟩) []).1 = .ok false := by
  have hsupported (flags : List Char)
      (h : flags.all (['i', 'm', 's', 'x', 'q'].contains ·) = true) :
      ∀ flag ∈ flags, flag ∈ ['i', 'm', 's', 'x', 'q'] :=
    fun flag hflag => List.contains_iff_mem.1 (List.all_eq_true.1 h flag hflag)
  have hquoted : Quoted ⟨"(a.b] # \nü", some "xqmsxq"⟩ :=
    ⟨hsupported _ (by decide), by decide, by decide⟩
  have hfits : 32 * "(a.b] # \nü".utf8ByteSize ≤ footprintLimit := by decide
  obtain ⟨husable, -, hescaped, hflags⟩ := compile_quoted hquoted
  obtain ⟨⟨r, hr, hsearch⟩, hnode⟩ := husable hfits
  obtain ⟨b, hb, hholds⟩ := hnode 20 [] (.iri ⟨"(axb] # \nü"⟩) (by decide) (patternsSound_nil 20)
  refine ⟨hescaped, hflags _ ⟨hsupported _ (by decide), by decide, by decide⟩, ⟨r, hr, ?_⟩, ?_⟩
  · rw [hsearch]
    exact ⟨['<'], ['>'], rfl⟩
  · cases b with
    | false => exact hb
    | true =>
      obtain ⟨text, htext, hcontains⟩ := hholds.1 rfl
      cases htext
      revert hcontains
      decide

end ShEx.Pattern
