import ShEx.Datatype.Validity
import ShEx.Validation.Failure

/-!
# Does a node satisfy a node constraint?

The parts of a constraint are looked at in a fixed order: the kind of the node, the value set, the
facets of its string, its datatype, the facets of its number.  The first part that fails settles
the answer, so a pattern behind it is not compiled.

Patterns that have been compiled are kept (`KnownPatterns`) and asked for again.  A pattern that
cannot be used is a failure each time it is reached.
-/

set_option autoImplicit false

namespace ShEx

open ShEx.Rdf ShEx.Datatype

/-! ## Value sets -/

/-- Does a text begin with a stem? -/
def hasStem (text stem : String) : Bool := stem.toList.isPrefixOf text.toList

/-- Does an exclusion take a text out of a stem range? -/
def StemExclusion.excludes (text : String) : StemExclusion → Bool
  | .value excluded => text = excluded
  | .stem start => hasStem text start

/-- Is a text in a stem range? -/
def inStemRange (text stem : String) (exclusions : List StemExclusion) : Bool :=
  hasStem text stem && !exclusions.any (·.excludes text)

/-- The first characters of a text that have so many bytes together, if some do. -/
def takeBytes? : List Char → Nat → Option (List Char)
  | _, 0 => some []
  | [], _ + 1 => none
  | c :: rest, n + 1 =>
    if c.utf8Size ≤ n + 1 then (takeBytes? rest (n + 1 - c.utf8Size)).map (c :: ·) else none

/-- Are two texts equal up to the case of their ASCII letters? -/
def equalIgnoringCase (s t : List Char) : Bool := s.map Char.toLower = t.map Char.toLower

/-- Does a language tag begin with a stem, up to the case of ASCII letters? -/
def hasLanguageStem (tag stem : String) : Bool :=
  match takeBytes? tag.toList stem.utf8ByteSize with
  | some start => equalIgnoringCase start stem.toList
  | none => false

/-- Does an exclusion take a language tag out of a stem range? -/
def StemExclusion.excludesLanguage (tag : String) : StemExclusion → Bool
  | .value excluded => equalIgnoringCase tag.toList excluded.toList
  | .stem start => hasLanguageStem tag start

/-- The language tag of a literal that has one that is not empty. -/
def Rdf.Term.languageTag? (node : Term) : Option String :=
  (node.literal?.bind Literal.language?).filter (· != "")

/-- Is a node one of those that an entry of a value set stands for? -/
def ValueSetValue.contains (node : Term) : ValueSetValue → Bool
  | .term expected => node = expected
  | .iriStem stem => node.iri?.any fun i => hasStem i.text stem
  | .iriStemRange stem exclusions => node.iri?.any fun i => inStemRange i.text stem exclusions
  | .literalStem stem => node.literal?.any fun l => hasStem l.lexical stem
  | .literalStemRange stem exclusions =>
    node.literal?.any fun l => inStemRange l.lexical stem exclusions
  | .language tag => node.languageTag?.any fun t => equalIgnoringCase t.toList tag.toList
  | .languageStem stem => node.languageTag?.any fun t => hasLanguageStem t stem
  | .languageStemRange stem exclusions =>
    node.languageTag?.any fun t =>
      hasLanguageStem t stem && !exclusions.any (·.excludesLanguage t)

/-! ## Numbers -/

/-- Does a literal with a numeric value satisfy a facet? -/
def NumericFacet.holds (literal : Literal) (value : NumericLiteral) : NumericFacet → Bool
  | .minInclusive bound =>
    value.compare? bound = some .gt || value.compare? bound = some .eq
  | .minExclusive bound => value.compare? bound = some .gt
  | .maxInclusive bound =>
    value.compare? bound = some .lt || value.compare? bound = some .eq
  | .maxExclusive bound => value.compare? bound = some .lt
  | .totalDigits n => (digitCounts? literal).any fun (total, _) => total ≤ n
  | .fractionDigits n => (digitCounts? literal).any fun (_, fraction) => fraction ≤ n

/-- Does a node satisfy facets of its number?  Without facets every node does, else it has to be
a literal that denotes a number. -/
def numbersHold (node : Term) (facets : List NumericFacet) : Bool :=
  facets.isEmpty ||
    match node.literal? with
    | none => false
    | some l =>
      match parseNumeric l with
      | none => false
      | some value => facets.all (·.holds l value)

/-- Is a node a valid literal of a datatype? -/
def hasDatatype (node : Term) (datatype : Iri) : Bool :=
  node.literal?.any fun l => l.datatype = datatype && isValid l

/-! ## Strings -/

/-- The text that string facets speak about; a blank node has none. -/
def Rdf.Term.string? : Term → Option String
  | .iri i => some i.text
  | .literal l => some l.lexical
  | .blank _ => none

/-- The patterns that have been compiled. -/
abbrev KnownPatterns := List (PatternFacet × Pattern.Regex)

/-- The regular expression of a pattern, compiled now if it is not known. -/
def findPattern (limit : Nat) (facet : PatternFacet) (known : KnownPatterns) :
    Except Failure Pattern.Regex × KnownPatterns :=
  match known.lookup facet with
  | some r => (.ok r, known)
  | none =>
    match Pattern.compileWithin limit facet with
    | .ok r => (.ok r, (facet, r) :: known)
    | .error fault => (.error (.malformedPattern facet.pattern fault), known)

/-- Does a text satisfy a facet? -/
def StringFacet.evaluate (limit : Nat) (text : String) (known : KnownPatterns) :
    StringFacet → Except Failure Bool × KnownPatterns
  | .length n => (.ok (text.toList.length = n), known)
  | .minLength n => (.ok (n ≤ text.toList.length), known)
  | .maxLength n => (.ok (text.toList.length ≤ n), known)
  | .pattern facet =>
    match findPattern limit facet known with
    | (.ok r, known) => (.ok (r.search text.toList), known)
    | (.error f, known) => (.error f, known)

/-- Does a text satisfy all facets?  They are looked at up to the first one that it fails. -/
def stringsEvaluate (limit : Nat) (text : String) (known : KnownPatterns) :
    List StringFacet → Except Failure Bool × KnownPatterns
  | [] => (.ok true, known)
  | facet :: facets =>
    match facet.evaluate limit text known with
    | (.ok true, known) => stringsEvaluate limit text known facets
    | other => other

/-! ## Whole constraints -/

namespace NodeConstraint

/-- The parts that come before the facets of the string. -/
def admits (c : NodeConstraint) (node : Term) : Bool :=
  c.kind.all (·.contains node) && (c.values.isEmpty || c.values.any (·.contains node))

/-- The parts that come behind the facets of the string. -/
def typeHolds (c : NodeConstraint) (node : Term) : Bool :=
  c.datatype.all (hasDatatype node) && numbersHold node c.numbers

/-- The facets of the string; a node without a string fails every facet. -/
def evaluateStrings (c : NodeConstraint) (limit : Nat) (node : Term) (known : KnownPatterns) :
    Except Failure Bool × KnownPatterns :=
  match c.strings, node.string? with
  | [], _ => (.ok true, known)
  | _ :: _, none => (.ok false, known)
  | facets, some text => stringsEvaluate limit text known facets

/-- Does a node satisfy a constraint? -/
def evaluate (c : NodeConstraint) (limit : Nat) (node : Term) (known : KnownPatterns) :
    Except Failure Bool × KnownPatterns :=
  if !c.admits node then (.ok false, known)
  else
    match c.evaluateStrings limit node known with
    | (.ok true, known) => (.ok (c.typeHolds node), known)
    | other => other

end NodeConstraint

end ShEx
