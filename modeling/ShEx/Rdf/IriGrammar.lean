import ShEx.Rdf.BlankNodeLabel

/-!
# The grammar of IRIs

A text is taken apart at its delimiters into scheme, authority, path, query and fragment
(`Parts.ofText`), and each part is held against the characters that RFC 3987 admits there.
`isAbsolute` asks for a whole IRI with a scheme, `isReference` also admits a relative one, and
`resolve` completes a reference from a base.

A percent sign counts only with two hexadecimal digits behind it.  A host in brackets is an
IPv6 address or an address of a future version.
-/

set_option autoImplicit false

namespace ShEx.Rdf.IriGrammar

open BlankNodeLabel (inRanges)

/-- A hexadecimal digit. -/
def isHexDigit (c : Char) : Bool :=
  c.isDigit || ('a' ≤ c && c ≤ 'f') || ('A' ≤ c && c ≤ 'F')

/-- The characters beyond ASCII that stand for themselves everywhere in an IRI. -/
def unreservedRanges : List (Nat × Nat) :=
  [(0xA0, 0xD7FF), (0xF900, 0xFDCF), (0xFDF0, 0xFFEF)] ++
    (List.range 13).map (fun i => ((i + 1) * 0x10000, (i + 1) * 0x10000 + 0xFFFD)) ++
    [(0xE1000, 0xEFFFD)]

/-- The private use characters, admitted in a query only. -/
def privateRanges : List (Nat × Nat) :=
  [(0xE000, 0xF8FF), (0xF0000, 0xFFFFD), (0x100000, 0x10FFFD)]

/-- An unreserved ASCII character. -/
def isAsciiUnreserved (c : Char) : Bool :=
  c.isAlphanum || c = '-' || c = '.' || c = '_' || c = '~'

/-- An unreserved character. -/
def isUnreserved (c : Char) : Bool := isAsciiUnreserved c || inRanges unreservedRanges c

/-- A delimiter inside one part of an IRI. -/
def isSubDelimiter (c : Char) : Bool :=
  ['!', '$', '&', '\'', '(', ')', '*', '+', ',', ';', '='].contains c

/-- A character of the user information before an `@`. -/
def isUserInfoChar (c : Char) : Bool := isUnreserved c || isSubDelimiter c || c = ':'

/-- A character of a host name. -/
def isHostChar (c : Char) : Bool := isUnreserved c || isSubDelimiter c

/-- A character of a path. -/
def isPathChar (c : Char) : Bool :=
  isUnreserved c || isSubDelimiter c || c = ':' || c = '@' || c = '/'

/-- A character of a fragment. -/
def isFragmentChar (c : Char) : Bool := isPathChar c || c = '?'

/-- A character of a query. -/
def isQueryChar (c : Char) : Bool := isFragmentChar c || inRanges privateRanges c

/-- Are all characters admitted, a percent sign counting with two hexadecimal digits? -/
def allAdmitted (admitted : Char → Bool) : List Char → Bool
  | [] => true
  | '%' :: a :: b :: rest => isHexDigit a && isHexDigit b && allAdmitted admitted rest
  | c :: rest => c != '%' && admitted c && allAdmitted admitted rest

/-- The text before the first character with a property, and what begins with it. -/
def splitBefore (stop : Char → Bool) (text : List Char) : List Char × List Char :=
  (text.takeWhile fun c => !stop c, text.dropWhile fun c => !stop c)

/-! ## Addresses -/

/-- The parts of a text between the occurrences of a separator. -/
def separated (separator : Char) : List Char → List (List Char)
  | [] => [[]]
  | c :: rest =>
    if c = separator then [] :: separated separator rest
    else
      match separated separator rest with
      | [] => [[c]]
      | part :: parts => (c :: part) :: parts

/-- A decimal number up to 255 without superfluous zeros. -/
def isDecimalOctet (part : List Char) : Bool :=
  part.all Char.isDigit &&
    match part with
    | [] => false
    | ['0'] => true
    | '0' :: _ => false
    | _ => part.length ≤ 3 && part.foldl (fun n c => 10 * n + (c.toNat - '0'.toNat)) 0 ≤ 255

/-- Four decimal octets separated by points. -/
def isIpv4 (text : List Char) : Bool :=
  let parts := separated '.' text
  parts.length == 4 && parts.all isDecimalOctet

/-- A group of one to four hexadecimal digits. -/
def isHexGroup (part : List Char) : Bool :=
  !part.isEmpty && part.length ≤ 4 && part.all isHexDigit

/-- How many groups of sixteen bits the parts between colons fill, if they are well formed;
an address of four octets fills two and may stand at the end only, where `ipv4` admits it. -/
def groupCount? (ipv4 : Bool) : List (List Char) → Option Nat
  | [] => some 0
  | [part] => if isHexGroup part then some 1 else if ipv4 && isIpv4 part then some 2 else none
  | part :: parts =>
    if isHexGroup part then (groupCount? ipv4 parts).map (· + 1) else none

/-- The groups of a text between colons; the empty text has none. -/
def groupsOf (text : List Char) : List (List Char) :=
  if text.isEmpty then [] else separated ':' text

/-- The text before and after the first double colon, if there is one. -/
def splitDoubleColon : List Char → Option (List Char × List Char)
  | [] => none
  | ':' :: ':' :: rest => some ([], rest)
  | c :: rest => (splitDoubleColon rest).map fun (before, after) => (c :: before, after)

/-- An IPv6 address: eight groups, or fewer around one double colon that stands for at least
one group of zeros.  Octets may take the place of the last two groups. -/
def isIpv6 (text : List Char) : Bool :=
  match splitDoubleColon text with
  | none => groupCount? true (groupsOf text) == some 8
  | some (before, after) =>
    match groupCount? false (groupsOf before), groupCount? true (groupsOf after) with
    | some m, some n => m + n ≤ 7
    | _, _ => false

/-- An address of a future version: `v`, hexadecimal digits, a point and more characters. -/
def isFutureAddress (text : List Char) : Bool :=
  match text with
  | c :: rest =>
    let (version, after) := splitBefore (· = '.') rest
    (c = 'v' || c = 'V') && !version.isEmpty && version.all isHexDigit &&
      match after with
      | '.' :: address =>
        !address.isEmpty &&
          address.all fun d => isAsciiUnreserved d || isSubDelimiter d || d = ':'
      | _ => false
  | [] => false

/-- What may follow a host: digits after a colon, or nothing at all. -/
def isPortPart : List Char → Bool
  | [] => true
  | c :: digits => c = ':' && digits.all Char.isDigit

/-- A host and the digits that may follow it. -/
def isHostAndPort (text : List Char) : Bool :=
  match text with
  | '[' :: rest =>
    let (address, after) := splitBefore (· = ']') rest
    (isIpv6 address || isFutureAddress address) &&
      match after with
      | ']' :: digits => isPortPart digits
      | _ => false
  | _ =>
    let (host, digits) := splitBefore (· = ':') text
    allAdmitted isHostChar host && isPortPart digits

/-- The authority of an IRI: user information before an `@`, then the host. -/
def isAuthority (text : List Char) : Bool :=
  let (user, after) := splitBefore (· = '@') text
  match after with
  | '@' :: host => allAdmitted isUserInfoChar user && isHostAndPort host
  | _ => isHostAndPort text

/-! ## The parts of an IRI -/

/-- An IRI reference taken apart; a part that is missing differs from one that is empty. -/
structure Parts where
  scheme : Option (List Char)
  authority : Option (List Char)
  path : List Char
  query : Option (List Char)
  fragment : Option (List Char)

/-- A scheme: a letter, then letters, digits, plus, hyphen and point. -/
def isScheme : List Char → Bool
  | [] => false
  | c :: rest =>
    c.isAlpha && rest.all fun d => d.isAlphanum || d = '+' || d = '-' || d = '.'

/-- The scheme and what follows its colon; a text without a scheme comes back whole. -/
def splitScheme (text : List Char) : Option (List Char) × List Char :=
  let (scheme, after) := splitBefore (· = ':') text
  match after with
  | ':' :: rest => if isScheme scheme then (some scheme, rest) else (none, text)
  | _ => (none, text)

namespace Parts

/-- The parts of a text. -/
def ofText (text : List Char) : Parts :=
  let (scheme, afterScheme) := splitScheme text
  let (hierarchy, fragment) := splitBefore (· = '#') afterScheme
  let (location, query) := splitBefore (· = '?') hierarchy
  let (authority, path) : Option (List Char) × List Char :=
    match location with
    | '/' :: '/' :: rest =>
      let (authority, path) := splitBefore (· = '/') rest
      (some authority, path)
    | _ => (none, location)
  ⟨scheme, authority, path, query.tail?, fragment.tail?⟩

/-- Do all parts hold only what is admitted in them?  Without a scheme, the path holds no colon
before its first slash. -/
def areAdmitted (p : Parts) : Bool :=
  p.authority.all isAuthority &&
    allAdmitted isPathChar p.path &&
    p.query.all (allAdmitted isQueryChar) &&
    p.fragment.all (allAdmitted isFragmentChar) &&
    (p.scheme.isSome || p.authority.isSome ||
      !(splitBefore (· = '/') p.path).1.contains ':')

/-- The text of the parts put together again. -/
def toText (p : Parts) : List Char :=
  (p.scheme.elim [] (· ++ [':'])) ++ (p.authority.elim [] (['/', '/'] ++ ·)) ++ p.path ++
    (p.query.elim [] ('?' :: ·)) ++ (p.fragment.elim [] ('#' :: ·))

end Parts

/-- Is the text an IRI with a scheme? -/
def isAbsolute (text : String) : Bool :=
  let parts := Parts.ofText text.toList
  parts.scheme.isSome && parts.areAdmitted

/-- Is the text an IRI or a relative reference? -/
def isReference (text : String) : Bool := (Parts.ofText text.toList).areAdmitted

/-! ## Completing a reference from a base -/

/-- The segments of a path without its dot segments; `kept` holds the segments met so far, last
one first. -/
def withoutDots (kept : List (List Char)) : List (List Char) → List (List Char)
  | [] => kept.reverse
  | [last] =>
    if last = ['.'] then ([] :: kept).reverse
    else if last = ['.', '.'] then ([] :: kept.drop 1).reverse
    else (last :: kept).reverse
  | segment :: segments =>
    if segment = ['.'] then withoutDots kept segments
    else if segment = ['.', '.'] then withoutDots (kept.drop 1) segments
    else withoutDots (segment :: kept) segments

/-- A path without its segments `.` and `..`. -/
def normalizedPath (path : List Char) : List Char :=
  match path with
  | '/' :: rest => '/' :: ((withoutDots [] (separated '/' rest)).intersperse ['/']).flatten
  | _ => ((withoutDots [] (separated '/' path)).intersperse ['/']).flatten

/-- The path of a reference beside the last segment of the base's path. -/
def mergedPath (base : Parts) (path : List Char) : List Char :=
  if base.authority.isSome && base.path.isEmpty then '/' :: path
  else (base.path.reverse.dropWhile (· != '/')).reverse ++ path

/-- The reference completed from a base, after RFC 3986. -/
def Parts.resolve (base reference : Parts) : Parts :=
  if reference.scheme.isSome then { reference with path := normalizedPath reference.path }
  else if reference.authority.isSome then
    { reference with scheme := base.scheme, path := normalizedPath reference.path }
  else if reference.path.isEmpty then
    ⟨base.scheme, base.authority, base.path,
      if reference.query.isSome then reference.query else base.query, reference.fragment⟩
  else
    let path :=
      if reference.path.head? = some '/' then reference.path
      else mergedPath base reference.path
    ⟨base.scheme, base.authority, normalizedPath path, reference.query, reference.fragment⟩

/-- The text of a reference completed from the text of a base. -/
def resolve (base reference : String) : String :=
  String.ofList ((Parts.ofText base.toList).resolve (Parts.ofText reference.toList)).toText

end ShEx.Rdf.IriGrammar
