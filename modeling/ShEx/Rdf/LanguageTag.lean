/-!
# Language tags

Which texts are well-formed language tags in the sense of RFC 5646.  A tag is a list of subtags
separated by hyphens: a grandfathered tag, a private use tag, or a language with its extended
languages, script, region, variants, extensions and private use part, in this order.

The subtags are read one after the other by `Position.next?`, which says where in the tag one
stands; a tag is well formed if every subtag can be read and the last position may end a tag.
Tags are compared in lower case, so all tests here are on lower case text.
-/

set_option autoImplicit false

namespace ShEx.Rdf.LanguageTag

/-- The tags that RFC 5646 admits although they do not follow its grammar. -/
def grandfathered : List String :=
  ["en-gb-oed", "i-ami", "i-bnn", "i-default", "i-enochian", "i-hak", "i-klingon", "i-lux",
    "i-mingo", "i-navajo", "i-pwn", "i-tao", "i-tay", "i-tsu", "sgn-be-fr", "sgn-be-nl",
    "sgn-ch-de", "art-lojban", "cel-gaulish", "no-bok", "no-nyn", "zh-guoyu", "zh-hakka",
    "zh-min", "zh-min-nan", "zh-xiang"]

/-- The text with its ASCII letters in lower case. -/
def lowerCase (tag : String) : String := String.ofList (tag.toList.map Char.toLower)

/-- The parts of a text between its hyphens; there is always at least one. -/
def subtags : List Char → List (List Char)
  | [] => [[]]
  | c :: rest =>
    if c = '-' then [] :: subtags rest
    else
      match subtags rest with
      | [] => [[c]]
      | part :: parts => (c :: part) :: parts

/-- What the reader has met so far. -/
inductive Position where
  | start
  /-- After a language of two or three letters and this many extended languages. -/
  | afterShortLanguage (extended : Nat)
  | afterLanguage
  | afterScript
  /-- After a region or a variant. -/
  | afterRegion
  /-- Inside an extension; `isOpen` as long as nothing has followed its singleton. -/
  | inExtension (isOpen : Bool)
  /-- Inside the private use part; `isOpen` as long as nothing has followed its `x`. -/
  | inPrivateUse (isOpen : Bool)
deriving DecidableEq

/-- Only ASCII letters. -/
def allLetters (part : List Char) : Bool := part.all Char.isAlpha

/-- Only ASCII digits. -/
def allDigits (part : List Char) : Bool := part.all Char.isDigit

/-- Only ASCII letters and digits. -/
def allAlphanumeric (part : List Char) : Bool := part.all Char.isAlphanum

/-- A region: two letters or three digits. -/
def isRegion (part : List Char) : Bool :=
  (part.length == 2 && allLetters part) || (part.length == 3 && allDigits part)

/-- A variant: five to eight characters from a letter on, or four to eight from a digit on. -/
def isVariant (part : List Char) : Bool :=
  allAlphanumeric part &&
    match part with
    | [] => false
    | c :: _ => (c.isAlpha && 5 ≤ part.length) || (c.isDigit && 4 ≤ part.length)

namespace Position

/-- May a script follow? -/
def allowsScript : Position → Bool
  | .afterShortLanguage _ => true
  | .afterLanguage => true
  | _ => false

/-- May a region follow? -/
def allowsRegion : Position → Bool
  | .afterScript => true
  | p => p.allowsScript

/-- May a variant follow? -/
def allowsVariant : Position → Bool
  | .afterRegion => true
  | p => p.allowsRegion

/-- May the tag end here? -/
def mayEnd : Position → Bool
  | .start => false
  | .inExtension isOpen => !isOpen
  | .inPrivateUse isOpen => !isOpen
  | _ => true

/-- Script, region and variants, in the positions that allow them. -/
def later? (p : Position) (part : List Char) : Option Position :=
  if p.allowsScript && part.length == 4 && allLetters part then some .afterScript
  else if p.allowsRegion && isRegion part then some .afterRegion
  else if p.allowsVariant && isVariant part then some .afterRegion
  else none

/-- The position after one more subtag, if it may stand there. -/
def next? (p : Position) (part : List Char) : Option Position :=
  if part.isEmpty || 8 < part.length || !allAlphanumeric part then none
  else
    match p with
    | .start =>
      if 2 ≤ part.length && allLetters part then
        some (if part.length < 4 then .afterShortLanguage 0 else .afterLanguage)
      else none
    | .inPrivateUse _ => some (.inPrivateUse false)
    | _ =>
      if part.length = 1 then
        if p = .inExtension true then none
        else if part = ['x'] then some (.inPrivateUse true)
        else some (.inExtension true)
      else
        match p with
        | .inExtension _ => some (.inExtension false)
        | .afterShortLanguage extended =>
          if part.length = 3 && allLetters part then
            if extended < 3 then some (.afterShortLanguage (extended + 1)) else none
          else p.later? part
        | _ => p.later? part

/-- The position after all subtags of a list. -/
def after? (p : Position) : List (List Char) → Option Position
  | [] => some p
  | part :: parts =>
    match p.next? part with
    | none => none
    | some q => q.after? parts

end Position

/-- Is the tag, written in lower case, well formed? -/
def isWellFormed (tag : String) : Bool :=
  grandfathered.contains tag ||
    match subtags tag.toList with
    | ['x'] :: parts =>
      !parts.isEmpty && parts.all fun part =>
        !part.isEmpty && part.length ≤ 8 && allAlphanumeric part
    | parts =>
      match Position.start.after? parts with
      | some p => p.mayEnd
      | none => false

end ShEx.Rdf.LanguageTag
