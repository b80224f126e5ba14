import ShEx.Rdf.BlankNodeLabel
import ShEx.Rdf.IriGrammar
import ShEx.Rdf.LanguageTag
import ShEx.Rdf.Term

/-!
# Terms in RDF documents

How documents write the parts of terms: an IRI between angle brackets, a blank node behind `_:`, a
string between quotes, a language tag behind `@`.  Each function takes what it reads off the front
of a text and gives the rest.
-/

set_option autoImplicit false

namespace ShEx.Rdf.Token

open BlankNodeLabel (isLetter inRanges)

/-- The value of a hexadecimal digit. -/
def hexDigit? (c : Char) : Option Nat :=
  if c.isDigit then some (c.toNat - '0'.toNat)
  else if 'a' ≤ c && c ≤ 'f' then some (c.toNat - 'a'.toNat + 10)
  else if 'A' ≤ c && c ≤ 'F' then some (c.toNat - 'A'.toNat + 10)
  else none

/-- The character whose code point is given by so many hexadecimal digits. -/
def numbered? (digits : Nat) (text : List Char) : Option (Char × List Char) := do
  let values ← (text.take digits).mapM hexDigit?
  let n := values.foldl (fun n v => 16 * n + v) 0
  if values.length = digits && n.isValidChar then some (Char.ofNat n, text.drop digits) else none

/-- The character that a letter behind a backslash stands for in a string. -/
def escaped? : Char → Option Char
  | 't' => some '\t'
  | 'b' => some '\x08'
  | 'n' => some '\n'
  | 'r' => some '\r'
  | 'f' => some '\x0c'
  | '"' => some '"'
  | '\'' => some '\''
  | '\\' => some '\\'
  | _ => none

/-- Characters that an IRI holds only by their number. -/
def isExcluded (c : Char) : Bool :=
  c.toNat ≤ 0x20 || ['<', '"', '\x7b', '\x7d', '|', '^', '\x60'].contains c

/-- The text of an IRI up to its closing bracket; it is read within so many steps. -/
def iriBody? : Nat → List Char → Option (List Char × List Char)
  | 0, _ => none
  | _, [] => none
  | _ + 1, '>' :: rest => some ([], rest)
  | n + 1, '\\' :: 'u' :: rest => do
    let (c, rest) ← numbered? 4 rest
    let (later, rest) ← iriBody? n rest
    pure (c :: later, rest)
  | n + 1, '\\' :: 'U' :: rest => do
    let (c, rest) ← numbered? 8 rest
    let (later, rest) ← iriBody? n rest
    pure (c :: later, rest)
  | n + 1, c :: rest =>
    if c = '\\' || isExcluded c then none
    else do
      let (later, rest) ← iriBody? n rest
      pure (c :: later, rest)

/-- The text of an IRI between angle brackets. -/
def iri? : List Char → Option (String × List Char)
  | '<' :: rest => (iriBody? (rest.length + 1) rest).map fun (cs, rest) => (String.ofList cs, rest)
  | _ => none

/-- A character inside a name: a letter, a digit, an underscore, a hyphen or a combining sign. -/
def isNameChar (c : Char) : Bool :=
  isLetter c || c.isDigit || c = '_' || c = '-' ||
    inRanges [(0xB7, 0xB7), (0x300, 0x36F), (0x203F, 0x2040)] c

/-- Splits off name characters and points; points at the end do not belong to the name. -/
def dottedName (text : List Char) : List Char × List Char :=
  let isPart (c : Char) : Bool := isNameChar c || c = '.'
  let name := text.takeWhile isPart
  let kept := (name.reverse.dropWhile (· = '.')).reverse
  (kept, text.drop kept.length)

/-- The blank node behind `_:`. -/
def blankNode? : List Char → Option (BlankNode × List Char)
  | '_' :: ':' :: rest =>
    let (name, rest) := dottedName rest
    match name with
    | [] => none
    | c :: _ =>
      if isLetter c || c.isDigit || c = '_' then some (⟨String.ofList name⟩, rest) else none
  | _ => none

/-- The body of a string up to its closing quotes; line ends are admitted in a long string only.
It is read within so many steps. -/
def stringBody? (quotes : List Char) (isLong : Bool) :
    Nat → List Char → Option (List Char × List Char)
  | 0, _ => none
  | _, [] => none
  | n + 1, text@(c :: rest) =>
    if quotes.isPrefixOf text then some ([], text.drop quotes.length)
    else if c = '\\' then do
      let (c, rest) ←
        match rest with
        | 'u' :: rest => numbered? 4 rest
        | 'U' :: rest => numbered? 8 rest
        | e :: rest => (escaped? e).map (·, rest)
        | [] => none
      let (later, rest) ← stringBody? quotes isLong n rest
      pure (c :: later, rest)
    else if !isLong && (c = '\n' || c = '\r') then none
    else do
      let (later, rest) ← stringBody? quotes isLong n rest
      pure (c :: later, rest)

/-- A string behind its opening quotes. -/
def stringAfter? (quotes : List Char) (isLong : Bool) (text : List Char) :
    Option (String × List Char) :=
  (stringBody? quotes isLong (text.length + 1) text).map fun (cs, rest) =>
    (String.ofList cs, rest)

/-- A string between double quotes. -/
def string? : List Char → Option (String × List Char)
  | '"' :: rest => stringAfter? ['"'] false rest
  | _ => none

/-- A language tag, in lower case. -/
def languageTag? (text : List Char) : Option (String × List Char) :=
  let isPart (c : Char) : Bool := c.isAlphanum || c = '-'
  let tag := LanguageTag.lowerCase (String.ofList (text.takeWhile isPart))
  if LanguageTag.isWellFormed tag then some (tag, text.dropWhile isPart) else none

end ShEx.Rdf.Token
