import ShEx.Rdf.Graph
import ShEx.Rdf.Token

/-!
# Turtle

Documents that write triples with prefixes and relative IRIs, with the predicates of one subject
and the objects of one predicate in lists, and with blank nodes and collections in brackets.

A reader goes through the text with a state of its own: the base, the prefixes, the triples met so
far and the number of blank nodes it has made up.  Their identifiers begin with a text that no
identifier of the document begins with.
-/

set_option autoImplicit false

namespace ShEx.Rdf.Turtle

/-- The state of a reader. -/
structure State where
  rest : List Char
  base : String
  prefixes : List (String × String)
  /-- What the identifiers of made up blank nodes begin with. -/
  freshStem : String
  madeUp : Nat
  /-- The triples met so far, last one first. -/
  triples : List Triple

/-- A step of reading, which may fail. -/
abbrev Reader (α : Type) := StateT State Option α

/-! ## Tokens -/

/-- The text without the blanks and comments in front; `inComment` tells that a comment has
begun. -/
def withoutBlanks (inComment : Bool) : List Char → List Char
  | [] => []
  | c :: rest =>
    if inComment then withoutBlanks (c != '\n' && c != '\r') rest
    else if c = ' ' || c = '\t' || c = '\n' || c = '\r' then withoutBlanks false rest
    else if c = '#' then withoutBlanks true rest
    else c :: rest

/-- The text in front of the reader, blanks and comments left out. -/
def ahead : Reader (List Char) := do
  modify fun s => { s with rest := withoutBlanks false s.rest }
  pure (← get).rest

/-- Goes on behind what has been read. -/
def goOn (rest : List Char) : Reader Unit := modify fun s => { s with rest := rest }

/-- Goes on with the result of a function that takes something off the front of the text. -/
def taking {α : Type} (read : List Char → Option (α × List Char)) : Reader α := do
  match read (← ahead) with
  | some (a, rest) =>
    goOn rest
    pure a
  | none => failure

/-- Goes on behind a character, if it is the next one. -/
def skipIf (c : Char) : Reader Bool := do
  match ← ahead with
  | d :: rest =>
    if c = d then
      goOn rest
      pure true
    else pure false
  | [] => pure false

/-- Goes on behind a character, which has to be the next one. -/
def expect (c : Char) : Reader Unit := do
  if ← skipIf c then pure () else failure

/-- Is the text in front of the reader a keyword in any case, and not part of a name? -/
def keyword (word : String) : Reader Bool := do
  let text ← ahead
  let n := word.length
  let isWhole := (text.drop n).head?.all fun c => !Token.isNameChar c && c != ':'
  if isWhole && (text.take n).map Char.toUpper = word.toList then
    goOn (text.drop n)
    pure true
  else pure false

/-! ## Terms -/

/-- The IRI of a reference, completed from the base. -/
def resolved (reference : String) : Reader Iri := do
  let s ← get
  let text := IriGrammar.resolve s.base reference
  if IriGrammar.isReference reference && IriGrammar.isAbsolute text then
    pure ⟨text⟩
  else failure

/-- An IRI between angle brackets. -/
def bracketedIri : Reader Iri := do resolved (← taking Token.iri?)

/-- Characters that stand in the local part of a name behind a backslash. -/
def isEscapable (c : Char) : Bool := "_~.-!$&'()*+,;=/?#@%".toList.contains c

/-- The local part of a name. -/
def localPart : List Char → List Char × List Char
  | '\\' :: c :: rest =>
    if isEscapable c then
      let (later, left) := localPart rest
      (c :: later, left)
    else ([], '\\' :: c :: rest)
  | '.' :: rest =>
    let (later, left) := localPart rest
    if later.isEmpty then ([], '.' :: rest) else ('.' :: later, left)
  | c :: rest =>
    if Token.isNameChar c || c = ':' || c = '%' then
      let (later, left) := localPart rest
      (c :: later, left)
    else ([], c :: rest)
  | [] => ([], [])

/-- The prefix of a name, up to its colon. -/
def prefixPart? (text : List Char) : Option (String × List Char) :=
  let (name, rest) := Token.dottedName text
  match rest with
  | ':' :: rest => some (String.ofList name, rest)
  | _ => none

/-- A name with a prefix. -/
def prefixedIri : Reader Iri := do
  let stem ← taking prefixPart?
  let (tail, rest) := localPart (← get).rest
  goOn rest
  match (← get).prefixes.lookup stem with
  | none => failure
  | some start =>
    let text := start ++ String.ofList tail
    if IriGrammar.isAbsolute text then pure ⟨text⟩ else failure

/-- An IRI, in brackets or as a name. -/
def iri : Reader Iri := do
  match ← ahead with
  | '<' :: _ => bracketedIri
  | _ => prefixedIri

/-- A blank node that no text names. -/
def fresh : Reader Resource := do
  let s ← get
  set { s with madeUp := s.madeUp + 1 }
  pure (.blank ⟨s.freshStem ++ toString s.madeUp⟩)

/-- A string between quotes of either kind, one or three of them. -/
def string : Reader String :=
  taking fun text =>
    match text with
    | '"' :: '"' :: '"' :: rest => Token.stringAfter? ['"', '"', '"'] true rest
    | '\'' :: '\'' :: '\'' :: rest => Token.stringAfter? ['\'', '\'', '\''] true rest
    | '"' :: rest => Token.stringAfter? ['"'] false rest
    | '\'' :: rest => Token.stringAfter? ['\''] false rest
    | _ => none

/-- A literal between quotes. -/
def literal : Reader Literal := do
  let lexical ← string
  match ← ahead with
  | '@' :: rest =>
    goOn rest
    pure (.tagged lexical (← taking Token.languageTag?))
  | '^' :: '^' :: rest =>
    goOn rest
    pure (.typed lexical (← iri))
  | _ => pure (.simple lexical)

/-- The exponent of a number, if there is one. -/
def exponentPart (text : List Char) : List Char :=
  match text with
  | e :: rest =>
    if e = 'e' || e = 'E' then
      let sign := (rest.take 1).filter fun c => c = '+' || c = '-'
      let digits := (rest.drop sign.length).takeWhile Char.isDigit
      if digits.isEmpty then [] else e :: (sign ++ digits)
    else []
  | [] => []

/-- The fraction of a number with its point, if there is one; behind a point without digits only
an exponent makes it part of the number. -/
def fractionPart (text : List Char) : List Char :=
  match text with
  | '.' :: rest =>
    let digits := rest.takeWhile Char.isDigit
    if digits.isEmpty && (exponentPart rest).isEmpty then [] else '.' :: digits
  | _ => []

/-- A number: an integer, a decimal with a point, or a double with an exponent. -/
def number? (text : List Char) : Option (Literal × List Char) :=
  let sign := (text.take 1).filter fun c => c = '+' || c = '-'
  let digits := (text.drop sign.length).takeWhile Char.isDigit
  let fraction := fractionPart (text.drop (sign.length + digits.length))
  let exponent := exponentPart (text.drop (sign.length + digits.length + fraction.length))
  let all := sign ++ digits ++ fraction ++ exponent
  let datatype :=
    if !exponent.isEmpty then "double" else if !fraction.isEmpty then "decimal" else "integer"
  if digits.isEmpty && fraction.length < 2 then none
  else some (.typed (String.ofList all) (Vocabulary.xsd datatype), text.drop all.length)

/-- A Boolean. -/
def boolean? (text : List Char) : Option (Literal × List Char) :=
  let word := text.takeWhile Char.isAlpha
  let rest := text.drop word.length
  if (word = "true".toList || word = "false".toList) &&
      rest.head?.all fun c => !Token.isNameChar c && c != ':' then
    some (.typed (String.ofList word) (Vocabulary.xsd "boolean"), rest)
  else none

/-! ## Triples -/

/-- Keeps a triple. -/
def keep (subject : Resource) (predicate : Iri) (object : Term) : Reader Unit :=
  modify fun s => { s with triples := ⟨subject, predicate, object⟩ :: s.triples }

/-- A predicate; `a` stands for `rdf:type`. -/
def predicate : Reader Iri := do
  match ← ahead with
  | 'a' :: rest =>
    if rest.head?.all fun c => !Token.isNameChar c && c != ':' && c != '.' then
      goOn rest
      pure (Vocabulary.rdf "type")
    else iri
  | _ => iri

/-- Reads something as often as a separator stands behind it, at most so often. -/
def separatedBy (separator : Char) (item : Reader Unit) : Nat → Reader Unit
  | 0 => failure
  | n + 1 => do
    item
    if ← skipIf separator then separatedBy separator item n else pure ()

/-- Does the list of predicates end here? -/
def endsPredicates : List Char → Bool
  | [] => true
  | c :: _ => c = '.' || c = ']' || c = ';'

/-- What follows a subject: predicates with their objects, at least one, where nothing may stand
between two semicolons. -/
def predicates (object : Reader Term) (subject : Resource) (steps : Nat) : Reader Unit := do
  if endsPredicates (← ahead) then failure
  separatedBy ';' (do
    if endsPredicates (← ahead) then pure ()
    else
      let p ← predicate
      separatedBy ',' (do keep subject p (← object)) steps) steps

/-- The items of a collection up to its closing parenthesis, as a chain of blank nodes. -/
def items (object : Reader Term) : Nat → Reader Resource
  | 0 => failure
  | n + 1 => do
    if ← skipIf ')' then pure (.iri (Vocabulary.rdf "nil"))
    else
      let node ← fresh
      keep node (Vocabulary.rdf "first") (← object)
      let later ← items object n
      keep node (Vocabulary.rdf "rest") later.toTerm
      pure node

/-- A blank node in brackets, the opening one already read, with its predicates if it has any; and
whether it has any. -/
def bracketed (object : Reader Term) (steps : Nat) : Reader (Resource × Bool) := do
  let node ← fresh
  if ← skipIf ']' then pure (node, false)
  else
    predicates object node steps
    expect ']'
    pure (node, true)

/-- A term in the place of an object.  Brackets are read inside each other at most so deep. -/
def object (steps : Nat) : Nat → Reader Term
  | 0 => failure
  | depth + 1 => do
    match ← ahead with
    | '<' :: _ => do pure (.iri (← bracketedIri))
    | '_' :: ':' :: _ => do pure (.blank (← taking Token.blankNode?))
    | '[' :: rest =>
      goOn rest
      pure (← bracketed (object steps depth) steps).1.toTerm
    | '(' :: rest =>
      goOn rest
      pure (← items (object steps depth) steps).toTerm
    | '"' :: _ => do pure (.literal (← literal))
    | '\'' :: _ => do pure (.literal (← literal))
    | text =>
      match (number? text).or (boolean? text) with
      | some (l, rest) =>
        goOn rest
        pure (.literal l)
      | none => do pure (.iri (← prefixedIri))

/-- A subject with its predicates, up to the point. -/
def statement (steps : Nat) : Reader Unit := do
  let terms := object steps steps
  match ← ahead with
  | '[' :: rest =>
    goOn rest
    let (subject, described) ← bracketed terms steps
    if described && (← skipIf '.') then pure ()
    else
      predicates terms subject steps
      expect '.'
  | '(' :: rest =>
    goOn rest
    let subject ← items terms steps
    predicates terms subject steps
    expect '.'
  | '_' :: ':' :: _ =>
    let node ← taking Token.blankNode?
    predicates terms (.blank node) steps
    expect '.'
  | _ =>
    let subject ← iri
    predicates terms (.iri subject) steps
    expect '.'

/-! ## Directives -/

/-- The name and the IRI of a prefix. -/
def prefixDirective : Reader Unit := do
  let name ← taking prefixPart?
  let iri ← bracketedIri
  modify fun s => { s with prefixes := (name, iri.text) :: s.prefixes }

/-- The IRI of a base. -/
def baseDirective : Reader Unit := do
  let iri ← bracketedIri
  modify fun s => { s with base := iri.text }

/-- A directive behind its `@`, up to the point. -/
def directive : Reader Unit := do
  let text ← ahead
  let word := text.takeWhile Char.isAlpha
  goOn (text.drop word.length)
  if word = "prefix".toList then prefixDirective
  else if word = "base".toList then baseDirective
  else failure
  expect '.'

/-- A statement or a directive. -/
def block (steps : Nat) : Reader Unit := do
  if ← skipIf '@' then directive
  else if ← keyword "PREFIX" then prefixDirective
  else if ← keyword "BASE" then baseDirective
  else statement steps

/-- Statements and directives up to the end of the text, at most so many. -/
def blocks (steps : Nat) : Nat → Reader Unit
  | 0 => failure
  | n + 1 => do
    if (← ahead).isEmpty then pure ()
    else
      block steps
      blocks steps n

/-! ## Documents -/

/-- Does a text occur in another one? -/
def occurs (part : List Char) : List Char → Bool
  | [] => part.isEmpty
  | c :: rest => part.isPrefixOf (c :: rest) || occurs part rest

/-- A stem that no identifier of a document begins with: `b` with as many underscores as it
takes. -/
def freshStem (text : List Char) : Nat → String → String
  | 0, stem => stem
  | n + 1, stem =>
    if occurs ("_:" ++ stem).toList text then freshStem text n (stem ++ "_") else stem

/-- The triples of a document whose relative IRIs are completed from a base. -/
def triples? (base : String) (text : List Char) : Option (List Triple) :=
  let steps := text.length + 1
  let start : State := ⟨text, base, [], freshStem text steps "b", 0, []⟩
  ((blocks steps steps).run start).map fun (_, s) => s.triples.reverse

end ShEx.Rdf.Turtle
