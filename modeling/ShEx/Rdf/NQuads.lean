import ShEx.Rdf.Graph
import ShEx.Rdf.Token

/-!
# N-Triples and N-Quads

Documents that write one triple a line: subject, predicate, object and a point.  In N-Quads a line
may also name a graph; the graphs of a document count as one here.
-/

set_option autoImplicit false

namespace ShEx.Rdf.NQuads

/-- The text without the blanks in front. -/
def skipBlanks (text : List Char) : List Char := text.dropWhile fun c => c = ' ' || c = '\t'

/-- The IRI in front of a text, which has to be absolute. -/
def iri? (text : List Char) : Option (Iri × List Char) :=
  match Token.iri? text with
  | some (iri, rest) => if IriGrammar.isAbsolute iri then some (⟨iri⟩, rest) else none
  | none => none

/-- The subject or graph name in front of a text. -/
def resource? (text : List Char) : Option (Resource × List Char) :=
  ((iri? text).map fun (iri, rest) => (.iri iri, rest)).or <|
    (Token.blankNode? text).map fun (node, rest) => (.blank node, rest)

/-- The literal in front of a text. -/
def literal? (text : List Char) : Option (Literal × List Char) := do
  let (lexical, rest) ← Token.string? text
  match skipBlanks rest with
  | '@' :: after => (Token.languageTag? after).map fun (tag, rest) => (.tagged lexical tag, rest)
  | '^' :: '^' :: after =>
    (iri? (skipBlanks after)).map fun (datatype, rest) => (.typed lexical datatype, rest)
  | _ => pure (.simple lexical, rest)

/-- The object in front of a text. -/
def object? (text : List Char) : Option (Term × List Char) :=
  ((resource? text).map fun (r, rest) => (r.toTerm, rest)).or <|
    (literal? text).map fun (l, rest) => (.literal l, rest)

/-- The text behind the name of a graph, if there is one and it is admitted. -/
def skipGraphName (admitted : Bool) (text : List Char) : List Char :=
  if admitted then (resource? text).elim text (·.2) else text

/-- Does nothing follow but blanks and a comment? -/
def isEnd (text : List Char) : Bool :=
  match skipBlanks text with
  | [] => true
  | c :: _ => c = '#'

/-- The triple of a line that is not empty. -/
def triple? (graphNames : Bool) (line : List Char) : Option Triple := do
  let (subject, rest) ← resource? (skipBlanks line)
  let (predicate, rest) ← iri? (skipBlanks rest)
  let (object, rest) ← object? (skipBlanks rest)
  match skipBlanks (skipGraphName graphNames (skipBlanks rest)) with
  | '.' :: rest => if isEnd rest then some ⟨subject, predicate, object⟩ else none
  | _ => none

/-- The lines of a text. -/
def lines (text : List Char) : List (List Char) :=
  IriGrammar.separated '\n' (text.map fun c => if c = '\r' then '\n' else c)

/-- The triples of a document. -/
def triples? (graphNames : Bool) (text : List Char) : Option (List Triple) :=
  ((lines text).filter fun line => !isEnd line).mapM (triple? graphNames)

end ShEx.Rdf.NQuads
