/-!
# RDF terms

An RDF graph is built from IRIs, blank nodes and literals.  This module holds these terms,
the datatype a literal has, and the one-line written form of a term: `<iri>`, `_:id`,
`"lexical"`, `"lexical"@tag` or `"lexical"^^<datatype>`.

Terms carry their text as it is: whether an IRI, a blank node identifier or a language tag is
well formed is asked where text is read, by `IriGrammar`, `BlankNodeLabel` and `LanguageTag`.
-/

set_option autoImplicit false

namespace ShEx.Rdf

/-- An IRI, kept as its text. -/
structure Iri where
  text : String
deriving DecidableEq, Hashable, Inhabited

/-- A blank node, named inside one document by its identifier. -/
structure BlankNode where
  id : String
deriving DecidableEq, Hashable, Inhabited

/-- What can be the subject of a triple, or the label of a shape: an IRI or a blank node. -/
inductive Resource where
  | iri (iri : Iri)
  | blank (node : BlankNode)
deriving DecidableEq, Hashable, Inhabited

/-- A literal: a lexical form with a datatype, or with a language tag. -/
inductive Literal where
  | typed (lexical : String) (datatype : Iri)
  | tagged (lexical : String) (language : String)
deriving DecidableEq, Hashable, Inhabited

/-- An RDF term. -/
inductive Term where
  | iri (iri : Iri)
  | blank (node : BlankNode)
  | literal (literal : Literal)
deriving DecidableEq, Hashable, Inhabited

namespace Vocabulary

/-- The IRI of a name in the XML Schema namespace. -/
def xsd (name : String) : Iri := ⟨"http://www.w3.org/2001/XMLSchema#" ++ name⟩

/-- The IRI of a name in the RDF namespace. -/
def rdf (name : String) : Iri := ⟨"http://www.w3.org/1999/02/22-rdf-syntax-ns#" ++ name⟩

/-- The datatype of a literal written without datatype and language tag. -/
def xsdString : Iri := xsd "string"

/-- The datatype of every literal with a language tag. -/
def rdfLangString : Iri := rdf "langString"

end Vocabulary

namespace Literal

/-- A literal written as plain text has datatype `xsd:string`. -/
def simple (lexical : String) : Literal := .typed lexical Vocabulary.xsdString

/-- The lexical form. -/
def lexical : Literal → String
  | .typed lexical _ => lexical
  | .tagged lexical _ => lexical

/-- The datatype; a literal with a language tag has `rdf:langString`. -/
def datatype : Literal → Iri
  | .typed _ datatype => datatype
  | .tagged _ _ => Vocabulary.rdfLangString

/-- The language tag, if there is one. -/
def language? : Literal → Option String
  | .typed _ _ => none
  | .tagged _ language => some language

end Literal

namespace Resource

/-- The resource as a term. -/
def toTerm : Resource → Term
  | .iri i => .iri i
  | .blank b => .blank b

/-- The IRI of a resource that has one. -/
def iri? : Resource → Option Iri
  | .iri i => some i
  | .blank _ => none

end Resource

namespace Term

/-- A term that can be a subject, as a resource; a literal is none. -/
def resource? : Term → Option Resource
  | .iri i => some (.iri i)
  | .blank b => some (.blank b)
  | .literal _ => none

/-- The literal, if the term is one. -/
def literal? : Term → Option Literal
  | .literal l => some l
  | _ => none

/-- The IRI, if the term is one. -/
def iri? : Term → Option Iri
  | .iri i => some i
  | _ => none

end Term

/-- Upper case hexadecimal digit of a number below sixteen. -/
def upperHexDigit (n : Nat) : Char :=
  if n < 10 then Char.ofNat ('0'.toNat + n) else Char.ofNat ('A'.toNat + (n - 10))

/-- A code point below 65536 as four upper case hexadecimal digits after a `u`. -/
def fourHexDigits (n : Nat) : List Char :=
  [upperHexDigit (n / 4096 % 16), upperHexDigit (n / 256 % 16),
    upperHexDigit (n / 16 % 16), upperHexDigit (n % 16)]

/-- How one character stands inside the quotes of a written literal: the control characters,
the quote, the backslash and the two last characters of the basic plane are escaped. -/
def quotedChar (c : Char) : List Char :=
  if c = '\x08' then ['\\', 'b']
  else if c = '\t' then ['\\', 't']
  else if c = '\n' then ['\\', 'n']
  else if c = '\x0c' then ['\\', 'f']
  else if c = '\r' then ['\\', 'r']
  else if c = '"' then ['\\', '"']
  else if c = '\\' then ['\\', '\\']
  else if c.toNat < 0x20 || c = '\x7f' || c = '\ufffe' || c = '\uffff' then
    '\\' :: 'u' :: fourHexDigits c.toNat
  else [c]

/-- A text between quotes, escaped character by character. -/
def quoted (text : String) : String :=
  String.ofList ('"' :: (text.toList.flatMap quotedChar ++ ['"']))

/-- The written form of an IRI. -/
def Iri.written (iri : Iri) : String := "<" ++ iri.text ++ ">"

/-- The written form of a blank node. -/
def BlankNode.written (node : BlankNode) : String := "_:" ++ node.id

/-- The written form of a literal; `xsd:string` is left out. -/
def Literal.written : Literal → String
  | .typed lexical datatype =>
    if datatype = Vocabulary.xsdString then quoted lexical
    else quoted lexical ++ "^^" ++ datatype.written
  | .tagged lexical language => quoted lexical ++ "@" ++ language

/-- The written form of a resource. -/
def Resource.written : Resource → String
  | .iri i => i.written
  | .blank b => b.written

/-- The written form of a term. -/
def Term.written : Term → String
  | .iri i => i.written
  | .blank b => b.written
  | .literal l => l.written

end ShEx.Rdf
