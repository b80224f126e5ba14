import ShEx.Json.Record
import ShEx.Rdf.BlankNodeLabel
import ShEx.Rdf.IriGrammar
import ShEx.Rdf.LanguageTag
import ShEx.ShExJ.LoadError

/-!
# Terms in documents

A document writes an IRI as its text, a blank node as its identifier behind `_:`, and a literal as
a record of its lexical form with a datatype or a language tag.  Here the terms have to be well
formed, and language tags are kept in lower case.
-/

set_option autoImplicit false

namespace ShEx.ShExJ

open ShEx.Rdf

/-- A literal as it is written. -/
structure LiteralEntry where
  lexical : String
  datatype : Option String
  language : Option String
deriving DecidableEq

/-- The fields of a literal. -/
def literalFields : List Json.Field := [.plain "value", .plain "type", .plain "language"]

/-- Reads a literal. -/
def literal? (v : Json) : Option LiteralEntry := do
  let r ← Json.Record.of? literalFields v
  pure
    { lexical := ← r.required? "value" Json.string?
      datatype := ← r.optional? "type" Json.string?
      language := ← r.optional? "language" Json.string? }

/-- The IRI of a text. -/
def iri (text : String) : Except LoadError Iri :=
  if IriGrammar.isAbsolute text then .ok ⟨text⟩ else .error (.invalidIri text)

/-- The identifier of a text that begins with `_:`. -/
def blankNodeId? (text : String) : Option String :=
  match text.toList with
  | '_' :: ':' :: id => some (String.ofList id)
  | _ => none

/-- The IRI or blank node of a text. -/
def resource (text : String) : Except LoadError Resource :=
  match blankNodeId? text with
  | some id =>
    if BlankNodeLabel.isLabel id then .ok (.blank ⟨id⟩) else .error (.invalidBlankNode id)
  | none => (iri text).map .iri

/-- The literal that an entry stands for.  A language tag goes before a datatype, and without both
it is a plain string. -/
def LiteralEntry.toLiteral (l : LiteralEntry) : Except LoadError Literal :=
  match l.language, l.datatype with
  | some tag, _ =>
    let lower := LanguageTag.lowerCase tag
    if LanguageTag.isWellFormed lower then .ok (.tagged l.lexical lower)
    else .error (.invalidLanguageTag tag)
  | none, some datatype => (iri datatype).map (.typed l.lexical ·)
  | none, none => .ok (.simple l.lexical)

end ShEx.ShExJ
