import ShEx.Rdf.NQuads
import ShEx.Rdf.Turtle

/-!
# Formats of RDF documents

The formats that documents are written in, the names they go by, and the graph of a document in
one of those that are read here: N-Triples, N-Quads and Turtle.
-/

set_option autoImplicit false

namespace ShEx.Rdf

/-- A format of RDF documents. -/
inductive Format where
  | nTriples
  | nQuads
  | turtle
  | triG
  | n3
  | rdfXml
  | jsonLd
deriving DecidableEq

namespace Format

/-- The extensions of file names. -/
def extensions : List (String × Format) :=
  [("json", .jsonLd), ("jsonld", .jsonLd), ("n3", .n3), ("nq", .nQuads), ("nt", .nTriples),
    ("rdf", .rdfXml), ("trig", .triG), ("ttl", .turtle), ("txt", .nTriples), ("xml", .rdfXml)]

/-- The second parts of media types. -/
def mediaSubtypes : List (String × Format) :=
  [("json", .jsonLd), ("ld+json", .jsonLd), ("jsonld", .jsonLd), ("n-quads", .nQuads),
    ("n-triples", .nTriples), ("n3", .n3), ("nquads", .nQuads), ("ntriples", .nTriples),
    ("plain", .nTriples), ("rdf+xml", .rdfXml), ("trig", .triG), ("turtle", .turtle),
    ("xml", .rdfXml)]

/-- The ASCII letters of a text in lower case. -/
def lowerCase (text : List Char) : List Char := text.map Char.toLower

/-- The text without the blanks around it. -/
def trimmed (text : List Char) : List Char :=
  ((text.dropWhile Char.isWhitespace).reverse.dropWhile Char.isWhitespace).reverse

/-- The format that goes by an extension, in any case. -/
def ofExtension? (extension : String) : Option Format :=
  extensions.lookup (String.ofList (lowerCase extension.toList))

/-- Is a parameter of a media type a key with a value, and none that names a character set other
than UTF-8? -/
def isParameter (parameter : List Char) : Bool :=
  match IriGrammar.splitBefore (· = '=') parameter with
  | (key, _ :: value) =>
    trimmed key != "charset".toList ||
      ["ascii", "utf8", "utf-8"].contains (String.ofList (lowerCase (trimmed value)))
  | _ => false

/-- The format that goes by a media type. -/
def ofMediaType? (mediaType : String) : Option Format :=
  let (name, parameters) := IriGrammar.splitBefore (· = ';') mediaType.toList
  let (family, subtype) := IriGrammar.splitBefore (· = '/') name
  let family := String.ofList (lowerCase (trimmed family))
  let subtype := trimmed (subtype.drop 1)
  let subtype := if ['x', '-'].isPrefixOf subtype then subtype.drop 2 else subtype
  let parameters := trimmed (parameters.drop 1)
  if (family = "application" || family = "text") &&
      (parameters.isEmpty || (IriGrammar.separated ';' parameters).all isParameter) then
    mediaSubtypes.lookup (String.ofList (lowerCase subtype))
  else none

/-- The format that goes by a name, an extension or a media type. -/
def ofName? (name : String) : Option Format := (ofExtension? name).or (ofMediaType? name)

/-- Are relative IRIs completed in documents of the format? -/
def usesBase : Format → Bool
  | .nTriples => false
  | .nQuads => false
  | _ => true

/-- The triples of a document; there are none if it is not written in the format. -/
def triples? (format : Format) (base : String) (text : List Char) : Option (List Triple) :=
  match format with
  | .nTriples => NQuads.triples? false text
  | .nQuads => NQuads.triples? true text
  | .turtle => Turtle.triples? base text
  | _ => none

end Format

end ShEx.Rdf
