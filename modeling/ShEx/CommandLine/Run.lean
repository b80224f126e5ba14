import ShEx.CommandLine.Arguments
import ShEx.Rdf.Format
import ShEx.Schema.Check
import ShEx.ShExJ.Load
import ShEx.ShapeMap.Json
import ShEx.Text.Utf8
import ShEx.Validation.Report

/-!
# Running the command

A validation reads a schema, then the data, then the shape map or the names of a node and a shape,
and reports the pairs that do not conform.  The first step that fails ends the run with one line
that says which step that was.

All of this is a function of the arguments and the files; `Main` reads the files and prints the
lines.
-/

set_option autoImplicit false

namespace ShEx.CommandLine

open ShEx.Rdf

/-- The files that a run sees, by the paths that ask for them, and the directory it runs in. -/
structure Files where
  directory : String
  contents : List (String × List UInt8)

/-- The content of a file, if it can be opened. -/
def Files.content? (files : Files) (path : String) : Option (List UInt8) :=
  files.contents.lookup path

/-- How a run ends. -/
structure Ending where
  code : Nat
  output : List String
  errors : List String
deriving DecidableEq

/-- The paths that a validation reads. -/
def Options.paths (o : Options) : List String :=
  match o.selection with
  | .shapeMap path => [o.schema, o.data, path]
  | .node _ _ => [o.schema, o.data]

/-! ## Schema -/

/-- The schema of a file.  Its patterns have to be regular expressions; its references may be
unknown. -/
def readSchema (files : Files) (path : String) : Except String Schema :=
  match files.content? path with
  | none => .error ("Failed to open " ++ path)
  | some bytes =>
    match ShExJ.load (Utf8.decode bytes) with
    | .error _ => .error ("Invalid ShExJ schema " ++ path)
    | .ok schema =>
      match schema.checkPatterns with
      | .error _ => .error ("Invalid pattern in schema " ++ path)
      | .ok () => .ok schema

/-! ## Data -/

/-- The parts of a path between its slashes. -/
def pathParts (path : String) : List (List Char) := IriGrammar.separated '/' path.toList

/-- The last name in a path. -/
def fileName? (path : String) : Option (List Char) :=
  match ((pathParts path).filter fun part => !part.isEmpty && part != ['.']).getLast? with
  | none => none
  | some part => if part = ['.', '.'] then none else some part

/-- What follows the last point of a file name that does not begin with it. -/
def extension? (path : String) : Option String :=
  match fileName? path with
  | none => none
  | some name =>
    let ending := name.reverse.takeWhile (· != '.')
    if ending.length + 1 < name.length then some (String.ofList ending.reverse) else none

/-- The format of a data file, by the name that is given or by its extension. -/
def dataFormat (path : String) : Option String → Except String Format
  | some name =>
    match Format.ofName? name with
    | some format => .ok format
    | none => .error ("The file format '" ++ name ++ "' is unknown")
  | none =>
    match extension? path with
    | none => .error ("The path " ++ path ++ " has no extension to guess a file format from")
    | some extension =>
      match Format.ofExtension? extension with
      | some format => .ok format
      | none =>
        .error ("Not able to guess the file format from file name extension '" ++ extension ++ "'")

/-- Characters that stand for themselves in the IRI of a file. -/
def isPlainInFileIri (c : Char) : Bool :=
  c.isAlphanum || "/-._~!$&'()*+,;=:@[]|^\\".toList.contains c

/-- The bytes of a character that does not, by their numbers. -/
def percentEncoded (c : Char) : List Char :=
  (String.singleton c).toUTF8.toList.flatMap fun b =>
    ['%', upperHexDigit (b.toNat / 16), upperHexDigit (b.toNat % 16)]

/-- The IRI of a file by its path from a directory. -/
def fileIri (directory path : String) : String :=
  let whole := if path.toList.head? = some '/' then path else directory ++ "/" ++ path
  let parts := (pathParts whole).filter fun part => !part.isEmpty
  let normal := '/' :: ((IriGrammar.withoutDots [] parts).intersperse ['/']).flatten
  "file://" ++ String.ofList (normal.flatMap fun c =>
    if isPlainInFileIri c then [c] else percentEncoded c)

/-- The base of a data file: the IRI that is given, or that of the file, which then has to be
there. -/
def dataBase (files : Files) (path : String) : Option String → Except String String
  | some base => .ok base
  | none =>
    match files.content? path with
    | none => .error ("Failed to resolve " ++ path)
    | some _ => .ok (fileIri files.directory path)

/-- The graph of a data file. -/
def readData (files : Files) (o : Options) : Except String Graph := do
  let format ← dataFormat o.data o.format
  let base ← dataBase files o.data o.base
  if format.usesBase && !IriGrammar.isAbsolute base then .error ("Invalid base IRI " ++ base)
  match files.content? o.data with
  | none => .error ("Failed to open " ++ o.data)
  | some bytes =>
    match (Utf8.decode bytes).mapM id with
    | none => .error ("Failed to parse " ++ o.data)
    | some text =>
      match format.triples? base text with
      | none => .error ("Failed to parse " ++ o.data)
      | some triples => .ok (.ofList triples)

/-! ## Pairs -/

/-- The IRI or blank node that an argument names. -/
def namedResource (text : String) : Except String Resource :=
  match ShExJ.resource text with
  | .ok r => .ok r
  | .error (.invalidBlankNode _) => .error ("Invalid blank node " ++ text)
  | .error _ => .error ("Invalid IRI " ++ text)

/-- The pairs to validate. -/
def selectedPairs (files : Files) (g : Graph) : Selection → Except String (List FixedAssociation)
  | .shapeMap path =>
    match (files.content? path).bind fun bytes => (Utf8.decode bytes).mapM id with
    | none => .error ("Failed to read " ++ path)
    | some text =>
      match ShapeMap.load (text.map some) with
      | .error _ => .error ("Invalid shape map " ++ path)
      | .ok map => .ok (map.resolve g.inTermOrder)
  | .node node shape => do
    let target ←
      match shape with
      | none => pure ShapeTarget.start
      | some label => do pure (.label (← namedResource label))
    pure [⟨(← namedResource node).toTerm, target⟩]

/-! ## Runs -/

/-- The limits of a validation. -/
def Options.limits (o : Options) : Limits :=
  { Limits.standard with
    maxRecursionDepth := o.maxRecursionDepth.getD Limits.standard.maxRecursionDepth
    maxSearchSpace := o.maxSearchSpace.getD Limits.standard.maxSearchSpace }

/-- The lines of a report.  What does not conform is an error; what conforms, and how the whole
went, is written out only on request. -/
def reportEnding (debug : Bool) (report : Report) : Ending :=
  let passed := List.filter (fun r : AssociationResult => r.outcome.isConformant) report
  let verdict := if report.conforms then "passed" else "failed"
  { code := if report.conforms then 0 else 1
    output := if debug then passed.map (·.written) ++ ["Result: " ++ verdict] else []
    errors := report.failures.map (·.written) }

/-- The end of a run with an evaluation that does not end by itself. -/
def stopped : Ending := ⟨134, [], []⟩

/-- A validation. -/
def validate (files : Files) (o : Options) : Except String Ending := do
  let schema ← readSchema files o.schema
  let g ← readData files o
  let pairs ← selectedPairs files g o.selection
  match Session.validateAll (.ofGraph schema g o.limits) o.stopEarly pairs .initial with
  | some (report, _) => pure (reportEnding o.debug report)
  | none => pure stopped

/-- How the command is called. -/
def usage : String := "Usage: shex validate [OPTIONS] --schema <SCHEMA> --data <DATA>"

/-- A run of the command. -/
def run (files : Files) : Request → Ending
  | .validate o =>
    match validate files o with
    | .ok ending => ending
    | .error context => ⟨1, [], ["Error: " ++ context]⟩
  | .information => ⟨0, [usage], []⟩
  | .misuse => ⟨2, [], [usage]⟩

end ShEx.CommandLine
