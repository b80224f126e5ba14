import ShEx.Number.Digits

/-!
# Arguments

The command `validate` with its options, as they are given on a command line.  An option is
written with two hyphens and its name, some also with one hyphen and a letter; a value follows as
the next argument or, in the same argument, behind an equals sign or directly behind the letter.
Every option is given at most once.

Arguments are read from left to right, and the first one that does not fit, or that asks for
information, settles the matter.  What the options have to do with each other is asked at the end.
-/

set_option autoImplicit false

namespace ShEx.CommandLine

open ShEx.Number

/-- The options with a value. -/
inductive Key where
  | schema
  | data
  | format
  | base
  | shapeMap
  | node
  | shape
  | maxRecursionDepth
  | maxSearchSpace
deriving DecidableEq

/-- The options without a value. -/
inductive Switch where
  | stopEarly
  | debug
deriving DecidableEq

/-- What an argument can name. -/
inductive Name where
  | key (key : Key)
  | switch (switch : Switch)
  | help
deriving DecidableEq

/-- The names of the options. -/
def names : List (String × Name) :=
  [("schema", .key .schema), ("data", .key .data), ("format", .key .format), ("base", .key .base),
    ("shape-map", .key .shapeMap), ("node", .key .node), ("shape", .key .shape),
    ("max-recursion-depth", .key .maxRecursionDepth),
    ("max-search-space", .key .maxSearchSpace), ("bail", .switch .stopEarly),
    ("debug", .switch .debug), ("help", .help)]

/-- The letters of the options that have one. -/
def letters : List (Char × Name) :=
  [('x', .key .schema), ('d', .key .data), ('m', .key .shapeMap), ('n', .key .node),
    ('s', .key .shape), ('b', .switch .stopEarly), ('h', .help)]

/-- The nodes to validate. -/
inductive Selection where
  /-- Those of a shape map, given by its path. -/
  | shapeMap (path : String)
  /-- One node, for a shape or the start expression. -/
  | node (node : String) (shape : Option String)
deriving DecidableEq

/-- What a validation is asked to do. -/
structure Options where
  schema : String
  data : String
  format : Option String
  base : Option String
  selection : Selection
  stopEarly : Bool
  debug : Bool
  maxRecursionDepth : Option Nat
  maxSearchSpace : Option Nat
deriving DecidableEq

/-- What a command line asks for. -/
inductive Request where
  | validate (options : Options)
  /-- A description of the command, or its version. -/
  | information
  /-- Nothing that can be understood. -/
  | misuse
deriving DecidableEq

/-! ## Options -/

/-- The options met so far. -/
structure Given where
  values : List (Key × String)
  switches : List Switch

/-- A number that 64 bits hold, possibly behind a plus sign. -/
def number? (text : String) : Option Nat :=
  let digits :=
    match text.toList with
    | '+' :: rest => rest
    | cs => cs
  let n := digitsValue digits
  if !digits.isEmpty && digits.all Char.isDigit && n < twoTo 64 then some n else none

/-- Can an option have the value?  A path is not empty, and a limit is a number. -/
def Key.admits (value : String) : Key → Bool
  | .schema => !value.isEmpty
  | .data => !value.isEmpty
  | .shapeMap => !value.isEmpty
  | .maxRecursionDepth => (number? value).isSome
  | .maxSearchSpace => (number? value).isSome
  | _ => true

namespace Given

/-- The value of an option. -/
def value? (g : Given) (key : Key) : Option String := g.values.lookup key

/-- With one more value, if the option can have it and has none yet. -/
def withValue? (g : Given) (key : Key) (value : String) : Option Given :=
  if key.admits value && (g.value? key).isNone then
    some { g with values := (key, value) :: g.values }
  else none

/-- With one more switch, if it is not set yet. -/
def withSwitch? (g : Given) (switch : Switch) : Option Given :=
  if switch ∈ g.switches then none else some { g with switches := switch :: g.switches }

/-- The nodes to validate: either those of a shape map, or one node.  A shape comes with a node. -/
def selection? (g : Given) : Option Selection :=
  match g.value? .shapeMap, g.value? .node, g.value? .shape with
  | some path, none, none => some (.shapeMap path)
  | none, some node, shape => some (.node node shape)
  | _, _, _ => none

/-- The options, if none is missing and none excludes another. -/
def options? (g : Given) : Option Options := do
  let schema ← g.value? .schema
  let data ← g.value? .data
  let selection ← g.selection?
  pure
    { schema := schema
      data := data
      format := g.value? .format
      base := g.value? .base
      selection := selection
      stopEarly := .stopEarly ∈ g.switches
      debug := .debug ∈ g.switches
      maxRecursionDepth := (g.value? .maxRecursionDepth).bind number?
      maxSearchSpace := (g.value? .maxSearchSpace).bind number? }

end Given

/-! ## Reading -/

/-- What an argument is. -/
inductive Argument where
  /-- Two hyphens with a name, and possibly a value behind an equals sign. -/
  | long (name : String) (value : Option String)
  /-- One hyphen with letters. -/
  | short (letters : List Char)
  /-- Two hyphens alone, which end the options. -/
  | separator
  | plain
deriving DecidableEq

/-- Takes an argument apart; one hyphen alone is plain. -/
def Argument.of (text : String) : Argument :=
  match text.toList with
  | ['-', '-'] => .separator
  | '-' :: '-' :: rest =>
    let (name, value) := splitAtFirst (· = '=') rest
    .long (String.ofList name) (value.map String.ofList)
  | '-' :: c :: rest => .short (c :: rest)
  | _ => .plain

/-- What one argument leads to. -/
inductive Step where
  /-- The options met so far. -/
  | goOn (given : Given)
  /-- The next argument is the value of an option. -/
  | awaitValue (given : Given) (key : Key)
  | settled (request : Request)

/-- The step to further options, if there are any. -/
def Step.ofGiven? : Option Given → Step
  | some g => .goOn g
  | none => .settled .misuse

/-- The step of an option by its name. -/
def longStep (g : Given) (name : String) (value : Option String) : Step :=
  match names.lookup name, value with
  | some (.key key), some v => .ofGiven? (g.withValue? key v)
  | some (.key key), none => .awaitValue g key
  | some (.switch switch), none => .ofGiven? (g.withSwitch? switch)
  | some .help, none => .settled .information
  | _, _ => .settled .misuse

/-- The step of options by their letters.  What follows the letter of an option with a value is
its value. -/
def shortStep (g : Given) : List Char → Step
  | [] => .goOn g
  | c :: rest =>
    match letters.lookup c with
    | some (.key key) =>
      match rest with
      | [] => .awaitValue g key
      | '=' :: value => .ofGiven? (g.withValue? key (String.ofList value))
      | value => .ofGiven? (g.withValue? key (String.ofList value))
    | some (.switch switch) =>
      match g.withSwitch? switch with
      | some g => shortStep g rest
      | none => .settled .misuse
    | some .help => .settled .information
    | none => .settled .misuse

/-- The step of an argument that is no value and not the separator. -/
def Argument.step (g : Given) : Argument → Step
  | .long name value => longStep g name value
  | .short cs => shortStep g cs
  | _ => .settled .misuse

/-- What the options of a validation ask for; `awaited` is the option whose value comes next. -/
def readOptions (g : Given) (awaited : Option Key) : List String → Request
  | [] =>
    match awaited, g.options? with
    | none, some options => .validate options
    | _, _ => .misuse
  | text :: rest =>
    match awaited, Argument.of text with
    | some key, .plain =>
      match g.withValue? key text with
      | some g => readOptions g none rest
      | none => .misuse
    | some _, _ => .misuse
    | none, .separator => if rest.isEmpty then readOptions g none rest else .misuse
    | none, argument =>
      match argument.step g with
      | .goOn g => readOptions g none rest
      | .awaitValue g key => readOptions g (some key) rest
      | .settled request => request

/-- What a command line asks for. -/
def Request.ofArguments : List String → Request
  | "validate" :: rest => readOptions ⟨[], []⟩ none rest
  | ["help"] => .information
  | ["help", command] => if command = "validate" || command = "help" then .information else .misuse
  | text :: _ =>
    match Argument.of text with
    | .long "help" none => .information
    | .long "version" none => .information
    | .short ('h' :: _) => .information
    | .short ('V' :: _) => .information
    | _ => .misuse
  | [] => .misuse

end ShEx.CommandLine
