import ShEx.Pattern.Tree
import ShEx.Unicode.Property
import ShEx.Unicode.Script

/-!
# Named sets of characters

The characters that a property, a short class such as `\d` or a named class such as `[:alpha:]`
stands for.  Names of properties are compared without regard to case, blanks, hyphens and
underscores, and a leading `is` does not count.
-/

set_option autoImplicit false

namespace ShEx.Pattern

open ShEx.Unicode

/-- A name without what does not count in comparisons. -/
def normalizedName (name : String) : String :=
  let cs := name.toList
  let startsWithIs := (cs.take 2).map Char.toLower = ['i', 's']
  let kept := ((if startsWithIs then cs.drop 2 else cs).filter fun c =>
    c.toNat < 0x80 && c != ' ' && c != '-' && c != '_').map Char.toLower
  if startsWithIs && kept = ['c'] then "isc" else String.ofList kept

/-- The characters of a general category or group of categories, by a normalized name. -/
def categoryCharacters? (name : String) : Option CharSet :=
  if name = "any" then some .all
  else if name = "assigned" then some (Category.characters ["Cn"]).complement
  else if name = "ascii" then some .ascii
  else
    (Category.groups.find? fun group => group.2.contains name).map fun group =>
      Category.characters group.1

/-- The characters of a script, by a normalized name. -/
def scriptCharacters? (name : String) : Option CharSet :=
  (Script.entry? name).map Script.Entry.characters

/-- Names that mean a category although a property with values has the same abbreviation. -/
def categoryFirst : List String := ["cf", "sc", "lc"]

/-- The characters that a query names, if it names any. -/
def PropertyQuery.characters? : PropertyQuery → Option CharSet
  | .named name =>
    let name := normalizedName name
    let byProperty :=
      if categoryFirst.contains name then none
      else (Property.entry? name).map Property.Entry.characters
    byProperty <|> categoryCharacters? name <|> scriptCharacters? name
  | .valued property value =>
    let property := normalizedName property
    let value := normalizedName value
    if property = "gc" || property = "generalcategory" then categoryCharacters? value
    else if property = "sc" || property = "script" then scriptCharacters? value
    else if property = "scx" || property = "scriptextensions" then
      (Script.entry? value).map Script.Entry.usedCharacters
    else none

/-- The characters with one of the properties named. -/
def withProperties (names : List String) : CharSet :=
  names.foldl
    (fun s name => s.union (((Property.entry? name).map Property.Entry.characters).getD .empty))
    .empty

/-- The characters of words: letters, marks, decimal digits, connecting punctuation and joiners. -/
def wordCharacters : CharSet :=
  (withProperties ["alpha", "joinc"]).union (Category.characters ["Mn", "Mc", "Me", "Nd", "Pc"])

/-- The decimal digits. -/
def digitCharacters : CharSet := Category.characters ["Nd"]

/-- The white space. -/
def spaceCharacters : CharSet := withProperties ["wspace"]

/-- A set of ASCII characters, by ranges. -/
def asciiRanges (ranges : List (Char × Char)) : CharSet :=
  .ofRanges (ranges.map fun (a, b) => (a.toNat, b.toNat))

/-- The ASCII characters of words. -/
def asciiWordCharacters : CharSet := asciiRanges [('0', '9'), ('A', 'Z'), ('_', '_'), ('a', 'z')]

/-- The characters of a short class, among all characters or among ASCII only. -/
def ShortClass.characters (unicode : Bool) : ShortClass → CharSet
  | .digit => if unicode then digitCharacters else asciiRanges [('0', '9')]
  | .space => if unicode then spaceCharacters else asciiRanges [('\t', '\r'), (' ', ' ')]
  | .word => if unicode then wordCharacters else asciiWordCharacters

/-- The characters of a named class. -/
def namedClassCharacters (name : String) : CharSet :=
  match name with
  | "alnum" => asciiRanges [('0', '9'), ('A', 'Z'), ('a', 'z')]
  | "alpha" => asciiRanges [('A', 'Z'), ('a', 'z')]
  | "ascii" => .ascii
  | "blank" => asciiRanges [('\t', '\t'), (' ', ' ')]
  | "cntrl" => asciiRanges [('\x00', '\x1f'), ('\x7f', '\x7f')]
  | "digit" => asciiRanges [('0', '9')]
  | "graph" => asciiRanges [('!', '~')]
  | "lower" => asciiRanges [('a', 'z')]
  | "print" => asciiRanges [(' ', '~')]
  | "punct" => asciiRanges [('!', '/'), (':', '@'), ('[', '\x60'), ('\x7b', '~')]
  | "space" => asciiRanges [('\t', '\r'), (' ', ' ')]
  | "upper" => asciiRanges [('A', 'Z')]
  | "word" => asciiWordCharacters
  | "xdigit" => asciiRanges [('0', '9'), ('A', 'F'), ('a', 'f')]
  | _ => .empty

end ShEx.Pattern
