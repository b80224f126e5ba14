import ShEx.Json.Numeral

/-!
# The written form of JSON

A JSON text has two sides: its grammar, which says where values begin and end, and its meaning,
which may still be refused, because a number is too large or an escape names no character.
`Written` is the first side alone: the numbers are kept as their digits and the strings as the
characters and escapes they are written with.  A part that nobody looks at is only read so far.
-/

set_option autoImplicit false

namespace ShEx.Json

/-- One element of a text: a character, or `none` for a byte that belongs to no character. -/
abbrev Symbol := Option Char

/-- One element of a written string: a symbol, or a code unit given by its number. -/
inductive Piece where
  | symbol (symbol : Symbol)
  | codeUnit (n : Nat)
deriving DecidableEq

/-- A JSON value as it is written. -/
inductive Written where
  | null
  | bool (value : Bool)
  | number (numeral : Numeral)
  | string (pieces : List Piece)
  | array (items : List Written)
  | object (members : List (List Piece × Written))
deriving Inhabited

/-! ## Elements of the grammar -/

/-- The blanks between the tokens of a text. -/
def isBlank (s : Symbol) : Bool := s = some ' ' || s = some '\n' || s = some '\t' || s = some '\r'

/-- The text without the blanks in front. -/
def skipBlanks (text : List Symbol) : List Symbol := text.dropWhile isBlank

/-- Is the symbol an ASCII digit? -/
def isDigitSymbol (s : Symbol) : Bool := s.any Char.isDigit

/-- The digits in front of a text, and the text behind them. -/
def digits (text : List Symbol) : List Char × List Symbol :=
  ((text.takeWhile isDigitSymbol).reduceOption, text.dropWhile isDigitSymbol)

/-- One digit or more. -/
def someDigits? (text : List Symbol) : Option (List Char × List Symbol) :=
  match digits text with
  | ([], _) => none
  | found => some found

/-- The fraction of a number, if a point announces one. -/
def fraction? : List Symbol → Option (Option (List Char) × List Symbol)
  | some '.' :: rest => (someDigits? rest).map fun (ds, rest) => (some ds, rest)
  | text => some (none, text)

/-- The sign of an exponent. -/
def exponentSign : List Symbol → Bool × List Symbol
  | some '-' :: rest => (true, rest)
  | some '+' :: rest => (false, rest)
  | text => (false, text)

/-- The exponent of a number, if a letter announces one. -/
def exponent? : List Symbol → Option (Option (Bool × List Char) × List Symbol)
  | some c :: rest =>
    if c = 'e' || c = 'E' then
      let (negative, rest) := exponentSign rest
      (someDigits? rest).map fun (ds, rest) => (some (negative, ds), rest)
    else some (none, some c :: rest)
  | text => some (none, text)

/-- A number without its sign: a zero or digits that do not begin with one, then fraction and
exponent. -/
def unsignedNumeral? (negative : Bool) (text : List Symbol) : Option (Numeral × List Symbol) := do
  let (whole, rest) ← someDigits? text
  if whole.head? = some '0' && 1 < whole.length then none
  let (fraction, rest) ← fraction? rest
  let (exponent, rest) ← exponent? rest
  pure (⟨negative, whole, fraction, exponent⟩, rest)

/-- A number. -/
def numeral? : List Symbol → Option (Numeral × List Symbol)
  | some '-' :: rest => unsignedNumeral? true rest
  | text => unsignedNumeral? false text

/-- The value of a hexadecimal digit. -/
def hexDigit? : Symbol → Option Nat
  | none => none
  | some c =>
    if c.isDigit then some (c.toNat - '0'.toNat)
    else if 'a' ≤ c && c ≤ 'f' then some (c.toNat - 'a'.toNat + 10)
    else if 'A' ≤ c && c ≤ 'F' then some (c.toNat - 'A'.toNat + 10)
    else none

/-- The number that four hexadecimal digits denote. -/
def fourHexDigits? (a b c d : Symbol) : Option Nat := do
  let a ← hexDigit? a
  let b ← hexDigit? b
  let c ← hexDigit? c
  let d ← hexDigit? d
  pure (((a * 16 + b) * 16 + c) * 16 + d)

/-- The character that a letter behind a backslash stands for. -/
def escaped? : Char → Option Char
  | '"' => some '"'
  | '\\' => some '\\'
  | '/' => some '/'
  | 'b' => some '\x08'
  | 'f' => some '\x0c'
  | 'n' => some '\n'
  | 'r' => some '\r'
  | 't' => some '\t'
  | _ => none

/-- The pieces of a string up to its closing quote.  Control characters have to be escaped. -/
def pieces? : List Symbol → Option (List Piece × List Symbol)
  | [] => none
  | some '"' :: rest => some ([], rest)
  | some '\\' :: some 'u' :: a :: b :: c :: d :: rest => do
    let n ← fourHexDigits? a b c d
    let (later, rest) ← pieces? rest
    pure (.codeUnit n :: later, rest)
  | some '\\' :: some e :: rest => do
    let c ← escaped? e
    let (later, rest) ← pieces? rest
    pure (.symbol (some c) :: later, rest)
  | some '\\' :: _ => none
  | s :: rest =>
    if s.any (·.toNat < 0x20) then none
    else do
      let (later, rest) ← pieces? rest
      pure (.symbol s :: later, rest)

/-! ## Values -/

/-- The text behind a word that has to stand in front. -/
def afterWord? (word : String) (text : List Symbol) : Option (List Symbol) :=
  let symbols := word.toList.map some
  if symbols.isPrefixOf text then some (text.drop symbols.length) else none

/-- A value that is no string, array or object. -/
def scalar? (text : List Symbol) : Option (Written × List Symbol) :=
  ((afterWord? "null" text).map (.null, ·)).or <|
    ((afterWord? "true" text).map (.bool true, ·)).or <|
    ((afterWord? "false" text).map (.bool false, ·)).or <|
      (numeral? text).map fun (n, rest) => (.number n, rest)

/-- The name of a member with the colon behind it. -/
def memberName? (text : List Symbol) : Option (List Piece × List Symbol) :=
  match skipBlanks text with
  | some '"' :: rest => do
    let (name, rest) ← pieces? rest
    match skipBlanks rest with
    | some ':' :: rest => pure (name, rest)
    | _ => none
  | _ => none

mutual

/-- The value in front of a text.  Values are read inside each other at most so deep. -/
def value? : Nat → List Symbol → Option (Written × List Symbol)
  | 0, _ => none
  | fuel + 1, text =>
    match skipBlanks text with
    | some '"' :: rest => (pieces? rest).map fun (ps, rest) => (.string ps, rest)
    | some '[' :: rest =>
      match skipBlanks rest with
      | some ']' :: rest => some (.array [], rest)
      | rest => (items? fuel rest).map fun (items, rest) => (.array items, rest)
    | some '\x7b' :: rest =>
      match skipBlanks rest with
      | some '\x7d' :: rest => some (.object [], rest)
      | rest => (members? fuel rest).map fun (members, rest) => (.object members, rest)
    | text => scalar? text

/-- The items of an array up to its closing bracket. -/
def items? : Nat → List Symbol → Option (List Written × List Symbol)
  | 0, _ => none
  | fuel + 1, text => do
    let (item, rest) ← value? fuel text
    match skipBlanks rest with
    | some ']' :: rest => pure ([item], rest)
    | some ',' :: rest =>
      let (later, rest) ← items? fuel rest
      pure (item :: later, rest)
    | _ => none

/-- The members of an object up to its closing brace. -/
def members? : Nat → List Symbol → Option (List (List Piece × Written) × List Symbol)
  | 0, _ => none
  | fuel + 1, text => do
    let (name, rest) ← memberName? text
    let (item, rest) ← value? fuel rest
    match skipBlanks rest with
    | some '\x7d' :: rest => pure ([(name, item)], rest)
    | some ',' :: rest =>
      let (later, rest) ← members? fuel rest
      pure ((name, item) :: later, rest)
    | _ => none

end

/-- The value that a whole text is.  Two steps of nesting take at least one symbol. -/
def Written.ofText? (text : List Symbol) : Option Written :=
  match value? (2 * text.length + 2) text with
  | some (v, rest) => if (skipBlanks rest).isEmpty then some v else none
  | none => none

end ShEx.Json
