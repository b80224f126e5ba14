import ShEx.Number.Digits
import ShEx.Pattern.Tree
import ShEx.Unicode.Property

/-!
# Reading patterns

Reads the text of a pattern as a `Tree`.  A text that is no pattern is refused without saying
why: what is wrong with it is not part of an answer.

Groups nest, alternatives are separated by bars, and the repetition operators apply to what
stands before them.  Character classes nest too, and combine with `&&`, `--` and `~~`.  There are
no look-arounds and no back references.  While the flag `x` is set, white space and comments from
`#` to the end of the line are skipped everywhere, also inside classes.
-/

set_option autoImplicit false

namespace ShEx.Pattern.Reader

open ShEx.Unicode

/-- What is left of the text. -/
abbrev Rest := List Char

/-- The white space of Unicode. -/
def whiteSpace : CharSet :=
  match Property.entry? "wspace" with
  | some e => e.characters
  | none => .empty

/-- The alphabetic characters of Unicode. -/
def alphabetic : CharSet :=
  match Property.entry? "alpha" with
  | some e => e.characters
  | none => .empty

/-- The characters of Unicode that stand for numbers. -/
def numeric : CharSet := Category.characters ["Nd", "Nl", "No"]

/-- Drops white space and comments; `comment` tells that one has been opened. -/
def dropSpace (comment : Bool) : Rest → Rest
  | [] => []
  | c :: rest =>
    if comment then dropSpace (c != '\n') rest
    else if whiteSpace.contains c then dropSpace false rest
    else if c = '#' then dropSpace true rest
    else c :: rest

/-- Skips white space and comments where they do not count. -/
def skip (ignoreSpace : Bool) (text : Rest) : Rest :=
  if ignoreSpace then dropSpace false text else text

/-! ## Numbers and escapes -/

/-- A hexadecimal digit. -/
def isHexDigit (c : Char) : Bool :=
  c.isDigit || ('a' ≤ c && c ≤ 'f') || ('A' ≤ c && c ≤ 'F')

/-- The character with a code point, which has to be a scalar value. -/
def charOfCode? (n : Nat) : Option Char :=
  if n < 0xD800 || (0xDFFF < n && n ≤ 0x10FFFF) then some (Char.ofNat n) else none

/-- Reads exactly so many hexadecimal digits. -/
def hexDigits? (x : Bool) : Nat → Rest → Option (List Char × Rest)
  | 0, text => some ([], text)
  | n + 1, c :: rest =>
    if isHexDigit c then
      (hexDigits? x n (skip x rest)).map fun (digits, left) => (c :: digits, left)
    else none
  | _ + 1, [] => none

/-- Reads hexadecimal digits up to a closing brace. -/
def hexBraced? (x : Bool) : Nat → Rest → Option (List Char × Rest)
  | 0, _ => none
  | fuel + 1, text =>
    match skip x text with
    | [] => none
    | '\x7d' :: rest => some ([], skip x rest)
    | c :: rest =>
      if isHexDigit c then
        (hexBraced? x fuel rest).map fun (digits, left) => (c :: digits, left)
      else none

/-- Reads what follows `\x`, `\u` or `\U`, which take so many digits without braces. -/
def hexEscape? (x : Bool) (width : Nat) (text : Rest) : Option (Literal × Rest) :=
  match skip x text with
  | '\x7b' :: rest => do
    let (digits, left) ← hexBraced? x (rest.length + 1) rest
    if digits.isEmpty then none
    else
      let c ← charOfCode? (Table.hexValue digits)
      some (⟨c, false⟩, left)
  | text => do
    let (digits, left) ← hexDigits? x width text
    let c ← charOfCode? (Table.hexValue digits)
    some (⟨c, width == 2⟩, left)

/-- Splits a text at the first occurrence of another text. -/
def splitAt? (separator : List Char) : List Char → Option (List Char × List Char)
  | [] => none
  | c :: rest =>
    if separator.isPrefixOf (c :: rest) then some ([], (c :: rest).drop separator.length)
    else (splitAt? separator rest).map fun (before, after) => (c :: before, after)

/-- What a braced property asks for, and whether it is asked to differ. -/
def propertyQuery (name : List Char) : Bool × PropertyQuery :=
  match splitAt? ['!', '='] name with
  | some (property, value) =>
    (true, .valued (String.ofList property) (String.ofList value))
  | none =>
    match splitAt? [':'] name with
    | some (property, value) =>
      (false, .valued (String.ofList property) (String.ofList value))
    | none =>
      match splitAt? ['='] name with
      | some (property, value) =>
        (false, .valued (String.ofList property) (String.ofList value))
      | none => (false, .named (String.ofList name))

/-- Reads the name of a property up to a closing brace. -/
def propertyName? (x : Bool) : Nat → Rest → Option (List Char × Rest)
  | 0, _ => none
  | fuel + 1, text =>
    match skip x text with
    | [] => none
    | '\x7d' :: rest => some ([], rest)
    | c :: rest => (propertyName? x fuel rest).map fun (name, left) => (c :: name, left)

/-- Something that stands for itself in a pattern. -/
inductive Atom where
  | literal (literal : Literal)
  | anchor (anchor : Anchor)
  | short (negated : Bool) (kind : ShortClass)
  | property (negated : Bool) (query : PropertyQuery)

/-- Reads what follows `\p` or `\P`. -/
def propertyEscape? (x negated : Bool) (text : Rest) : Option (Atom × Rest) :=
  match skip x text with
  | [] => none
  | '\x7b' :: rest => do
    let (name, left) ← propertyName? x (rest.length + 1) rest
    let (differs, query) := propertyQuery name
    some (.property (negated != differs) query, left)
  | '\\' :: _ => none
  | c :: rest => some (.property negated (.named (String.ofList [c])), skip x rest)

/-- A character of the name of a word boundary. -/
def isBoundaryNameChar (c : Char) : Bool := c.isAlpha || c = '-'

/-- Reads the name of a word boundary and its closing brace. -/
def boundaryName? (x : Bool) : Nat → Rest → Option (List Char × Rest)
  | 0, _ => none
  | _ + 1, [] => none
  | fuel + 1, c :: rest =>
    if isBoundaryNameChar c then
      (boundaryName? x fuel (skip x rest)).map fun (name, left) => (c :: name, left)
    else if c = '\x7d' then some ([], rest)
    else none

/-- The word boundary with a name in braces. -/
def namedBoundary? (name : List Char) : Option Anchor :=
  if name = "start".toList then some .wordStart
  else if name = "end".toList then some .wordEnd
  else if name = "start-half".toList then some .wordStartHalf
  else if name = "end-half".toList then some .wordEndHalf
  else none

/-- Reads what follows `\b`: a name in braces, if there is a brace and no repetition count in
it. -/
def boundary? (x : Bool) (text : Rest) : Option (Atom × Rest) :=
  match text with
  | '\x7b' :: rest =>
    match skip x rest with
    | [] => none
    | c :: more =>
      if isBoundaryNameChar c then do
        let (name, left) ← boundaryName? x (more.length + 2) (c :: more)
        let anchor ← namedBoundary? name
        some (.anchor anchor, left)
      else some (.anchor .boundary, text)
  | _ => some (.anchor .boundary, text)

/-- Does the character stand for itself behind a backslash? -/
def isEscapable (c : Char) : Bool :=
  c.toNat < 0x80 && !c.isAlphanum && c != '<' && c != '>'

/-- Reads what follows a backslash. -/
def escape? (x : Bool) : Rest → Option (Atom × Rest)
  | [] => none
  | c :: rest =>
    let itself (d : Char) : Option (Atom × Rest) := some (.literal ⟨d, false⟩, rest)
    if isEscapable c then itself c
    else
      match c with
      | 'x' => (hexEscape? x 2 rest).map fun (l, left) => (.literal l, left)
      | 'u' => (hexEscape? x 4 rest).map fun (l, left) => (.literal l, left)
      | 'U' => (hexEscape? x 8 rest).map fun (l, left) => (.literal l, left)
      | 'p' => propertyEscape? x false rest
      | 'P' => propertyEscape? x true rest
      | 'd' => some (.short false .digit, rest)
      | 'D' => some (.short true .digit, rest)
      | 's' => some (.short false .space, rest)
      | 'S' => some (.short true .space, rest)
      | 'w' => some (.short false .word, rest)
      | 'W' => some (.short true .word, rest)
      | 'a' => itself '\x07'
      | 'f' => itself '\x0c'
      | 't' => itself '\t'
      | 'n' => itself '\n'
      | 'r' => itself '\r'
      | 'v' => itself '\x0b'
      | 'A' => some (.anchor .textStart, rest)
      | 'z' => some (.anchor .textEnd, rest)
      | 'b' => boundary? x rest
      | 'B' => some (.anchor .noBoundary, rest)
      | '<' => some (.anchor .wordStart, rest)
      | '>' => some (.anchor .wordEnd, rest)
      | _ => none

/-! ## Character classes -/

/-- The named classes of ASCII characters. -/
def asciiClassNames : List String :=
  ["alnum", "alpha", "ascii", "blank", "cntrl", "digit", "graph", "lower", "print", "punct",
    "space", "upper", "word", "xdigit"]

/-- Reads a named class behind its opening bracket, if there is one: `:name:]`. -/
def asciiClass? : Rest → Option (ClassItem × Rest)
  | ':' :: text =>
    let (negated, text) :=
      match text with
      | '^' :: rest => (true, rest)
      | _ => (false, text)
    let name := String.ofList (text.takeWhile (· != ':'))
    match text.dropWhile (· != ':') with
    | ':' :: ']' :: rest =>
      if asciiClassNames.contains name then some (.named negated name, rest) else none
    | _ => none
  | _ => none

/-- The next character that counts behind the current one; a comment mark is passed over, the
comment is not. -/
def lookAhead (x : Bool) (rest : Rest) : Option Char :=
  if x then
    match rest.dropWhile whiteSpace.contains with
    | '#' :: more =>
      match more.dropWhile whiteSpace.contains with
      | [] => rest.head?
      | c :: _ => some c
    | [] => rest.head?
    | c :: _ => some c
  else rest.head?

/-- Reads one member that may be the end of a range. -/
def classAtom? (x : Bool) : Rest → Option (Atom × Rest)
  | [] => none
  | '\\' :: rest => escape? x rest
  | c :: rest => some (.literal ⟨c, false⟩, rest)

/-- A member of a class; a condition on places is none. -/
def Atom.classItem? : Atom → Option ClassItem
  | .literal l => some (.literal l)
  | .short negated kind => some (.short negated kind)
  | .property negated query => some (.property negated query)
  | .anchor _ => none

/-- A member that is one character. -/
def Atom.literal? : Atom → Option Literal
  | .literal l => some l
  | _ => none

/-- Reads a member of a class or a range of characters. -/
def classRange? (x : Bool) (text : Rest) : Option (ClassItem × Rest) := do
  let (first, rest) ← classAtom? x text
  match skip x rest with
  | [] => none
  | '-' :: more =>
    let ahead := lookAhead x more
    if ahead = some ']' || ahead = some '-' then
      let item ← first.classItem?
      some (item, '-' :: more)
    else
      match skip x more with
      | [] => none
      | more =>
        let (last, left) ← classAtom? x more
        let a ← first.literal?
        let b ← last.literal?
        if a.char ≤ b.char then some (.range a b, left) else none
  | rest =>
    let item ← first.classItem?
    some (item, rest)

/-- Reads the hyphens that a class may begin with. -/
def leadingHyphens? (x : Bool) : Nat → Rest → Option (List ClassItem × Rest)
  | 0, _ => none
  | _ + 1, [] => none
  | fuel + 1, '-' :: rest =>
    (leadingHyphens? x fuel (skip x rest)).map fun (items, left) =>
      (.literal ⟨'-', false⟩ :: items, left)
  | _ + 1, text => some ([], text)

/-- Reads what a class begins with, behind its bracket: whether it is negated, and its first
members if they are hyphens or a closing bracket. -/
def classStart? (x : Bool) (text : Rest) : Option (Bool × List ClassItem × Rest) := do
  let (negated, text) :=
    match skip x text with
    | '^' :: rest => (true, skip x rest)
    | text => (false, text)
  let (hyphens, text) ← leadingHyphens? x (text.length + 1) text
  match hyphens, text with
  | [], ']' :: rest =>
    match skip x rest with
    | [] => none
    | rest => some (negated, [.literal ⟨']', false⟩], rest)
  | _, _ => some (negated, hyphens, text)

/-- The members read so far, last one first, as the second operand of an operation if there is
one. -/
def closeOperand (pending : Option (ClassOperation × ClassBody)) (items : List ClassItem) :
    ClassBody :=
  match pending with
  | none => .items items.reverse
  | some (operation, first) => .operation operation first (.items items.reverse)

/-- Reads members and operations up to the closing bracket; `items` are the members of the
current operand, last one first, and `pending` is the operation it belongs to. -/
def classBody? (x : Bool) : Nat → Option (ClassOperation × ClassBody) → List ClassItem → Rest →
    Option (ClassBody × Rest)
  | 0, _, _, _ => none
  | fuel + 1, pending, items, text =>
    let next (operation : ClassOperation) (rest : Rest) : Option (ClassBody × Rest) :=
      classBody? x fuel (some (operation, closeOperand pending items)) [] rest
    match skip x text with
    | [] => none
    | ']' :: rest => some (closeOperand pending items, rest)
    | '[' :: rest =>
      match asciiClass? rest with
      | some (item, left) => classBody? x fuel pending (item :: items) left
      | none => do
        let (negated, first, left) ← classStart? x rest
        let (body, left) ← classBody? x fuel none first left
        classBody? x fuel pending (.bracketed negated body :: items) left
    | '&' :: '&' :: rest => next .inter rest
    | '-' :: '-' :: rest => next .diff rest
    | '~' :: '~' :: rest => next .symmDiff rest
    | text => do
      let (item, left) ← classRange? x text
      classBody? x fuel pending (item :: items) left

/-- Reads a class behind its opening bracket. -/
def class? (x : Bool) (text : Rest) : Option (Tree × Rest) := do
  let (negated, first, left) ← classStart? x text
  let (body, left) ← classBody? x (left.length + 1) none first left
  some (.bracketed negated body, left)

/-! ## Groups and repetitions -/

/-- The flag with a letter. -/
def flag? : Char → Option Flag
  | 'i' => some .caseInsensitive
  | 'm' => some .multiLine
  | 's' => some .dotAll
  | 'U' => some .swapGreed
  | 'u' => some .unicode
  | 'R' => some .crlf
  | 'x' => some .ignoreSpace
  | _ => none

/-- Reads flags up to a colon or a closing parenthesis, which stays in front of the rest.  No
flag is named twice, and a minus sign stands once and not at the end. -/
def flags? (change : FlagChange) (minus : Bool) : Rest → Option (FlagChange × Bool × Rest)
  | [] => none
  | c :: rest =>
    if c = ':' || c = ')' then some (change, minus, c :: rest)
    else if c = '-' then
      if minus then none
      else
        match rest with
        | ':' :: _ => none
        | ')' :: _ => none
        | _ => flags? change true rest
    else
      match flag? c with
      | none => none
      | some f =>
        if change.set.contains f || change.cleared.contains f then none
        else if minus then flags? { change with cleared := change.cleared ++ [f] } true rest
        else flags? { change with set := change.set ++ [f] } false rest

/-- What a group begins with. -/
inductive GroupStart where
  /-- A group, with the name it captures under and its flags. -/
  | opened (name : Option (List Char)) (change : FlagChange)
  /-- No group, but flags for what follows. -/
  | flagsOnly (change : FlagChange)

/-- May the character stand in the name of a group? -/
def isNameChar (first : Bool) (c : Char) : Bool :=
  c = '_' || alphabetic.contains c ||
    (!first && (c = '.' || c = '[' || c = ']' || numeric.contains c))

/-- Reads the name of a group and its closing angle bracket. -/
def groupName? (text : Rest) : Option (List Char × Rest) :=
  let name := text.takeWhile (· != '>')
  match text.dropWhile (· != '>') with
  | '>' :: rest =>
    match name with
    | [] => none
    | c :: cs => if isNameChar true c && cs.all (isNameChar false) then some (name, rest) else none
  | _ => none

/-- Reads what follows an opening parenthesis; look-arounds are refused. -/
def groupStart? (x : Bool) (text : Rest) : Option (GroupStart × Rest) :=
  match skip x text with
  | '?' :: '=' :: _ => none
  | '?' :: '!' :: _ => none
  | '?' :: '<' :: '=' :: _ => none
  | '?' :: '<' :: '!' :: _ => none
  | '?' :: 'P' :: '<' :: rest =>
    (groupName? rest).map fun (name, left) => (.opened (some name) .nothing, left)
  | '?' :: '<' :: rest =>
    (groupName? rest).map fun (name, left) => (.opened (some name) .nothing, left)
  | '?' :: rest =>
    match flags? .nothing false rest with
    | some (change, _, ':' :: left) => some (.opened none change, left)
    | some (change, minus, ')' :: left) =>
      if change.set.isEmpty && !minus then none else some (.flagsOnly change, left)
    | _ => none
  | rest => some (.opened none .nothing, rest)

/-- Reads a decimal number below `2 ^ 32`, white space around it being skipped. -/
def count? (x : Bool) (text : Rest) : Option (Nat × Rest) :=
  let start := text.dropWhile whiteSpace.contains
  let (digits, rest) := digitsOf (start.length + 1) start
  let n := digits.foldl (fun n c => 10 * n + (c.toNat - '0'.toNat)) 0
  if digits.isEmpty || Number.twoTo 32 ≤ n then none else some (n, trailing (rest.length + 1) rest)
where
  /-- The digits in front, with what is skipped between them. -/
  digitsOf : Nat → Rest → List Char × Rest
    | 0, text => ([], text)
    | _ + 1, [] => ([], [])
    | fuel + 1, c :: rest =>
      if c.isDigit then
        let (digits, left) := digitsOf fuel (skip x rest)
        (c :: digits, left)
      else ([], c :: rest)
  /-- Drops white space. -/
  trailing : Nat → Rest → Rest
    | 0, text => text
    | _ + 1, [] => []
    | fuel + 1, c :: rest =>
      if whiteSpace.contains c then trailing fuel (skip x rest) else c :: rest

/-- Reads the bounds of a repetition behind its opening brace, with the closing one. -/
def bounds? (x : Bool) (text : Rest) : Option (Nat × Option Nat × Rest) := do
  match skip x text with
  | [] => none
  | text =>
    let (min, rest) ← count? x text
    match rest with
    | '\x7d' :: left => some (min, some min, left)
    | ',' :: rest =>
      match skip x rest with
      | '\x7d' :: left => some (min, none, left)
      | rest =>
        let (max, rest) ← count? x rest
        match rest with
        | '\x7d' :: left => if min ≤ max then some (min, some max, left) else none
        | _ => none
    | _ => none

/-- The text behind a question mark, if there is one: whether a repetition is greedy does not
change what matches. -/
def dropGreed : Rest → Rest
  | '?' :: rest => rest
  | text => text

/-- The parts of a pattern, last one first, with the last one repeated; there has to be one, and
it is no change of flags. -/
def repeatLast? (parts : List Tree) (min : Nat) (max : Option Nat) : Option (List Tree) :=
  match parts with
  | [] => none
  | .flags _ :: _ => none
  | t :: before => some (.times t min max :: before)

/-- The pattern of alternatives that are complete and the parts of the current one, both with the
last first. -/
def closeBranches (branches parts : List Tree) : Tree :=
  Tree.ofBranches ((Tree.ofParts parts.reverse :: branches).reverse)

/-- What reading carries along: whether space is ignored, and the names of groups met so far. -/
structure State where
  ignoreSpace : Bool
  names : List (List Char)

/-- The state with a change of flags made. -/
def State.change (s : State) (change : FlagChange) : State :=
  { s with ignoreSpace :=
      (s.ignoreSpace || change.set.contains .ignoreSpace) &&
        !change.cleared.contains .ignoreSpace }

/-- The state with one more name, which has to be new. -/
def State.name? (s : State) : Option (List Char) → Option State
  | none => some s
  | some name => if s.names.contains name then none else some { s with names := name :: s.names }

/-- Reads alternatives up to a closing parenthesis or the end of the text.  `branches` are the
alternatives that are complete, `parts` what has been read of the current one, both with the last
first. -/
def branches? : Nat → State → List Tree → List Tree → Rest → Option (Tree × State × Rest)
  | 0, _, _, _, _ => none
  | fuel + 1, s, branches, parts, text =>
    let x := s.ignoreSpace
    let more (t : Tree) (rest : Rest) : Option (Tree × State × Rest) :=
      branches? fuel s branches (t :: parts) rest
    let repeated (min : Nat) (max : Option Nat) (rest : Rest) : Option (Tree × State × Rest) := do
      let parts ← repeatLast? parts min max
      branches? fuel s branches parts rest
    match skip x text with
    | [] => some (closeBranches branches parts, s, [])
    | ')' :: rest => some (closeBranches branches parts, s, ')' :: rest)
    | '|' :: rest => branches? fuel s (Tree.ofParts parts.reverse :: branches) [] rest
    | '(' :: rest => do
      let (start, left) ← groupStart? x rest
      match start with
      | .flagsOnly change =>
        branches? fuel (s.change change) branches (.flags change :: parts) left
      | .opened name change =>
        let inner ← s.name? name
        let (body, after, left) ← branches? fuel (inner.change change) [] [] left
        match left with
        | ')' :: left =>
          branches? fuel { s with names := after.names } branches (.group change body :: parts)
            left
        | _ => none
    | '[' :: rest => do
      let (t, left) ← class? x rest
      more t left
    | '?' :: rest => repeated 0 (some 1) (dropGreed rest)
    | '*' :: rest => repeated 0 none (dropGreed rest)
    | '+' :: rest => repeated 1 none (dropGreed rest)
    | '\x7b' :: rest => do
      let (min, max, left) ← bounds? x rest
      repeated min max (dropGreed (skip x left))
    | '\\' :: rest => do
      let (atom, left) ← escape? x rest
      match atom with
      | .literal l => more (.literal l) left
      | .anchor a => more (.anchor a) left
      | .short negated kind => more (.short negated kind) left
      | .property negated query => more (.property negated query) left
    | '.' :: rest => more .dot rest
    | '^' :: rest => more (.anchor .lineStart) rest
    | '$' :: rest => more (.anchor .lineEnd) rest
    | c :: rest => more (.literal ⟨c, false⟩) rest

/-- How deep a pattern may be nested. -/
def nestingLimit : Nat := 250

/-- Reads a whole pattern in front of which flags are changed. -/
def pattern? (change : FlagChange) (text : String) : Option Tree :=
  let cs := text.toList
  let start : State := ⟨false, []⟩
  let parts : List Tree := if change.set.isEmpty then [] else [.flags change]
  match branches? (cs.length + 1) (start.change change) [] parts cs with
  | some (t, _, []) => if t.nesting ≤ nestingLimit then some t else none
  | _ => none

end ShEx.Pattern.Reader
