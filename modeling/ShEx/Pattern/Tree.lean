/-!
# Written patterns

The tree of a pattern as it is written, before flags have been applied and names of character
properties have been looked up.
-/

set_option autoImplicit false

namespace ShEx.Pattern

/-- The flags that can be set and cleared inside a pattern. -/
inductive Flag where
  | caseInsensitive
  | multiLine
  | dotAll
  | swapGreed
  | unicode
  | crlf
  | ignoreSpace
deriving DecidableEq

/-- A change of flags: those that are set, and those that are cleared. -/
structure FlagChange where
  set : List Flag
  cleared : List Flag

/-- The change of no flag. -/
def FlagChange.nothing : FlagChange := ⟨[], []⟩

/-- A character of a pattern.  One written with two hexadecimal digits stands for a byte where
Unicode is off. -/
structure Literal where
  char : Char
  isByte : Bool

/-- The classes with a letter of their own. -/
inductive ShortClass where
  | digit
  | space
  | word
deriving DecidableEq

/-- A question about a character property. -/
inductive PropertyQuery where
  /-- A category, script or property that is named alone. -/
  | named (name : String)
  /-- A property with a value. -/
  | valued (property value : String)

/-- The operations between the operands of a character class. -/
inductive ClassOperation where
  | inter
  | diff
  | symmDiff
deriving DecidableEq

mutual

/-- A member of a character class. -/
inductive ClassItem where
  | literal (literal : Literal)
  | range (first last : Literal)
  | named (negated : Bool) (name : String)
  | short (negated : Bool) (kind : ShortClass)
  | property (negated : Bool) (query : PropertyQuery)
  | bracketed (negated : Bool) (body : ClassBody)

/-- What stands between the brackets of a character class. -/
inductive ClassBody where
  | items (items : List ClassItem)
  | operation (operation : ClassOperation) (first second : ClassBody)

end

/-- A condition on a place, as it is written. -/
inductive Anchor where
  | lineStart
  | lineEnd
  | textStart
  | textEnd
  | boundary
  | noBoundary
  | wordStart
  | wordEnd
  | wordStartHalf
  | wordEndHalf
deriving DecidableEq

/-- A pattern. -/
inductive Tree where
  | empty
  | literal (literal : Literal)
  | dot
  | anchor (anchor : Anchor)
  | short (negated : Bool) (kind : ShortClass)
  | property (negated : Bool) (query : PropertyQuery)
  | bracketed (negated : Bool) (body : ClassBody)
  /-- Flags changed from here to the end of the group. -/
  | flags (change : FlagChange)
  | times (body : Tree) (min : Nat) (max : Option Nat)
  /-- A group, with flags changed inside. -/
  | group (change : FlagChange) (body : Tree)
  | cat (parts : List Tree)
  | alt (branches : List Tree)

/-- Several patterns one after the other. -/
def Tree.ofParts : List Tree → Tree
  | [] => .empty
  | [t] => t
  | parts => .cat parts

/-- Several patterns to choose from. -/
def Tree.ofBranches : List Tree → Tree
  | [t] => t
  | branches => .alt branches

/-! ## Nesting -/

mutual

/-- How deep the member of a class is nested. -/
def ClassItem.nesting : ClassItem → Nat
  | .bracketed _ body => body.nesting + 1
  | _ => 0

/-- How deep the body of a class is nested: several members side by side form a level, and so
does an operation. -/
def ClassBody.nesting : ClassBody → Nat
  | .items items =>
    let inside := ClassItem.nestingOfAll items
    if 2 ≤ items.length then inside + 1 else inside
  | .operation _ first second => max first.nesting second.nesting + 1

/-- The deepest nesting among members. -/
def ClassItem.nestingOfAll : List ClassItem → Nat
  | [] => 0
  | item :: items => max item.nesting (ClassItem.nestingOfAll items)

end

mutual

/-- How deep a pattern is nested. -/
def Tree.nesting : Tree → Nat
  | .bracketed _ body => body.nesting + 1
  | .times body _ _ => body.nesting + 1
  | .group _ body => body.nesting + 1
  | .cat parts => Tree.nestingOfAll parts + 1
  | .alt branches => Tree.nestingOfAll branches + 1
  | _ => 0

/-- The deepest nesting among patterns. -/
def Tree.nestingOfAll : List Tree → Nat
  | [] => 0
  | t :: ts => max t.nesting (Tree.nestingOfAll ts)

end

end ShEx.Pattern
