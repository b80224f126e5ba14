import ShEx.Number.Digits
import ShEx.Pattern.Property
import ShEx.Pattern.Regex
import ShEx.Unicode.CaseFolding

/-!
# The regular expression of a pattern

Turns the tree of a pattern into a regular expression.  Flags hold from where they are set to the
end of the group, also across bars.  Where case does not count, every set of characters is closed
under changing case before it is negated.

Without the flag `u` a pattern speaks about ASCII only, and what could match anything else is
refused: negated classes, the dot, bytes beyond ASCII.
-/

set_option autoImplicit false

namespace ShEx.Pattern

open ShEx.Unicode

/-- The flags that hold at some place of a pattern. -/
structure Flags where
  caseInsensitive : Bool
  multiLine : Bool
  dotAll : Bool
  unicode : Bool
  crlf : Bool

namespace Flags

/-- The flags that hold if none is given. -/
def initial : Flags := ⟨false, false, false, true, false⟩

/-- The flags with one of them set or cleared. -/
def put (flags : Flags) (value : Bool) : Flag → Flags
  | .caseInsensitive => { flags with caseInsensitive := value }
  | .multiLine => { flags with multiLine := value }
  | .dotAll => { flags with dotAll := value }
  | .unicode => { flags with unicode := value }
  | .crlf => { flags with crlf := value }
  | .swapGreed => flags
  | .ignoreSpace => flags

/-- The flags after a change. -/
def apply (flags : Flags) (change : FlagChange) : Flags :=
  change.cleared.foldl (fun f flag => f.put false flag)
    (change.set.foldl (fun f flag => f.put true flag) flags)

/-- A set closed under changing case, where case does not count. -/
def folded (flags : Flags) (s : CharSet) : CharSet :=
  if !flags.caseInsensitive then s
  else if flags.unicode then CaseFolding.close s
  else CaseFolding.closeAscii s

/-- A set that may be matched: without Unicode it has to be ASCII. -/
def admitted? (flags : Flags) (s : CharSet) : Option CharSet :=
  if flags.unicode || s.isAscii then some s else none

/-- A set closed under changing case and then negated, if that is asked for. -/
def class? (flags : Flags) (negated : Bool) (s : CharSet) : Option CharSet :=
  let s := flags.folded s
  flags.admitted? (if negated then s.complement else s)

end Flags

/-- The characters of a short class. -/
def ShortClass.class? (flags : Flags) (negated : Bool) (kind : ShortClass) : Option CharSet :=
  let s := kind.characters flags.unicode
  flags.admitted? (if negated then s.complement else s)

/-- The characters of a property, which is known with Unicode only. -/
def PropertyQuery.class? (flags : Flags) (negated : Bool) (query : PropertyQuery) :
    Option CharSet :=
  if flags.unicode then query.characters?.bind (flags.class? negated) else none

/-- A character in a class. -/
def Literal.classChar? (flags : Flags) (l : Literal) : Option Char :=
  if flags.unicode || l.char.toNat < 0x80 then some l.char else none

/-- The result of an operation on two sets. -/
def ClassOperation.apply : ClassOperation → CharSet → CharSet → CharSet
  | .inter, s, t => s.inter t
  | .diff, s, t => s.diff t
  | .symmDiff, s, t => s.symmDiff t

mutual

/-- The characters of a member of a class. -/
def ClassItem.characters? (flags : Flags) : ClassItem → Option CharSet
  | .literal l => (l.classChar? flags).map .single
  | .range a b => do
    let first ← a.classChar? flags
    let last ← b.classChar? flags
    some (.between first last)
  | .named negated name => flags.class? negated (namedClassCharacters name)
  | .short negated kind => kind.class? flags negated
  | .property negated query => query.class? flags negated
  | .bracketed negated body =>
    match body.characters? flags with
    | none => none
    | some s => flags.class? negated s

/-- The characters of the body of a class.  The operands of an operation are closed under changing
case before it. -/
def ClassBody.characters? (flags : Flags) : ClassBody → Option CharSet
  | .items items => (ClassItem.rangesOfAll? flags items).map .ofRanges
  | .operation operation first second =>
    match first.characters? flags, second.characters? flags with
    | some s, some t => some (operation.apply (flags.folded s) (flags.folded t))
    | _, _ => none

/-- The ranges of a list of members. -/
def ClassItem.rangesOfAll? (flags : Flags) : List ClassItem → Option (List (Nat × Nat))
  | [] => some []
  | item :: items =>
    match item.characters? flags, ClassItem.rangesOfAll? flags items with
    | some s, some ranges => some (s.ranges ++ ranges)
    | _, _ => none

end

/-- The characters that a literal matches. -/
def Literal.characters? (flags : Flags) (l : Literal) : Option CharSet :=
  if !flags.unicode && l.isByte && 0x7F < l.char.toNat then none
  else some (flags.folded (.single l.char))

/-- The characters that a dot matches. -/
def Flags.dot? (flags : Flags) : Option CharSet :=
  if !flags.unicode then none
  else if flags.dotAll then some .all
  else some (CharSet.ofChars (if flags.crlf then ['\r', '\n'] else ['\n'])).complement

/-- The condition of an anchor. -/
def Anchor.look (flags : Flags) (anchor : Anchor) : Look :=
  let word := ShortClass.word.characters flags.unicode
  match anchor with
  | .lineStart => if flags.multiLine then .lineStart flags.crlf else .textStart
  | .lineEnd => if flags.multiLine then .lineEnd flags.crlf else .textEnd
  | .textStart => .textStart
  | .textEnd => .textEnd
  | .boundary => .boundary word
  | .noBoundary => .noBoundary word
  | .wordStart => .wordStart word
  | .wordEnd => .wordEnd word
  | .wordStartHalf => .wordStartHalf word
  | .wordEndHalf => .wordEndHalf word

mutual

/-- The regular expression of a pattern, and the flags that hold behind it. -/
def Tree.regex? (flags : Flags) : Tree → Option (Regex × Flags)
  | .empty => some (.empty, flags)
  | .literal l => (l.characters? flags).map fun s => (.chars s, flags)
  | .dot => flags.dot?.map fun s => (.chars s, flags)
  | .anchor a => some (.look (a.look flags), flags)
  | .short negated kind => (kind.class? flags negated).map fun s => (.chars s, flags)
  | .property negated query => (query.class? flags negated).map fun s => (.chars s, flags)
  | .bracketed negated body =>
    match body.characters? flags with
    | none => none
    | some s => (flags.class? negated s).map fun s => (.chars s, flags)
  | .flags change => some (.empty, flags.apply change)
  | .times body min max =>
    match body.regex? flags with
    | none => none
    | some (r, flags) => some (.times r min max, flags)
  | .group change body =>
    match body.regex? (flags.apply change) with
    | none => none
    | some (r, _) => some (r, flags)
  | .cat parts =>
    match Tree.regexes? flags parts with
    | none => none
    | some (rs, flags) => some (.ofList rs, flags)
  | .alt branches =>
    match Tree.regexes? flags branches with
    | none => none
    | some (rs, flags) => some (.oneOf rs, flags)

/-- The regular expressions of a list of patterns, the flags going from each to the next. -/
def Tree.regexes? (flags : Flags) : List Tree → Option (List Regex × Flags)
  | [] => some ([], flags)
  | t :: ts =>
    match t.regex? flags with
    | none => none
    | some (r, flags) =>
      match Tree.regexes? flags ts with
      | none => none
      | some (rs, flags) => some (r :: rs, flags)

end

/-! ## Size -/

/-- An estimate of the bytes that an automaton for a set of characters takes. -/
def charsFootprint (s : CharSet) : Nat :=
  match s.ranges with
  | [(first, last)] =>
    if first = last then
      32 *
        (if first < 0x80 then 1
        else if first < 0x800 then 2
        else if first < 0x10000 then 3
        else 4)
    else if last < 0x80 then 32 else 400
  | ranges => if s.isAscii then 32 + 8 * ranges.length else 300 + 60 * ranges.length

/-- An estimate of the bytes that an automaton for an expression takes: a repetition takes as much
as so many copies. -/
def Regex.footprint : Regex → Nat
  | .empty => 0
  | .chars s => charsFootprint s
  | .look _ => 32
  | .cat first second => first.footprint + second.footprint
  | .alt first second => first.footprint + second.footprint + 40
  | .times body min none => (body.footprint + 8) * max min 1 + 40
  | .times body _ (some n) => (body.footprint + 8) * n

/-- The size from which on an expression is refused. -/
def footprintLimit : Nat := 10 * Number.twoTo 20

/-- The expression, unless it is too large. -/
def Regex.bounded? (r : Regex) : Option Regex :=
  if r.footprint ≤ footprintLimit then some r else none

/-- The regular expression of a whole pattern. -/
def Tree.compiled? (t : Tree) : Option Regex :=
  (t.regex? .initial).bind fun (r, _) => r.bounded?

end ShEx.Pattern
