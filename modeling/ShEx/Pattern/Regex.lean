import ShEx.Unicode.CharSet

/-!
# Regular expressions and where they match

A regular expression is read as a relation between places of a text: from a place where a match
may start to the places where it may end.  The relation is computed for all starting places at
once.  A set of places is a list of Booleans, one for each place of the text, so a text of `n`
characters has `n + 1` of them.

* a set of characters moves each place over one character of the set;
* a look keeps the places that have a property of their neighbourhood;
* repetition without a bound adds places until nothing new is reached.

`search` asks whether some place reaches some place: the expression occurs in the text.
-/

set_option autoImplicit false

namespace ShEx.Pattern

open ShEx.Unicode

/-- A condition on a place, decided by the characters before and behind it. -/
inductive Look where
  | textStart
  | textEnd
  /-- The start of a line; with `crlf`, a carriage return ends a line too. -/
  | lineStart (crlf : Bool)
  | lineEnd (crlf : Bool)
  /-- Exactly one of the two neighbours is in the set of word characters. -/
  | boundary (word : CharSet)
  | noBoundary (word : CharSet)
  | wordStart (word : CharSet)
  | wordEnd (word : CharSet)
  /-- No word character before. -/
  | wordStartHalf (word : CharSet)
  /-- No word character behind. -/
  | wordEndHalf (word : CharSet)
deriving DecidableEq

/-- A regular expression. -/
inductive Regex where
  | empty
  | chars (set : CharSet)
  | look (look : Look)
  | cat (first second : Regex)
  | alt (first second : Regex)
  /-- At least `min` repetitions, and at most `max` if that is given. -/
  | times (body : Regex) (min : Nat) (max : Option Nat)
deriving DecidableEq, Inhabited

/-- Does a place between two characters, either of which may be missing at an end of the text,
satisfy a condition? -/
def Look.holds (look : Look) (before after : Option Char) : Bool :=
  match look with
  | .textStart => before.isNone
  | .textEnd => after.isNone
  | .lineStart false => before.isNone || before = some '\n'
  | .lineEnd false => after.isNone || after = some '\n'
  | .lineStart true =>
    before.isNone || before = some '\n' || (before = some '\r' && after != some '\n')
  | .lineEnd true =>
    after.isNone || after = some '\r' || (after = some '\n' && before != some '\r')
  | .boundary word => before.any word.contains != after.any word.contains
  | .noBoundary word => before.any word.contains == after.any word.contains
  | .wordStart word => !before.any word.contains && after.any word.contains
  | .wordEnd word => before.any word.contains && !after.any word.contains
  | .wordStartHalf word => !before.any word.contains
  | .wordEndHalf word => !after.any word.contains

/-- A set of places of a text, one flag for each place. -/
abbrev Places := List Bool

/-- The neighbours of each place of a text whose first place comes behind a given character. -/
def neighbours (before : Option Char) : List Char → List (Option Char × Option Char)
  | [] => [(before, none)]
  | c :: rest => (before, some c) :: neighbours (some c) rest

namespace Places

/-- All places of a text. -/
def all (text : List Char) : Places := List.replicate (text.length + 1) true

/-- The places of one set or the other. -/
def union (s t : Places) : Places := List.zipWith (· || ·) s t

/-- Is the set empty? -/
def isEmpty (s : Places) : Bool := !s.any id

/-- The places behind one character of a set that follows a place of the set. -/
def advance (set : CharSet) (text : List Char) (s : Places) : Places :=
  false :: List.zipWith (fun c here => here && set.contains c) text s

/-- The places of a set that satisfy a condition. -/
def filter (look : Look) (text : List Char) (s : Places) : Places :=
  List.zipWith (fun place here => here && look.holds place.1 place.2) (neighbours none text) s

/-- Repeats a step exactly so many times, or until it changes nothing. -/
def exactly (step : Places → Places) : Nat → Places → Places
  | 0, s => s
  | n + 1, s =>
    let t := step s
    if t = s then s else exactly step n t

/-- Adds what a step reaches, so many times or until nothing new is reached. -/
def upTo (step : Places → Places) : Nat → Places → Places
  | 0, s => s
  | n + 1, s =>
    let t := s.union (step s)
    if t = s then s else upTo step n t

end Places

namespace Regex

/-- The places that matches from a set of places can end at. -/
def reach (text : List Char) : Regex → Places → Places
  | .empty, s => s
  | .chars set, s => s.advance set text
  | .look condition, s => s.filter condition text
  | .cat first second, s => reach text second (reach text first s)
  | .alt first second, s => (reach text first s).union (reach text second s)
  | .times body min max, s =>
    let start := Places.exactly (fun t => reach text body t) min s
    match max with
    | none => Places.upTo (fun t => reach text body t) (text.length + 1) start
    | some max => Places.upTo (fun t => reach text body t) (max - min) start

/-- Does the expression match somewhere in the text? -/
def search (r : Regex) (text : List Char) : Bool := !(r.reach text (Places.all text)).isEmpty

/-- One expression after the other. -/
def ofList : List Regex → Regex
  | [] => .empty
  | [r] => r
  | r :: rs => .cat r (ofList rs)

/-- One of several expressions; of none, the one that matches nowhere. -/
def oneOf : List Regex → Regex
  | [] => .chars .empty
  | [r] => r
  | r :: rs => .alt r (oneOf rs)

end Regex

end ShEx.Pattern
