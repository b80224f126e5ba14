/-!
# Tables of code points

Tables are written as words separated by blanks, with code points in lower case hexadecimal
digits.  This module reads such words: `41-5a` is a range, `20Zs` the start of a run with a name.
-/

set_option autoImplicit false

namespace ShEx.Unicode.Table

/-- The value of a hexadecimal digit in either case; other characters count as zero. -/
def hexDigitValue (c : Char) : Nat :=
  if c.isDigit then c.toNat - '0'.toNat
  else if 'a' ≤ c && c ≤ 'f' then c.toNat - 'a'.toNat + 10
  else if 'A' ≤ c && c ≤ 'F' then c.toNat - 'A'.toNat + 10
  else 0

/-- The number that hexadecimal digits denote. -/
def hexValue (digits : List Char) : Nat :=
  digits.foldl (fun n c => 16 * n + hexDigitValue c) 0

/-- The last code point. -/
def lastCode : Nat := 0x10FFFF

/-- The text before the first occurrence of a character and the text after it; all of the text
and nothing if the character does not occur. -/
def cut (separator : Char) (text : List Char) : List Char × List Char :=
  (text.takeWhile (· != separator), (text.dropWhile (· != separator)).drop 1)

/-- The parts of a text between the occurrences of a character, empty parts left out. -/
def parts (separator : Char) (text : List Char) : List (List Char) :=
  let step (c : Char) : List Char × List (List Char) → List Char × List (List Char)
    | (part, done) =>
      if c = separator then ([], if part.isEmpty then done else part :: done)
      else (c :: part, done)
  let (part, done) := text.foldr step ([], [])
  if part.isEmpty then done else part :: done

/-- The words of a text, which may have several lines. -/
def words (text : String) : List (List Char) :=
  parts ' ' (text.toList.map fun c => if c = '\n' then ' ' else c)

/-- The range that a word gives: `first-last`, or one code point. -/
def range (word : List Char) : Nat × Nat :=
  let (first, last) := cut '-' word
  (hexValue first, if last.isEmpty then hexValue first else hexValue last)

/-- The ranges that a text gives. -/
def ranges (text : String) : List (Nat × Nat) := (words text).map range

/-- The start of a run and its name: hexadecimal digits in lower case, then letters that begin
with one in upper case. -/
def runStart (word : List Char) : Nat × String :=
  (hexValue (word.takeWhile fun c => !c.isUpper),
    String.ofList (word.dropWhile fun c => !c.isUpper))

/-- The runs of a list of starts, each up to the next start and the last one to the end. -/
def closeRuns : List (Nat × String) → List (Nat × Nat × String)
  | [] => []
  | [(first, name)] => [(first, lastCode, name)]
  | (first, name) :: (next, following) :: rest =>
    (first, next - 1, name) :: closeRuns ((next, following) :: rest)

/-- The runs that a text gives. -/
def runs (text : String) : List (Nat × Nat × String) := closeRuns ((words text).map runStart)

end ShEx.Unicode.Table
