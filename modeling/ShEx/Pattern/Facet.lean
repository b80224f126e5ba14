import ShEx.Expression.NodeConstraint
import ShEx.Pattern.Meaning
import ShEx.Pattern.Reader

/-!
# Pattern facets

Compiles the pattern of a node constraint together with its flags.  The flags are `i`, `m`, `s`
and `x`, each as often as one likes, and `q`, under which every character of the pattern stands
for itself and of the other flags only `i` counts.

A facet fails for one of three causes, and the text of the flags is looked at first.
-/

set_option autoImplicit false

namespace ShEx.Pattern

open ShEx.Unicode

/-- Why a pattern cannot be used. -/
inductive Fault where
  /-- It has more bytes than the limit. -/
  | tooLong (limit : Nat)
  | unsupportedFlag (flag : Char)
  /-- It is no regular expression, or one that is too large. -/
  | malformed
deriving DecidableEq

/-- What flags ask for: whether the pattern is quoted, and which flags are set inside it. -/
structure Options where
  quoted : Bool
  flags : List Flag

namespace Options

/-- The options if there are no flags. -/
def initial : Options := ⟨false, []⟩

/-- The options with a flag set, once however often it is given. -/
def set (options : Options) (flag : Flag) : Options :=
  if options.flags.contains flag then options
  else { options with flags := options.flags ++ [flag] }

/-- The options with one more flag. -/
def add? (options : Options) (flag : Char) : Option Options :=
  match flag with
  | 'i' => some (options.set .caseInsensitive)
  | 'm' => some (options.set .multiLine)
  | 's' => some (options.set .dotAll)
  | 'x' => some (options.set .ignoreSpace)
  | 'q' => some { options with quoted := true }
  | _ => none

/-- The options with more flags; the first one that is not supported is an error. -/
def addAll (options : Options) : List Char → Except Fault Options
  | [] => .ok options
  | flag :: flags =>
    match options.add? flag with
    | none => .error (.unsupportedFlag flag)
    | some options => options.addAll flags

end Options

/-- The expression that matches exactly a text, or exactly the texts that differ from it by case
only. -/
def quotedRegex (caseInsensitive : Bool) (text : List Char) : Regex :=
  let flags := { Flags.initial with caseInsensitive := caseInsensitive }
  .ofList (text.map fun c => .chars (flags.folded (.single c)))

/-- The regular expression of a pattern with its flags, or why there is none. -/
def compile (facet : PatternFacet) : Except Fault Regex :=
  match Options.initial.addAll (facet.flags.getD "").toList with
  | .error fault => .error fault
  | .ok options =>
    let regex? :=
      if options.quoted then
        (quotedRegex (options.flags.contains .caseInsensitive) facet.pattern.toList).bounded?
      else (Reader.pattern? ⟨options.flags, []⟩ facet.pattern).bind Tree.compiled?
    match regex? with
    | some r => .ok r
    | none => .error .malformed

/-- The regular expression of a pattern that has at most so many bytes. -/
def compileWithin (limit : Nat) (facet : PatternFacet) : Except Fault Regex :=
  if limit < facet.pattern.utf8ByteSize then .error (.tooLong limit) else compile facet

end ShEx.Pattern
