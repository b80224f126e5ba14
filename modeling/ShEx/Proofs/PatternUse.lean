import ShEx.Validation.NodeEvaluation

/-!
# How a constraint uses patterns

Whether a node satisfies a constraint is found out with the patterns that are known.  A step of this
either has its answer at once or looks one pattern up, and no step comes behind a failure.  So the
whole evaluation is composed of answers and of lookups (`NodeConstraint.evaluate_composed`).

What is true of answers and of lookups, and of two uses one after the other if it is true of both,
is true of every constraint: this is an induction on how its evaluation is composed.  Evaluations
under two limits are composed side by side, because a limit only matters where a pattern is looked
up; so the same induction serves for what relates the two.

The first use of it is that a constraint fails only for a pattern that cannot be used
(`NodeConstraint.evaluate_error`).
-/

set_option autoImplicit false

namespace ShEx

open ShEx.Rdf

/-- What is done with the patterns that are known: it has a result and leaves patterns behind. -/
abbrev PatternUse (α : Type) := KnownPatterns → Except Failure α × KnownPatterns

namespace PatternUse

variable {α β : Type}

/-! ## Composed uses -/

/-- An answer that needs no pattern. -/
def answer (a : α) : PatternUse α := fun known => (.ok a, known)

/-- Two uses one after the other: the second one depends on the answer of the first one, and a
failure of the first one is the failure of both. -/
def andThen (f : PatternUse α) (g : α → PatternUse β) : PatternUse β := fun known =>
  match f known with
  | (.ok a, later) => g a later
  | (.error failure, later) => (.error failure, later)

/-- Behind an answer the second use goes on with the patterns that are known then. -/
theorem andThen_of_ok {f : PatternUse α} {a : α} {known later : KnownPatterns}
    (h : f known = (.ok a, later)) (g : α → PatternUse β) : f.andThen g known = g a later := by
  unfold andThen
  rw [h]

/-- Behind a failure there is no second use. -/
theorem andThen_of_error {f : PatternUse α} {failure : Failure} {known later : KnownPatterns}
    (h : f known = (.error failure, later)) (g : α → PatternUse β) :
    f.andThen g known = (.error failure, later) := by
  unfold andThen
  rw [h]

/-- Two uses of the patterns among some facets are composed in the same way, one of them under a
limit of its own.  A property passes from lookups to constraints by induction on this. -/
inductive Composed (limit limit' : Nat) (facets : List StringFacet) :
    {α : Type} → PatternUse α → PatternUse α → Prop
  | answer {α : Type} (a : α) : Composed limit limit' facets (.answer a) (.answer a)
  | find {facet : PatternFacet} (h : .pattern facet ∈ facets) :
      Composed limit limit' facets (findPattern limit facet) (findPattern limit' facet)
  | andThen {α β : Type} {f f' : PatternUse α} {g g' : α → PatternUse β}
      (first : Composed limit limit' facets f f')
      (second : ∀ a, Composed limit limit' facets (g a) (g' a)) :
      Composed limit limit' facets (f.andThen g) (f'.andThen g')

/-- What is composed of the patterns among some facets is composed of those among more facets. -/
theorem Composed.mono {limit limit' : Nat} {facets facets' : List StringFacet}
    (hsub : ∀ facet, .pattern facet ∈ facets → .pattern facet ∈ facets') {f f' : PatternUse α}
    (h : Composed limit limit' facets f f') : Composed limit limit' facets' f f' := by
  induction h with
  | answer a => exact .answer a
  | find hfacet => exact .find (hsub _ hfacet)
  | andThen _ _ first second => exact .andThen first second

end PatternUse

open PatternUse

variable {limit limit' : Nat}

/-! ## From lookups to constraints -/

/-- A text is searched for a pattern as soon as the pattern is found. -/
theorem StringFacet.evaluate_pattern (limit : Nat) (text : String) (facet : PatternFacet) :
    (fun known => (StringFacet.pattern facet).evaluate limit text known) =
      PatternUse.andThen (findPattern limit facet) fun r => .answer (r.search text.toList) := by
  funext known
  simp only [StringFacet.evaluate, PatternUse.andThen]
  rcases findPattern limit facet known with ⟨_ | _, _⟩ <;> rfl

/-- The facets behind one that is satisfied are looked at, and no other ones. -/
theorem stringsEvaluate_cons (limit : Nat) (text : String) (facet : StringFacet)
    (facets : List StringFacet) :
    (fun known => stringsEvaluate limit text known (facet :: facets)) =
      PatternUse.andThen (fun known => facet.evaluate limit text known) fun
        | true => fun known => stringsEvaluate limit text known facets
        | false => .answer false := by
  funext known
  simp only [stringsEvaluate, PatternUse.andThen]
  rcases facet.evaluate limit text known with ⟨_ | _ | _, _⟩ <;> rfl

/-- The parts of a constraint that need no pattern stand before and behind those of the string. -/
theorem NodeConstraint.evaluate_eq (c : NodeConstraint) (limit : Nat) (node : Term) :
    c.evaluate limit node =
      if c.admits node then
        PatternUse.andThen (c.evaluateStrings limit node) fun b =>
          .answer (b && c.typeHolds node)
      else .answer false := by
  funext known
  unfold NodeConstraint.evaluate
  cases c.admits node with
  | false => rfl
  | true =>
    simp only [Bool.not_true, Bool.false_eq_true, if_false, if_true, PatternUse.andThen]
    rcases c.evaluateStrings limit node known with ⟨_ | _ | _, _⟩ <;> rfl

/-- A facet is a lookup if it is a pattern, and needs none if it is a length. -/
theorem StringFacet.evaluate_composed (facet : StringFacet) (limit limit' : Nat) (text : String) :
    Composed limit limit' [facet] (fun known => facet.evaluate limit text known)
      (fun known => facet.evaluate limit' text known) := by
  cases facet with
  | pattern facet =>
    rw [evaluate_pattern, evaluate_pattern]
    exact .andThen (.find List.mem_cons_self) fun _ => .answer _
  | _ => exact .answer _

/-- The facets of a string are looked at one after another. -/
theorem stringsEvaluate_composed (limit limit' : Nat) (text : String) (facets : List StringFacet) :
    Composed limit limit' facets (fun known => stringsEvaluate limit text known facets)
      (fun known => stringsEvaluate limit' text known facets) := by
  induction facets with
  | nil => exact .answer true
  | cons facet facets ih =>
    rw [stringsEvaluate_cons, stringsEvaluate_cons]
    refine .andThen ((facet.evaluate_composed limit limit' text).mono fun p hp => ?_) fun b => ?_
    · rw [List.mem_singleton.1 hp]
      exact List.mem_cons_self
    · cases b with
      | false => exact .answer false
      | true => exact ih.mono fun _ => List.mem_cons_of_mem _

/-- The evaluation of a constraint is composed of answers and of lookups of its own patterns. -/
theorem NodeConstraint.evaluate_composed (c : NodeConstraint) (limit limit' : Nat) (node : Term) :
    Composed limit limit' c.strings (c.evaluate limit node) (c.evaluate limit' node) := by
  have hstrings : Composed limit limit' c.strings (c.evaluateStrings limit node)
      (c.evaluateStrings limit' node) := by
    unfold NodeConstraint.evaluateStrings
    cases c.strings with
    | nil => exact .answer true
    | cons facet facets =>
      cases node.string? with
      | none => exact .answer false
      | some text => exact stringsEvaluate_composed limit limit' text _
  rw [evaluate_eq, evaluate_eq]
  split
  · exact .andThen hstrings fun _ => .answer _
  · exact .answer false

/-! ## Failures -/

/-- One of several facets is a pattern that cannot be used, and a failure tells why. -/
def Unusable (limit : Nat) (facets : List StringFacet) (failure : Failure) : Prop :=
  ∃ facet fault, .pattern facet ∈ facets ∧ Pattern.compileWithin limit facet = .error fault ∧
    failure = .malformedPattern facet.pattern fault

/-- A pattern that is not found is one that cannot be compiled. -/
theorem findPattern_error {facet : PatternFacet} {known : KnownPatterns} {failure : Failure}
    (h : (findPattern limit facet known).1 = .error failure) :
    ∃ fault, Pattern.compileWithin limit facet = .error fault ∧
      failure = .malformedPattern facet.pattern fault := by
  unfold findPattern at h
  split at h
  · cases h
  · split at h
    · cases h
    · next fault hfault =>
      cases h
      exact ⟨fault, hfault, rfl⟩

/-- A use fails only if one of the patterns it may look up cannot be used. -/
theorem PatternUse.Composed.unusable {α : Type} {facets : List StringFacet} {f f' : PatternUse α}
    (h : Composed limit limit' facets f f') {known : KnownPatterns} {failure : Failure}
    (hf : (f known).1 = .error failure) : Unusable limit facets failure := by
  induction h generalizing known with
  | answer a => cases hf
  | @find facet hfacet =>
    obtain ⟨fault, hfault, hfailure⟩ := findPattern_error hf
    exact ⟨facet, fault, hfacet, hfault, hfailure⟩
  | @andThen α β f f' g g' _ _ first second =>
    rcases hr : f known with ⟨failure' | a, later⟩
    · rw [andThen_of_error hr] at hf
      cases hf
      exact first (by rw [hr])
    · rw [andThen_of_ok hr] at hf
      exact second a hf

/-- A constraint is not evaluated only if one of its patterns cannot be used. -/
theorem NodeConstraint.evaluate_error {c : NodeConstraint} {node : Term} {known : KnownPatterns}
    {failure : Failure} (h : (c.evaluate limit node known).1 = .error failure) :
    Unusable limit c.strings failure :=
  (c.evaluate_composed limit limit node).unusable h

/-- A constraint whose patterns can be used is satisfied or not. -/
theorem NodeConstraint.exists_evaluate {c : NodeConstraint}
    (h : ∀ facet, .pattern facet ∈ c.strings →
      ∃ regex, Pattern.compileWithin limit facet = .ok regex)
    (node : Term) (known : KnownPatterns) : ∃ b, (c.evaluate limit node known).1 = .ok b := by
  cases hr : (c.evaluate limit node known).1 with
  | ok b => exact ⟨b, rfl⟩
  | error failure =>
    obtain ⟨facet, fault, hmem, hfault, -⟩ := evaluate_error hr
    obtain ⟨regex, hregex⟩ := h facet hmem
    rw [hfault] at hregex
    cases hregex

end ShEx
