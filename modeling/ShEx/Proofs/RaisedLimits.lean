import ShEx.Proofs.Termination

/-!
# Raised limits

A limit is looked at in three places: where a declaration begins, where the ways of sharing out arcs
are counted, and where a pattern is compiled.  Each of them goes on as before under a larger limit
unless it fails for the limit (`findPattern_of_le`, `decideAssignment_of_le`, `Enters`), and nothing
in between turns a failure into an answer (`Inquiry.Follows.conclusive`).  So an evaluation that
reaches no limit takes the same way under larger limits, step by step (`Returns.withLimits`): the
result and the state behind it are the same.
-/

set_option autoImplicit false

namespace ShEx

open ShEx.Rdf

variable {α : Type}

/-! ## Limits and results -/

/-- Limits are larger if each of them is. -/
instance : LE Limits := ⟨fun l l' => l.maxRecursionDepth ≤ l'.maxRecursionDepth ∧
  l.maxSearchSpace ≤ l'.maxSearchSpace ∧ l.maxRegexLength ≤ l'.maxRegexLength⟩

instance (l l' : Limits) : Decidable (l ≤ l') := inferInstanceAs (Decidable (_ ∧ _ ∧ _))

/-- Does a failure report that a limit is reached? -/
def Failure.isLimit : Failure → Bool
  | .searchSpaceExceeded _ _ => true
  | .malformedPattern _ (.tooLong _) => true
  | .recursionTooDeep _ => true
  | _ => false

/-- An answer, or a failure that is not for a limit. -/
def Conclusive (r : Except Failure α) : Prop := ∀ failure, r = .error failure → ¬failure.isLimit

/-- An answer does not report a limit. -/
theorem conclusive_ok (a : α) : Conclusive (.ok a : Except Failure α) := nofun

/-- The setting with other limits. -/
def Setting.withLimits (w : Setting) (limits : Limits) : Setting := { w with limits := limits }

/-! ## Patterns -/

section Patterns

variable {limit limit' : Nat} {known : KnownPatterns}

/-- A pattern that is not too long for the smaller limit is compiled as before under the larger
one. -/
theorem findPattern_of_le (hle : limit ≤ limit') {facet : PatternFacet}
    (h : Conclusive (findPattern limit facet known).1) :
    findPattern limit' facet known = findPattern limit facet known := by
  unfold findPattern at h ⊢
  cases hk : known.lookup facet with
  | some r => rfl
  | none =>
    rw [hk] at h
    have hcompile : Pattern.compileWithin limit' facet = Pattern.compileWithin limit facet := by
      unfold Pattern.compileWithin at h ⊢
      by_cases hlong : limit < facet.pattern.utf8ByteSize
      · rw [if_pos hlong] at h
        exact absurd rfl (h _ rfl)
      · rw [if_neg hlong, if_neg fun hlong' => hlong (Nat.lt_of_le_of_lt hle hlong')]
    rw [hcompile]

/-- What is composed of lookups goes on under a larger limit as before, unless it fails for the
limit: a failure of the first of two uses is the failure of both. -/
theorem PatternUse.Composed.eq_of_le (hle : limit ≤ limit') {facets : List StringFacet}
    {f f' : PatternUse α} (hf : Composed limit limit' facets f f') {known : KnownPatterns}
    (h : Conclusive (f known).1) : f' known = f known := by
  induction hf generalizing known with
  | answer a => rfl
  | find _ => exact findPattern_of_le hle h
  | @andThen α β f f' g g' _ _ first second =>
    rcases hr : f known with ⟨failure | a, later⟩
    · rw [andThen_of_error hr] at h
      have hfirst : Conclusive (f known).1 := by
        rw [hr]
        exact fun failure' hfailure => h failure' (by cases hfailure; rfl)
      rw [andThen_of_error hr, andThen_of_error ((first hfirst).trans hr)]
    · rw [andThen_of_ok hr] at h
      have hfirst : Conclusive (f known).1 := by
        rw [hr]
        exact conclusive_ok a
      rw [andThen_of_ok hr, andThen_of_ok ((first hfirst).trans hr)]
      exact second a h

end Patterns

/-! ## Assignments -/

/-- A search that is not refused under the smaller limit is not refused under the larger one, and
finds the same. -/
theorem decideAssignment_of_le {limit limit' : Nat} (hle : limit ≤ limit') {f : Formula}
    {slots : List TripleConstraint} {items : List (List Choice)}
    (h : Conclusive (decideAssignment limit f slots items)) :
    decideAssignment limit' f slots items = decideAssignment limit f slots items := by
  unfold decideAssignment at h ⊢
  dsimp only at h ⊢
  split at h
  · exact absurd rfl (h _ rfl)
  · next hfew =>
    have hfew' : ¬(!(openChoices items).isEmpty && limit' ≤ complexity (openChoices items)) := by
      rw [Bool.and_eq_true, decide_eq_true_eq] at hfew ⊢
      exact fun ⟨hopen, hmany⟩ => hfew ⟨hopen, hle.trans hmany⟩
    rw [if_neg hfew, if_neg hfew']

namespace Inquiry

variable {β : Type} {R R' : Answering}

/-- An inquiry passes on every failure of a question, so its questions are conclusive if its result
is. -/
theorem Follows.conclusive
    (hR : ∀ e node s r t, R e node s r t → Conclusive r → R' e node s r t) {q : Inquiry α}
    {s t : Session} {r : Except Failure α} (h : q.Follows R s r t) (hr : Conclusive r) :
    q.Follows R' s r t := by
  induction q generalizing s with
  | done a => exact h
  | failed failure => exact h
  | ask e node next ih =>
    rcases h with ⟨b, u, hb, hrest⟩ | ⟨failure, hf, rfl⟩
    · exact .inl ⟨b, u, hR _ _ _ _ _ hb (conclusive_ok b), ih b hrest⟩
    · exact .inr ⟨failure, hR _ _ _ _ _ hf fun f hf' => hr f (by cases hf'; rfl), rfl⟩

/-- Two continuations that do the same where one of them is conclusive can be exchanged. -/
theorem Follows.bind_congr {q : Inquiry α} {f g : α → Inquiry β}
    (hfg : ∀ a s r t, (f a).Follows R s r t → Conclusive r → (g a).Follows R s r t)
    {s t : Session} {r : Except Failure β} (h : (q >>= f).Follows R s r t) (hr : Conclusive r) :
    (q >>= g).Follows R s r t := by
  induction q generalizing s with
  | done a => exact hfg a _ _ _ h hr
  | failed failure => exact h
  | ask e node next ih =>
    rcases h with ⟨b, u, hb, hrest⟩ | hfailed
    · exact .inl ⟨b, u, hb, ih b hrest⟩
    · exact .inr hfailed

end Inquiry

/-- An inquiry without questions has its own result in every state. -/
theorem follows_ofExcept {R : Answering} {x : Except Failure α} {s t : Session}
    {r : Except Failure α} : (Inquiry.ofExcept x).Follows R s r t ↔ r = x ∧ t = s := by
  cases x <;> exact Iff.rfl

/-! ## Evaluations -/

namespace Setting

variable {w : Setting} {limits : Limits}

/-- The inquiry of a shape goes on as before where its search is not refused; all else in it does
not look at limits. -/
theorem follows_shapeInquiry_withLimits (hle : w.limits ≤ limits) {R : Answering} {shape : Shape}
    {node : Term} {s t : Session} {r : Except Failure Bool}
    (h : (w.shapeInquiry shape node).Follows R s r t) (hr : Conclusive r) :
    ((w.withLimits limits).shapeInquiry shape node).Follows R s r t := by
  rw [shapeInquiry_eq] at h ⊢
  refine Inquiry.Follows.bind_congr (fun compiled s r t h hr => ?_) h hr
  refine Inquiry.Follows.bind_congr (fun options s r t h hr => ?_) h hr
  cases options with
  | none => exact h
  | some items =>
    obtain ⟨rfl, rfl⟩ := follows_ofExcept.1 h
    exact follows_ofExcept.2 ⟨(decideAssignment_of_le hle.2.1 hr).symm, rfl⟩

/-- Only the inquiry of a shape looks at a limit. -/
theorem follows_inquiry_withLimits (hle : w.limits ≤ limits) {R : Answering} {e : ShapeExpr}
    {node : Term} {s t : Session} {r : Except Failure Bool}
    (h : (w.inquiry e node).Follows R s r t) (hr : Conclusive r) :
    ((w.withLimits limits).inquiry e node).Follows R s r t := by
  cases e with
  | shape shape => exact follows_shapeInquiry_withLimits hle h hr
  | _ => exact h

/-- A constraint that is evaluated anew compiles its patterns under the larger limit as before. -/
theorem evaluateFresh_withLimits (hle : w.limits ≤ limits) {c : NodeConstraint} {node : Term}
    {s t : Session} {r : Except Failure Bool} (h : w.evaluateFresh c node s = some (r, t))
    (hr : Conclusive r) : (w.withLimits limits).evaluateFresh c node s = some (r, t) := by
  obtain ⟨rfl, rfl⟩ := evaluateFresh_eq_some_iff.1 h
  have heq : c.evaluate (w.withLimits limits).limits.maxRegexLength node s.patterns =
      c.evaluate w.limits.maxRegexLength node s.patterns :=
    (c.evaluate_composed _ _ node).eq_of_le hle.2.2 hr
  rw [evaluateFresh_apply, heq]

/-- A constraint is evaluated as before, or given its answer again. -/
theorem evaluateConstraint_withLimits (hle : w.limits ≤ limits) {c : NodeConstraint} {node : Term}
    {s t : Session} {r : Except Failure Bool} (h : w.evaluateConstraint c node s = some (r, t))
    (hr : Conclusive r) : (w.withLimits limits).evaluateConstraint c node s = some (r, t) := by
  refine evaluateConstraint_eq_some_iff.2 ?_
  cases evaluateConstraint_eq_some_iff.1 h with
  | held hid ha => exact .held hid ha
  | unnumbered hid hf => exact .unnumbered hid (evaluateFresh_withLimits hle hf hr)
  | recorded hid ha hf => exact .recorded hid ha (evaluateFresh_withLimits hle hf hr)
  | failed hid ha hf => exact .failed hid ha (evaluateFresh_withLimits hle hf hr)

/-- A step that reaches no limit is a step under larger limits. -/
theorem OneStep.withLimits (hle : w.limits ≤ limits) {R R' : Answering}
    (hR : ∀ e node s r t, R e node s r t → Conclusive r → R' e node s r t) {e : ShapeExpr}
    {node : Term} {s t : Session} {r : Except Failure Bool} (h : w.OneStep R e node s r t)
    (hr : Conclusive r) : (w.withLimits limits).OneStep R' e node s r t := by
  have henters : ∀ {label : Label} {index : Nat} {d : Declaration},
      w.Enters label node s index d → (w.withLimits limits).Enters label node s index d :=
    fun he => ⟨he.known, he.unanswered, he.concrete, Nat.lt_of_lt_of_le he.shallow hle.1⟩
  cases h with
  | compound hc hq => exact .compound hc (follows_inquiry_withLimits hle (hq.conclusive hR hr) hr)
  | constraint hc => exact .constraint (evaluateConstraint_withLimits hle hc hr)
  | unknown hl => exact .unknown hl
  | held hl ha => exact .held hl ha
  | refused hl ha hd => exact .refused hl ha hd
  | tooDeep => exact absurd rfl (hr _ rfl)
  | settled he hbody => exact .settled (henters he) (hR _ _ _ _ _ hbody (conclusive_ok _))
  | abandoned he hbody => exact .abandoned (henters he) (hR _ _ _ _ _ hbody hr)

/-- An evaluation that reaches no limit goes the same way under larger limits. -/
theorem Returns.withLimits (hle : w.limits ≤ limits) {e : ShapeExpr} {node : Term} {s t : Session}
    {r : Except Failure Bool} (h : w.Returns e node s r t) (hr : Conclusive r) :
    (w.withLimits limits).Returns e node s r t := by
  refine Returns.induct
    (motive := fun e node s r t => Conclusive r → (w.withLimits limits).Returns e node s r t)
    (fun e node s r t hstep hr => ?_) h hr
  exact returns_iff.2 (hstep.withLimits hle (fun _ _ _ _ _ h hr => h.2 hr) hr)

end Setting

/-! ## Responses -/

/-- Limits never change a response: one that is not for a limit stays the same, and leaves the same
state, under limits that are as large or larger.  So what a larger limit can do is to replace a
failure that reports a limit. -/
theorem Session.respond_withLimits {w : Setting} {limits : Limits} (hle : w.limits ≤ limits)
    {q : Request} {s t : Session} {r : Except Failure Bool}
    (h : s.respond w q = some (r, t)) (hr : ∀ failure, r = .error failure → ¬failure.isLimit) :
    s.respond (w.withLimits limits) q = some (r, t) := by
  rw [respond_eq_some_iff] at h ⊢
  have hquestion : (w.withLimits limits).question? q = w.question? q := by
    cases q <;> rfl
  rw [hquestion]
  cases hq : w.question? q with
  | none =>
    rw [hq] at h
    exact h
  | some question =>
    rw [hq] at h
    exact h.withLimits hle hr

/-- Two declarations that ask for each other, nested as deep as they are allowed to be; one less,
and the failure is for the limit. -/
theorem Session.respond_withLimits_mutual :
    (Setting.mutual.withLimits ⟨2, 1, 0⟩).limits ≤ Limits.standard ∧ (∃ t,
      initial.respond (.withLimits .mutual ⟨2, 1, 0⟩)
        (.labelled (.iri ⟨"n"⟩) (some (.iri ⟨"A"⟩))) = some (.ok true, t) ∧
      initial.respond (.withLimits (.withLimits .mutual ⟨2, 1, 0⟩) .standard)
        (.labelled (.iri ⟨"n"⟩) (some (.iri ⟨"A"⟩))) = some (.ok true, t)) ∧
    ∃ t, initial.respond (.withLimits .mutual ⟨1, 1, 0⟩)
      (.labelled (.iri ⟨"n"⟩) (some (.iri ⟨"A"⟩))) = some (.error (.recursionTooDeep 1), t) := by
  have hle : (Setting.mutual.withLimits ⟨2, 1, 0⟩).limits ≤ Limits.standard := by decide
  exact ⟨hle, ⟨_, rfl, respond_withLimits hle rfl (conclusive_ok true)⟩, _, rfl⟩

end ShEx
