import ShEx.Proofs.Termination
import ShEx.Validation.Report

/-!
# Repeating a request

A request that is repeated is answered as before.  An answer is given again from every later state
(`Returns.again`).  A failure is given again at once: what was answered on the way to it is still
held, the declarations on the way were left without an answer and begin again in the same order, so
that the same declarations are in progress where it fails (`Returns.fails_again`).

Both are put together for the requests of a session in `Session.respond_again`.
-/

set_option autoImplicit false

namespace ShEx

open ShEx.Rdf

/-! ## Patterns -/

/-- A failure that was met with some patterns is met again with the same ones, and no other pattern
is compiled. -/
def FailsAgainWith {α : Type} (f : PatternUse α) : Prop :=
  ∀ known failure, (f known).1 = .error failure → ∀ later, PatternsWithin (f known).2 later →
    PatternsWithin later (f known).2 → f later = (.error failure, later)

/-- A pattern that cannot be compiled was not known before and is not known later, so it fails
again. -/
theorem findPattern_fails_again (limit : Nat) (facet : PatternFacet) :
    FailsAgainWith (findPattern limit facet) := by
  intro known failure hf later _ hback
  unfold findPattern at hf hback ⊢
  cases hk : known.lookup facet with
  | some r =>
    rw [hk] at hf
    cases hf
  | none =>
    rw [hk] at hf hback
    cases hc : Pattern.compileWithin limit facet with
    | ok r =>
      rw [hc] at hf
      cases hf
    | error fault =>
      rw [hc] at hf hback
      have hlater : later.lookup facet = none := by
        cases hl : later.lookup facet with
        | none => rfl
        | some r =>
          have hr := hback facet r hl
          rw [hk] at hr
          cases hr
      rw [hlater]
      cases hf
      rfl

/-- What is composed of lookups fails again: the uses before the one that failed have their answers
again and compile nothing new. -/
theorem PatternUse.Composed.failsAgainWith {α : Type} {limit limit' : Nat}
    {facets : List StringFacet} {f f' : PatternUse α} (h : Composed limit limit' facets f f') :
    FailsAgainWith f := by
  induction h with
  | answer a =>
    intro known failure hf
    cases hf
  | find _ => exact findPattern_fails_again limit _
  | @andThen α β f f' g g' first second ihfirst ihsecond =>
    intro known failure hf later hforth hback
    have hagain := (first.againWith known).2
    have hfails := ihfirst known
    rcases hr : f known with ⟨failure' | a, known'⟩
    · rw [andThen_of_error hr] at hf hforth hback
      rw [hr] at hfails
      cases hf
      exact andThen_of_error (hfails failure rfl later hforth hback) g
    · rw [andThen_of_ok hr] at hf hforth hback
      rw [hr] at hagain
      have hwithin := ((second a).againWith known').1
      rw [andThen_of_ok (hagain a rfl later (hwithin.trans hforth))]
      exact ihsecond a known' failure hf later hforth hback

/-! ## States -/

/-- Forgetting what was not answered changes nothing. -/
theorem Answers.forget_of_unanswered {answers : Answers} {index : Nat} {node : Term}
    (h : answers.answer? index node = none) : answers.forget index node = answers := by
  unfold Answers.answer? at h
  rw [Option.map_eq_none_iff, List.find?_eq_none] at h
  refine List.filter_eq_self.2 fun entry hentry => ?_
  rw [Bool.not_eq_true']
  exact Bool.eq_false_iff.2 (h entry hentry)

namespace Session

/-- Leaving a declaration that had no answer undoes its beginning. -/
theorem abandon_enter {s : Session} {index : Nat} {node : Term}
    (h : s.declarations.answer? index node = none) :
    (s.enter index node).abandon index node = s := by
  have hforget : (s.declarations.hold index node true).forget index node = s.declarations := by
    unfold Answers.hold
    rw [Answers.forget_of_unanswered h]
    refine Eq.trans ?_ (Answers.forget_of_unanswered h)
    unfold Answers.forget
    simp
  unfold enter abandon
  rw [hforget, Nat.add_sub_cancel]

/-- Two states hold the same, in whatever order, with as many declarations in progress. -/
structure Equivalent (s t : Session) : Prop where
  forth : s.Within t
  back : t.Within s
  depth : s.depth = t.depth

/-- Every state holds the same as itself. -/
theorem Equivalent.refl (s : Session) : s.Equivalent s := ⟨.refl s, .refl s, rfl⟩

/-- What was not answered before a declaration began is not answered once it has been left. -/
theorem Equivalent.unanswered {t u : Session} {index : Nat} {node : Term}
    (hu : (t.abandon index node).Equivalent u) : u.declarations.answer? index node = none := by
  apply hu.back.unanswered
  rw [answer?_abandon, if_pos ⟨rfl, rfl⟩]

/-- The declaration that was left begins again in the state it ended with. -/
theorem Equivalent.enter {s t u : Session} {index : Nat} {node : Term}
    (hst : (s.enter index node).Within t) (hdepth : t.depth = s.depth + 1)
    (hu : (t.abandon index node).Equivalent u) : t.Equivalent (u.enter index node) := by
  have htrue : t.declarations.answer? index node = some true := by
    apply hst.declarations
    rw [answer?_enter, if_pos ⟨rfl, rfl⟩]
  refine ⟨⟨fun i m b hb => ?_, hu.forth.constraints, hu.forth.patterns⟩,
    ⟨fun i m b hb => ?_, hu.back.constraints, hu.back.patterns⟩, ?_⟩
  · rw [answer?_enter]
    split
    · next h =>
      obtain ⟨rfl, rfl⟩ := h
      rw [← hb, htrue]
    · next h =>
      apply hu.forth.declarations
      rw [answer?_abandon, if_neg h, hb]
  · rw [answer?_enter] at hb
    split at hb
    · next h =>
      obtain ⟨rfl, rfl⟩ := h
      rw [htrue, hb]
    · next h =>
      have h' := hu.back.declarations i m b hb
      rwa [answer?_abandon, if_neg h] at h'
  · have h : t.depth - 1 = u.depth := hu.depth
    show t.depth = u.depth + 1
    omega

end Session

/-! ## Evaluations -/

namespace Setting

variable {w : Setting}

/-- A constraint that failed anew fails again in a state that holds the same as the one behind
it. -/
theorem evaluateFresh_fails_again {c : NodeConstraint} {node : Term} {s t : Session} {f : Failure}
    (h : w.evaluateFresh c node s = some (.error f, t)) {u : Session} (hu : t.Equivalent u) :
    w.evaluateFresh c node u = some (.error f, u) := by
  obtain ⟨hf, rfl⟩ := evaluateFresh_eq_some_iff.1 h
  have hcomposed := c.evaluate_composed w.limits.maxRegexLength w.limits.maxRegexLength node
  have hagain := hcomposed.failsAgainWith s.patterns f hf u.patterns hu.forth.patterns
    hu.back.patterns
  rw [evaluateFresh_apply, hagain]

/-- A constraint that failed was not given an answer, so it is evaluated again and fails as
before. -/
theorem evaluateConstraint_fails_again {c : NodeConstraint} {node : Term} {s t : Session}
    {f : Failure} (h : w.evaluateConstraint c node s = some (.error f, t)) {u : Session}
    (hu : t.Equivalent u) : w.evaluateConstraint c node u = some (.error f, u) := by
  refine evaluateConstraint_eq_some_iff.2 ?_
  cases evaluateConstraint_eq_some_iff.1 h with
  | unnumbered hid hf => exact .unnumbered hid (evaluateFresh_fails_again hf hu)
  | failed hid ha hf =>
    obtain ⟨⟨-, -, hk⟩, -⟩ := evaluateFresh_again hf
    rw [← hk] at ha
    exact .failed hid (hu.back.unanswered_constraint ha) (evaluateFresh_fails_again hf hu)

/-- An inquiry that failed comes again to the question it failed at, if that question fails
again. -/
theorem follows_fails_again {α : Type} {q : Inquiry α} {s t : Session} {f : Failure}
    (h : q.Follows (fun e node s r t => w.Returns e node s r t ∧
      ∀ f, r = .error f → ∀ u, t.Equivalent u → w.Returns e node u (.error f) u) s (.error f) t)
    {u : Session} (hu : t.Equivalent u) : q.Follows w.Returns u (.error f) u := by
  induction q generalizing s with
  | done a => cases h.1
  | failed failure =>
    obtain ⟨hf, -⟩ := h
    exact ⟨hf, rfl⟩
  | ask e node next ih =>
    rcases h with ⟨b, v, ⟨hb, -⟩, hrest⟩ | ⟨failure, ⟨-, hagain⟩, hf⟩
    · have hvt : v.Within t := (follows_keeps (fun _ _ _ _ _ hr => hr.1.keeps) hrest).1
      exact .inl ⟨b, u, hb.again (hvt.trans hu.forth), ih b hrest⟩
    · exact .inr ⟨failure, hagain failure rfl u hu, hf⟩

/-- A question that failed fails again in the state it left behind, which stays as it is. -/
theorem Returns.fails_again {e : ShapeExpr} {node : Term} {s t u : Session} {f : Failure}
    (h : w.Returns e node s (.error f) t) (hu : t.Equivalent u) :
    w.Returns e node u (.error f) u := by
  have key : ∀ f', (Except.error f : Except Failure Bool) = .error f' → ∀ u, t.Equivalent u →
      w.Returns e node u (.error f') u := by
    refine h.induct (motive := fun e node _ r t => ∀ f, r = .error f → ∀ u, t.Equivalent u →
      w.Returns e node u (.error f) u) fun e node s r t hs f' hf u hu => ?_
    cases hf
    cases hs with
    | compound hc hq => exact returns_iff.2 (.compound hc (follows_fails_again hq hu))
    | constraint hc => exact returns_iff.2 (.constraint (evaluateConstraint_fails_again hc hu))
    | refused hl ha hd => exact returns_iff.2 (.refused hl (hu.back.unanswered ha) hd)
    | tooDeep hl ha hd hm =>
      rw [hu.depth] at hm ⊢
      exact returns_iff.2 (.tooDeep hl (hu.back.unanswered ha) hd hm)
    | @abandoned _ _ _ t' index d _ he hr =>
      obtain ⟨hret, hagain⟩ := hr
      have hdepth : t'.depth = s.depth + 1 := hret.depth_eq
      have hnone := hu.unanswered
      -- Begun again, the declaration stands where its expression failed, and fails there again.
      have heq := hu.enter hret.within hdepth
      have hshallow : u.depth < w.limits.maxRecursionDepth := by
        have h : t'.depth = u.depth + 1 := heq.depth
        have hlt := he.shallow
        omega
      have hbegin := OneStep.abandoned ⟨he.known, hnone, he.concrete, hshallow⟩
        (hagain f' rfl _ heq)
      rw [Session.abandon_enter hnone] at hbegin
      exact returns_iff.2 hbegin
  exact key f rfl u hu

end Setting

/-! ## Requests -/

/-- What a session is asked about a pair. -/
def FixedAssociation.request (pair : FixedAssociation) : Request :=
  .labelled pair.node pair.target.label?

/-- Two declarations that ask for each other, of which only one may be in progress. -/
def Setting.shallow : Setting :=
  { Setting.mutual with limits := { Limits.standard with maxRecursionDepth := 1 } }

namespace Session

/-- The states that a session comes to from one of its states, by requests and by reports on many
pairs, whatever the responses are. -/
inductive Later (w : Setting) (s : Session) : Session → Prop
  | now : Later w s s
  | asked {t u : Session} {q : Request} {r : Except Failure Bool} (h : Later w s t)
      (hr : t.respond w q = some (r, u)) : Later w s u
  | reported {t u : Session} {failFast : Bool} {pairs : List FixedAssociation} {report : Report}
      (h : Later w s t) (hr : validateAll w failFast pairs t = some (report, u)) : Later w s u

variable {w : Setting}

/-- A request leaves what is held. -/
theorem respond_within {s t : Session} {q : Request} {r : Except Failure Bool}
    (h : s.respond w q = some (r, t)) : s.Within t := by
  rcases respond_cases h with ⟨e, node, -, h⟩ | ⟨-, -, rfl⟩
  · exact h.within
  · exact .refl _

/-- A report on several pairs begins with the response to the request of the first one, and goes on
with the others unless it stops there. -/
theorem validateAll_cons_eq_some_iff {failFast : Bool} {pair : FixedAssociation}
    {rest : List FixedAssociation} {s t : Session} {report : Report} :
    validateAll w failFast (pair :: rest) s = some (report, t) ↔
      ∃ r u, s.respond w pair.request = some (r, u) ∧
        ((failFast && !(Outcome.ofResult r).isConformant) = true ∧ t = u ∧
            report = [⟨pair, .ofResult r⟩] ∨
          (failFast && !(Outcome.ofResult r).isConformant) = false ∧
            ∃ others, validateAll w failFast rest u = some (others, t) ∧
              report = ⟨pair, .ofResult r⟩ :: others) := by
  have hfirst : s.validate w pair.node pair.target.label? = s.respond w pair.request := rfl
  rw [validateAll, hfirst]
  cases s.respond w pair.request with
  | none => simp
  | some result =>
    obtain ⟨r, u⟩ := result
    dsimp only
    constructor
    · intro h
      refine ⟨r, u, rfl, ?_⟩
      split at h
      · next hstop =>
        cases h
        exact .inl ⟨hstop, rfl, rfl⟩
      · next hgoes =>
        obtain ⟨⟨others, t'⟩, hrest, heq⟩ := Option.map_eq_some_iff.1 h
        cases heq
        exact .inr ⟨Bool.eq_false_iff.2 hgoes, others, hrest, rfl⟩
    · rintro ⟨_, _, heq, ⟨hstop, rfl, rfl⟩ | ⟨hgoes, others, hrest, rfl⟩⟩
      · cases heq
        rw [if_pos hstop]
      · cases heq
        rw [if_neg (Bool.eq_false_iff.1 hgoes), hrest]
        rfl

/-- A report on many pairs leaves what is held, since each of its requests does. -/
theorem validateAll_within {failFast : Bool} {pairs : List FixedAssociation} {s t : Session}
    {report : Report} (h : validateAll w failFast pairs s = some (report, t)) : s.Within t := by
  induction pairs generalizing s report with
  | nil =>
    cases h
    exact .refl _
  | cons pair rest ih =>
    obtain ⟨r, u, hr, ⟨-, rfl, -⟩ | ⟨-, others, hrest, -⟩⟩ := validateAll_cons_eq_some_iff.1 h
    · exact respond_within hr
    · exact (respond_within hr).trans (ih hrest)

/-- What a session holds at one time it holds at every later one. -/
theorem Later.within {s t : Session} (h : s.Later w t) : s.Within t := by
  induction h with
  | now => exact .refl s
  | asked _ hr ih => exact ih.trans (respond_within hr)
  | reported _ hr ih => exact ih.trans (validateAll_within hr)

/-- A request that is repeated at once is answered as before, with the same answer or the same
failure, and changes nothing.  One that was answered is answered so for ever, whatever is asked in
between. -/
theorem respond_again {s t : Session} {q : Request} {r : Except Failure Bool}
    (h : s.respond w q = some (r, t)) :
    t.respond w q = some (r, t) ∧
      ∀ b, r = .ok b → ∀ u, t.Later w u → u.respond w q = some (.ok b, u) := by
  rw [respond_eq_some_iff] at h
  simp only [respond_eq_some_iff]
  cases hq : w.question? q with
  | none =>
    rw [hq] at h
    obtain ⟨hr, -⟩ := h
    exact ⟨⟨hr, trivial⟩, fun b hb u _ => ⟨hb.symm.trans hr, trivial⟩⟩
  | some question =>
    rw [hq] at h
    dsimp only at h ⊢
    refine ⟨?_, ?_⟩
    · cases r with
      | ok b => exact h.again (.refl t)
      | error f => exact h.fails_again (.refl t)
    · rintro b rfl u hu
      exact h.again hu.within

/-- Between an answer and its repetition stands a request that fails, and fails again. -/
theorem respond_again_shallow : ∃ t u,
    initial.respond .shallow (.labelled (.iri ⟨"x"⟩) (some (.iri ⟨"B"⟩))) = some (.ok false, t) ∧
      t.respond .shallow (.labelled (.iri ⟨"n"⟩) (some (.iri ⟨"A"⟩))) =
        some (.error (.recursionTooDeep 1), u) ∧
      u.respond .shallow (.labelled (.iri ⟨"x"⟩) (some (.iri ⟨"B"⟩))) = some (.ok false, u) ∧
      u.respond .shallow (.labelled (.iri ⟨"n"⟩) (some (.iri ⟨"A"⟩))) =
        some (.error (.recursionTooDeep 1), u) := by
  have h₁ : initial.respond .shallow (.labelled (.iri ⟨"x"⟩) (some (.iri ⟨"B"⟩))) =
      some (.ok false, ⟨0, [((1, .iri ⟨"x"⟩), false)], [], []⟩) := rfl
  have h₂ : respond ⟨0, [((1, .iri ⟨"x"⟩), false)], [], []⟩ .shallow
      (.labelled (.iri ⟨"n"⟩) (some (.iri ⟨"A"⟩))) =
        some (.error (.recursionTooDeep 1), ⟨0, [((1, .iri ⟨"x"⟩), false)], [], []⟩) := rfl
  exact ⟨_, _, h₁, h₂, (respond_again h₁).2 false rfl _ (.asked .now h₂), (respond_again h₂).1⟩

end Session

end ShEx
