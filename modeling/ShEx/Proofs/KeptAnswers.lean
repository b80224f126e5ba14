import ShEx.Proofs.PatternUse
import ShEx.Proofs.Returns

/-!
# What a session keeps

A session only grows: an evaluation that returns, with an answer or with a failure, leaves every
answer and every compiled pattern that was there before, and the number of declarations in progress
is what it was (`Returns.within`, `Returns.depth_eq`).

An answer that was given can be given again at once: a question that returned an answer returns the
same one from every later state, and no declaration begins for it (`Returns.again`).
-/

set_option autoImplicit false

namespace ShEx

open ShEx.Rdf

/-! ## Answers -/

namespace Answers

/-- The answer that was added last is found first. -/
theorem answer?_cons (entry : (Nat × Term) × Bool) (rest : Answers) (i : Nat) (m : Term) :
    answer? (entry :: rest) i m =
      if entry.1.1 = i ∧ entry.1.2 = m then some entry.2 else rest.answer? i m := by
  unfold answer?
  rw [List.find?_cons]
  by_cases h : entry.1.1 = i ∧ entry.1.2 = m
  · simp [h]
  · have hd : (decide (entry.1.1 = i) && decide (entry.1.2 = m)) = false := by
      simpa using h
    rw [hd, if_neg h]

/-- Some answers are left out, by what they are about. -/
theorem answer?_filter (answers : Answers) (p : Nat × Term → Bool) (i : Nat) (m : Term) :
    answer? (answers.filter fun entry => p entry.1) i m =
      if p (i, m) then answers.answer? i m else none := by
  induction answers with
  | nil =>
    split <;> rfl
  | cons entry rest ih =>
    cases hp : p entry.1 with
    | true =>
      rw [List.filter_cons, hp, if_pos rfl, answer?_cons, answer?_cons, ih]
      split
      · next h =>
        obtain ⟨rfl, rfl⟩ := h
        rw [if_pos hp]
      · rfl
    | false =>
      rw [List.filter_cons, hp, if_neg Bool.false_ne_true, ih, answer?_cons]
      split
      · next hpi =>
        rw [if_neg]
        rintro ⟨rfl, rfl⟩
        cases hp.symm.trans hpi
      · rfl

/-- Forgetting an answer leaves all others. -/
theorem answer?_forget (answers : Answers) (index i : Nat) (node m : Term) :
    (answers.forget index node).answer? i m =
      if index = i ∧ node = m then none else answers.answer? i m := by
  refine (answer?_filter answers (fun key => !(key.1 = index && key.2 = node)) i m).trans ?_
  by_cases h : index = i ∧ node = m
  · simp [h]
  · have h' : ¬(i = index ∧ m = node) := fun h' => h ⟨h'.1.symm, h'.2.symm⟩
    simp [h, h']

/-- Holding an answer replaces the one there was and leaves all others. -/
theorem answer?_hold (answers : Answers) (index i : Nat) (node m : Term) (b : Bool) :
    (answers.hold index node b).answer? i m =
      if index = i ∧ node = m then some b else answers.answer? i m := by
  unfold hold
  rw [answer?_cons, answer?_forget]
  split <;> rfl

/-- What is answered behind a further answer is that answer, or was answered before. -/
theorem answer?_hold_cases {answers : Answers} {index i : Nat} {node m : Term} {b c : Bool}
    (h : (answers.hold index node b).answer? i m = some c) :
    ((index = i ∧ node = m) ∧ b = c) ∨
      (¬(index = i ∧ node = m) ∧ answers.answer? i m = some c) := by
  rw [answer?_hold] at h
  split at h
  · next heq => exact .inl ⟨heq, Option.some.inj h⟩
  · next hne => exact .inr ⟨hne, h⟩

/-- What is answered where an answer was forgotten is another one, and was answered before. -/
theorem answer?_forget_cases {answers : Answers} {index i : Nat} {node m : Term} {c : Bool}
    (h : (answers.forget index node).answer? i m = some c) :
    ¬(index = i ∧ node = m) ∧ answers.answer? i m = some c := by
  rw [answer?_forget] at h
  split at h
  · cases h
  · next hne => exact ⟨hne, h⟩

end Answers

/-! ## Compiled patterns -/

/-- The patterns that are known are known among others. -/
def PatternsWithin (known known' : KnownPatterns) : Prop :=
  ∀ facet r, known.lookup facet = some r → known'.lookup facet = some r

/-- The patterns that are known are among themselves. -/
theorem PatternsWithin.refl (known : KnownPatterns) : PatternsWithin known known := fun _ _ h => h

/-- Patterns stay known through several evaluations. -/
theorem PatternsWithin.trans {k k' k'' : KnownPatterns} (h : PatternsWithin k k')
    (h' : PatternsWithin k' k'') : PatternsWithin k k'' :=
  fun facet r hr => h' facet r (h facet r hr)

/-- A result that was reached with some patterns is reached again with all that are known then, and
no other pattern is compiled. -/
def AgainWith {α : Type} (f : PatternUse α) : Prop :=
  ∀ known, PatternsWithin known (f known).2 ∧
    ∀ a, (f known).1 = .ok a → ∀ later, PatternsWithin (f known).2 later → f later = (.ok a, later)

/-- A pattern that was found is found again without compiling it. -/
theorem findPattern_again (limit : Nat) (facet : PatternFacet) :
    AgainWith (findPattern limit facet) := by
  intro known
  unfold findPattern
  cases hk : known.lookup facet with
  | some r =>
    refine ⟨.refl known, ?_⟩
    intro a ha later hl
    cases ha
    rw [hl facet r hk]
  | none =>
    cases hc : Pattern.compileWithin limit facet with
    | error fault => exact ⟨.refl known, nofun⟩
    | ok r =>
      refine ⟨?_, ?_⟩
      · intro facet' r' h
        have hne : (facet' == facet) = false := by
          rw [beq_eq_false_iff_ne]
          rintro rfl
          rw [hk] at h
          cases h
        rw [List.lookup_cons, hne]
        exact h
      · intro a ha later hl
        cases ha
        have hfound : later.lookup facet = some r := by
          apply hl
          rw [List.lookup_cons, BEq.rfl]
        rw [hfound]

/-- What is composed of lookups is reached again with all that is known then: what the first of two
uses leaves behind is still known behind the second one. -/
theorem PatternUse.Composed.againWith {α : Type} {limit limit' : Nat} {facets : List StringFacet}
    {f f' : PatternUse α} (h : Composed limit limit' facets f f') : AgainWith f := by
  induction h with
  | answer a =>
    refine fun known => ⟨.refl known, fun a' ha later _ => ?_⟩
    cases ha
    rfl
  | find _ => exact findPattern_again limit _
  | @andThen α β f f' g g' _ _ first second =>
    intro known
    obtain ⟨hwithin, hagain⟩ := first known
    rcases hr : f known with ⟨failure | a, later⟩
    · rw [hr] at hwithin
      rw [andThen_of_error hr]
      exact ⟨hwithin, nofun⟩
    · rw [hr] at hwithin hagain
      rw [andThen_of_ok hr]
      obtain ⟨hwithin', hagain'⟩ := second a later
      refine ⟨hwithin.trans hwithin', fun b hb last hlast => ?_⟩
      rw [andThen_of_ok (hagain a rfl last (hwithin'.trans hlast))]
      exact hagain' b hb last hlast

/-! ## States -/

/-- Everything that one state holds is held by another one. -/
structure Session.Within (s t : Session) : Prop where
  declarations : ∀ index node b, s.declarations.answer? index node = some b →
    t.declarations.answer? index node = some b
  constraints : ∀ index node b, s.constraints.answer? index node = some b →
    t.constraints.answer? index node = some b
  patterns : PatternsWithin s.patterns t.patterns

namespace Session

/-- Every state is within itself. -/
theorem Within.refl (s : Session) : s.Within s := ⟨fun _ _ _ h => h, fun _ _ _ h => h, .refl _⟩

/-- What is held stays held through several evaluations. -/
theorem Within.trans {s t u : Session} (h : s.Within t) (h' : t.Within u) : s.Within u :=
  ⟨fun i m b hb => h'.declarations i m b (h.declarations i m b hb),
    fun i m b hb => h'.constraints i m b (h.constraints i m b hb), h.patterns.trans h'.patterns⟩

/-- What a later state does not answer was not answered before. -/
theorem Within.unanswered {s t : Session} (h : s.Within t) {index : Nat} {node : Term}
    (ht : t.declarations.answer? index node = none) :
    s.declarations.answer? index node = none := by
  refine Option.eq_none_iff_forall_ne_some.2 fun b hb => ?_
  rw [h.declarations index node b hb] at ht
  cases ht

/-- A constraint that a later state does not answer was not answered before. -/
theorem Within.unanswered_constraint {s t : Session} (h : s.Within t) {index : Nat} {node : Term}
    (ht : t.constraints.answer? index node = none) : s.constraints.answer? index node = none := by
  refine Option.eq_none_iff_forall_ne_some.2 fun b hb => ?_
  cases ht.symm.trans (h.constraints index node b hb)

/-- A declaration in progress is answered `true`. -/
theorem answer?_enter (s : Session) (index i : Nat) (node m : Term) :
    (s.enter index node).declarations.answer? i m =
      if index = i ∧ node = m then some true else s.declarations.answer? i m :=
  Answers.answer?_hold _ _ _ _ _ _

/-- A declaration that ends is answered as it ended. -/
theorem answer?_settle (s : Session) (index i : Nat) (node m : Term) (b : Bool) :
    (s.settle index node b).declarations.answer? i m =
      if index = i ∧ node = m then some b else s.declarations.answer? i m :=
  Answers.answer?_hold _ _ _ _ _ _

/-- A declaration that fails is no longer answered. -/
theorem answer?_abandon (s : Session) (index i : Nat) (node m : Term) :
    (s.abandon index node).declarations.answer? i m =
      if index = i ∧ node = m then none else s.declarations.answer? i m :=
  Answers.answer?_forget _ _ _ _ _

/-- A constraint that was evaluated is answered under its number. -/
theorem answer?_record (s : Session) (index i : Nat) (node m : Term) (b : Bool) :
    (s.record index node b).constraints.answer? i m =
      if index = i ∧ node = m then some b else s.constraints.answer? i m :=
  Answers.answer?_hold _ _ _ _ _ _

/-- Recording the answer of a constraint that has none keeps all answers. -/
theorem within_record {s : Session} {index : Nat} {node : Term} {b : Bool}
    (h : s.constraints.answer? index node = none) : s.Within (s.record index node b) := by
  refine ⟨fun _ _ _ h => h, fun i m b' hb => ?_, .refl _⟩
  rw [answer?_record, if_neg]
  · exact hb
  · rintro ⟨rfl, rfl⟩
    cases h.symm.trans hb

/-- Beginning with a declaration that has no answer keeps all answers. -/
theorem within_enter {s : Session} {index : Nat} {node : Term}
    (h : s.declarations.answer? index node = none) : s.Within (s.enter index node) := by
  refine ⟨fun i m b hb => ?_, fun _ _ _ h => h, .refl _⟩
  rw [answer?_enter, if_neg]
  · exact hb
  · rintro ⟨rfl, rfl⟩
    cases h.symm.trans hb

/-- Ending with a declaration that had no answer keeps the answers from before it. -/
theorem Within.settle {s t : Session} {index : Nat} {node : Term} {b : Bool}
    (h : s.declarations.answer? index node = none) (hst : (s.enter index node).Within t) :
    s.Within (t.settle index node b) := by
  have hs := (within_enter h).trans hst
  refine ⟨fun i m b' hb => ?_, hs.constraints, hs.patterns⟩
  rw [answer?_settle, if_neg]
  · exact hs.declarations i m b' hb
  · rintro ⟨rfl, rfl⟩
    cases h.symm.trans hb

/-- Ending without an answer keeps the answers from before it as well. -/
theorem Within.abandon {s t : Session} {index : Nat} {node : Term}
    (h : s.declarations.answer? index node = none) (hst : (s.enter index node).Within t) :
    s.Within (t.abandon index node) := by
  have hs := (within_enter h).trans hst
  refine ⟨fun i m b' hb => ?_, hs.constraints, hs.patterns⟩
  rw [answer?_abandon, if_neg]
  · exact hs.declarations i m b' hb
  · rintro ⟨rfl, rfl⟩
    cases h.symm.trans hb

end Session

namespace Setting

variable {w : Setting}

/-- A constraint evaluated anew, state by state. -/
theorem evaluateFresh_apply (c : NodeConstraint) (node : Term) (s : Session) :
    w.evaluateFresh c node s =
      some ((c.evaluate w.limits.maxRegexLength node s.patterns).1,
        { s with patterns := (c.evaluate w.limits.maxRegexLength node s.patterns).2 }) := rfl

/-- Evaluating a constraint anew changes what is known of patterns only. -/
theorem evaluateFresh_eq_some_iff {c : NodeConstraint} {node : Term} {s t : Session}
    {r : Except Failure Bool} :
    w.evaluateFresh c node s = some (r, t) ↔
      (c.evaluate w.limits.maxRegexLength node s.patterns).1 = r ∧
        { s with patterns := (c.evaluate w.limits.maxRegexLength node s.patterns).2 } = t := by
  rw [evaluateFresh_apply, Option.some_inj, Prod.mk.injEq]

/-- A constraint evaluated state by state. -/
theorem evaluateConstraint_apply (c : NodeConstraint) (node : Term) (s : Session) :
    w.evaluateConstraint c node s =
      match c.id with
      | none => w.evaluateFresh c node s
      | some index =>
        match s.constraints.answer? index node with
        | some b => some (.ok b, s)
        | none =>
          match w.evaluateFresh c node s with
          | some (.ok b, t) => some (.ok b, t.record index node b)
          | other => other := by
  unfold evaluateConstraint
  cases c.id with
  | none => rfl
  | some index =>
    dsimp only
    rw [Evaluation.bind_apply]
    show (match s.constraints.answer? index node with
      | some b => pure b
      | none => _ : Evaluation Bool) s = _
    cases s.constraints.answer? index node with
    | some b => rfl
    | none =>
      dsimp only
      rw [Evaluation.bind_apply, evaluateFresh_apply]
      cases (c.evaluate w.limits.maxRegexLength node s.patterns).1 <;> rfl

/-- What the evaluation of a constraint in a state does: it gives the answer that is held, or
evaluates the constraint anew and records the answer, if there is one, under its number. -/
inductive ConstraintStep (w : Setting) (c : NodeConstraint) (node : Term) (s : Session) :
    Except Failure Bool → Session → Prop
  | held {index : Nat} {b : Bool} (hid : c.id = some index)
      (ha : s.constraints.answer? index node = some b) : ConstraintStep w c node s (.ok b) s
  | unnumbered {r : Except Failure Bool} {t : Session} (hid : c.id = none)
      (h : w.evaluateFresh c node s = some (r, t)) : ConstraintStep w c node s r t
  | recorded {index : Nat} {b : Bool} {t : Session} (hid : c.id = some index)
      (ha : s.constraints.answer? index node = none)
      (h : w.evaluateFresh c node s = some (.ok b, t)) :
      ConstraintStep w c node s (.ok b) (t.record index node b)
  | failed {index : Nat} {f : Failure} {t : Session} (hid : c.id = some index)
      (ha : s.constraints.answer? index node = none)
      (h : w.evaluateFresh c node s = some (.error f, t)) : ConstraintStep w c node s (.error f) t

/-- The evaluation of a constraint, by cases. -/
theorem evaluateConstraint_eq_some_iff {c : NodeConstraint} {node : Term} {s t : Session}
    {r : Except Failure Bool} :
    w.evaluateConstraint c node s = some (r, t) ↔ w.ConstraintStep c node s r t := by
  constructor
  · intro h
    rw [evaluateConstraint_apply] at h
    cases hid : c.id with
    | none =>
      rw [hid] at h
      exact .unnumbered hid h
    | some index =>
      rw [hid] at h
      dsimp only at h
      cases ha : s.constraints.answer? index node with
      | some b =>
        rw [ha] at h
        cases h
        exact .held hid ha
      | none =>
        rw [ha] at h
        dsimp only at h
        split at h
        · next hf =>
          cases h
          exact .recorded hid ha hf
        · next hnot =>
          cases r with
          | ok b => exact absurd h (hnot b t)
          | error f => exact .failed hid ha h
  · intro h
    cases h with
    | held hid ha => simp only [evaluateConstraint_apply, hid, ha]
    | unnumbered hid h => simp only [evaluateConstraint_apply, hid, h]
    | recorded hid ha h => simp only [evaluateConstraint_apply, hid, ha, h]
    | failed hid ha h => simp only [evaluateConstraint_apply, hid, ha, h]

/-- The evaluation of a constraint ends. -/
theorem exists_evaluateConstraint (c : NodeConstraint) (node : Term) (s : Session) :
    ∃ r t, w.evaluateConstraint c node s = some (r, t) := by
  cases h : w.evaluateConstraint c node s with
  | some result => exact ⟨result.1, result.2, rfl⟩
  | none =>
    rw [evaluateConstraint_apply] at h
    repeat' split at h
    all_goals cases h

/-- A property that evaluating a constraint anew and recording its answer keep is kept by evaluating
the constraint. -/
theorem evaluateConstraint_keeps {I : Session → Prop} {c : NodeConstraint} {node : Term}
    {s t : Session} {r : Except Failure Bool} (h : w.evaluateConstraint c node s = some (r, t))
    (hs : I s) (hfresh : ∀ r u, w.evaluateFresh c node s = some (r, u) → I u)
    (hrecord : ∀ index b u, c.id = some index → I u → I (u.record index node b)) : I t := by
  cases evaluateConstraint_eq_some_iff.1 h with
  | held _ _ => exact hs
  | unnumbered _ hf => exact hfresh _ _ hf
  | recorded hid _ hf => exact hrecord _ _ _ hid (hfresh _ _ hf)
  | failed _ _ hf => exact hfresh _ _ hf

/-- Constraints are no declarations. -/
theorem evaluateConstraint_declarations {c : NodeConstraint} {node : Term} {s t : Session}
    {r : Except Failure Bool} (h : w.evaluateConstraint c node s = some (r, t)) :
    t.declarations = s.declarations := by
  refine evaluateConstraint_keeps (I := fun u => u.declarations = s.declarations) h rfl ?_ ?_
  · intro r u hf
    obtain ⟨-, rfl⟩ := evaluateFresh_eq_some_iff.1 hf
    rfl
  · intro index b u _ hu
    exact hu

/-- Evaluating a constraint anew keeps what is held, and an answer is reached again from every later
state, which stays as it is. -/
theorem evaluateFresh_again {c : NodeConstraint} {node : Term} {s t : Session}
    {r : Except Failure Bool} (h : w.evaluateFresh c node s = some (r, t)) :
    (s.Within t ∧ t.depth = s.depth ∧ t.constraints = s.constraints) ∧
      ∀ b, r = .ok b → ∀ u, t.Within u → w.evaluateFresh c node u = some (.ok b, u) := by
  obtain ⟨rfl, rfl⟩ := evaluateFresh_eq_some_iff.1 h
  have hc := (c.evaluate_composed w.limits.maxRegexLength w.limits.maxRegexLength node).againWith
    s.patterns
  refine ⟨⟨⟨fun _ _ _ h => h, fun _ _ _ h => h, hc.1⟩, rfl, rfl⟩, ?_⟩
  intro b hb u hu
  rw [evaluateFresh_apply, hc.2 b hb u.patterns hu.patterns]

/-- Evaluating a constraint keeps what is held, and an answer is given again from every later state,
which stays as it is. -/
theorem evaluateConstraint_again {c : NodeConstraint} {node : Term} {s t : Session}
    {r : Except Failure Bool} (h : w.evaluateConstraint c node s = some (r, t)) :
    (s.Within t ∧ t.depth = s.depth) ∧
      ∀ b, r = .ok b → ∀ u, t.Within u → w.evaluateConstraint c node u = some (.ok b, u) := by
  cases evaluateConstraint_eq_some_iff.1 h with
  | held hid ha =>
    refine ⟨⟨.refl s, rfl⟩, fun b hb u hu => ?_⟩
    cases hb
    exact evaluateConstraint_eq_some_iff.2 (.held hid (hu.constraints _ _ _ ha))
  | unnumbered hid hf =>
    obtain ⟨⟨hw, hd, -⟩, hagain⟩ := evaluateFresh_again hf
    refine ⟨⟨hw, hd⟩, fun b hb u hu => ?_⟩
    exact evaluateConstraint_eq_some_iff.2 (.unnumbered hid (hagain b hb u hu))
  | @recorded index _ v hid ha hf =>
    obtain ⟨⟨hw, hd, hk⟩, -⟩ := evaluateFresh_again hf
    rw [← hk] at ha
    refine ⟨⟨hw.trans (Session.within_record ha), hd⟩, fun b hb u hu => ?_⟩
    cases hb
    refine evaluateConstraint_eq_some_iff.2 (.held hid (hu.constraints _ _ _ ?_))
    rw [Session.answer?_record, if_pos ⟨rfl, rfl⟩]
  | failed _ _ hf =>
    obtain ⟨⟨hw, hd, -⟩, -⟩ := evaluateFresh_again hf
    exact ⟨⟨hw, hd⟩, nofun⟩

/-! ## Runs -/

/-- What an inquiry keeps if its questions do. -/
theorem follows_keeps {α : Type} {R : Answering}
    (hR : ∀ e node s r t, R e node s r t → s.Within t ∧ t.depth = s.depth) {q : Inquiry α}
    {s t : Session} {r : Except Failure α} (h : q.Follows R s r t) :
    s.Within t ∧ t.depth = s.depth := by
  induction q generalizing s with
  | done a =>
    obtain ⟨-, rfl⟩ := h
    exact ⟨.refl _, rfl⟩
  | failed failure =>
    obtain ⟨-, rfl⟩ := h
    exact ⟨.refl _, rfl⟩
  | ask e node next ih =>
    rcases h with ⟨b, u, hb, hrest⟩ | ⟨failure, hf, -⟩
    · obtain ⟨h1, h2⟩ := hR _ _ _ _ _ hb
      obtain ⟨h3, h4⟩ := ih b hrest
      exact ⟨h1.trans h3, h4.trans h2⟩
    · exact hR _ _ _ _ _ hf

/-- An evaluation keeps what is held, and leaves as many declarations in progress as it finds. -/
theorem Returns.keeps {e : ShapeExpr} {node : Term} {s t : Session} {r : Except Failure Bool}
    (h : w.Returns e node s r t) : s.Within t ∧ t.depth = s.depth := by
  refine h.induct (motive := fun _ _ s _ t => s.Within t ∧ t.depth = s.depth)
    fun e node s r t hs => ?_
  cases hs with
  | compound _ hq => exact follows_keeps (fun _ _ _ _ _ hr => hr.2) hq
  | constraint hc => exact (evaluateConstraint_again hc).1
  | unknown _ => exact ⟨.refl _, rfl⟩
  | held _ _ => exact ⟨.refl _, rfl⟩
  | refused _ _ _ => exact ⟨.refl _, rfl⟩
  | tooDeep _ _ _ _ => exact ⟨.refl _, rfl⟩
  | settled he hr =>
    obtain ⟨-, hw, hd⟩ := hr
    refine ⟨.settle he.unanswered hw, ?_⟩
    show _ - 1 = s.depth
    rw [hd]
    exact Nat.add_sub_cancel s.depth 1
  | abandoned he hr =>
    obtain ⟨-, hw, hd⟩ := hr
    refine ⟨.abandon he.unanswered hw, ?_⟩
    show _ - 1 = s.depth
    rw [hd]
    exact Nat.add_sub_cancel s.depth 1

/-- Every answer and every compiled pattern stays. -/
theorem Returns.within {e : ShapeExpr} {node : Term} {s t : Session} {r : Except Failure Bool}
    (h : w.Returns e node s r t) : s.Within t := h.keeps.1

/-- As many declarations are in progress behind an evaluation as before it. -/
theorem Returns.depth_eq {e : ShapeExpr} {node : Term} {s t : Session} {r : Except Failure Bool}
    (h : w.Returns e node s r t) : t.depth = s.depth := h.keeps.2

/-- A declaration that was asked for with an answer has it from then on. -/
theorem Returns.answered {label : Label} {node : Term} {s t : Session} {b : Bool} {index : Nat}
    {d : Declaration} (h : w.Returns (.ref label) node s (.ok b) t)
    (hl : w.schema.find? label = some (index, d)) :
    t.declarations.answer? index node = some b := by
  rw [returns_iff] at h
  cases h with
  | compound hc _ => cases hc
  | unknown hn =>
    rw [hl] at hn
    cases hn
  | held hk ha =>
    rw [hl] at hk
    cases hk
    exact ha
  | settled he _ =>
    have hk := he.known
    rw [hl] at hk
    cases hk
    rw [Session.answer?_settle, if_pos ⟨rfl, rfl⟩]

/-- The states behind the questions of an inquiry are earlier than the one behind it. -/
theorem follows_within {α : Type} {q : Inquiry α} {s t : Session} {r : Except Failure α}
    (h : q.Follows w.Returns s r t) :
    q.Follows (fun e node s r u => w.Returns e node s r u ∧ u.Within t) s r t := by
  induction q generalizing s with
  | done a => exact h
  | failed failure => exact h
  | ask e node next ih =>
    rcases h with ⟨b, u, hb, hrest⟩ | ⟨failure, hf, hr⟩
    · have hu := (follows_keeps (fun _ _ _ _ _ hr => hr.keeps) hrest).1
      exact .inl ⟨b, u, ⟨hb, hu⟩, ih b hrest⟩
    · exact .inr ⟨failure, ⟨hf, .refl t⟩, hr⟩

/-- An inquiry that was answered is answered again from every later state, if its questions are. -/
theorem follows_again {α : Type} {q : Inquiry α} {s t : Session} {a : α}
    (h : q.Follows (fun e node s r t => w.Returns e node s r t ∧
      ∀ b, r = .ok b → ∀ u, t.Within u → w.Returns e node u (.ok b) u) s (.ok a) t)
    {u : Session} (hu : t.Within u) : q.Follows w.Returns u (.ok a) u := by
  induction q generalizing s with
  | done a' =>
    obtain ⟨ha, -⟩ := h
    exact ⟨ha, rfl⟩
  | failed failure => cases h.1
  | ask e node next ih =>
    rcases h with ⟨b, v, ⟨-, hb⟩, hrest⟩ | ⟨failure, -, hf⟩
    · have hvt : v.Within t := (follows_keeps (fun _ _ _ _ _ hr => hr.1.keeps) hrest).1
      exact .inl ⟨b, u, hb b rfl u (hvt.trans hu), ih b hrest⟩
    · cases hf

/-- A question that returned an answer returns it again from every later state, which stays as it
is. -/
theorem Returns.again {e : ShapeExpr} {node : Term} {s t u : Session} {b : Bool}
    (h : w.Returns e node s (.ok b) t) (hu : t.Within u) : w.Returns e node u (.ok b) u := by
  have key : ∀ b', (Except.ok b : Except Failure Bool) = .ok b' → ∀ u, t.Within u →
      w.Returns e node u (.ok b') u := by
    refine h.induct (motive := fun e node _ r t => ∀ b, r = .ok b → ∀ u, t.Within u →
      w.Returns e node u (.ok b) u) fun e node s r t hs b' hb u hu => ?_
    have hans := returns_iff.2 (hs.mono fun _ _ _ _ _ hr => hr.1)
    cases hb
    cases hs with
    | compound hc hq => exact returns_iff.2 (.compound hc (follows_again hq hu))
    | constraint hc =>
      exact returns_iff.2 (.constraint ((evaluateConstraint_again hc).2 _ rfl u hu))
    | unknown hl => exact returns_iff.2 (.unknown hl)
    | held hl ha => exact returns_iff.2 (.held hl (hu.declarations _ _ _ ha))
    | settled he _ =>
      have ha := hans.answered he.known
      exact returns_iff.2 (.held he.known (hu.declarations _ _ _ ha))
  exact key b rfl u hu

end Setting

end ShEx
