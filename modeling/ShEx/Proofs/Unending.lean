import ShEx.Proofs.Provision

/-!
# Questions without an end of unfolding

Where the unfolding of a question does not end (`Setting.Unending`), an answer to it rests on a
declaration in progress, and what is held decides which one.  But no evaluation lets a session hold
an answer against an unfolding that ends (`Returns.reliable`).

What an evaluation finds on its way does not matter if all declarations in progress turn out to
hold, as they are taken to: then there is one answer to every question (`Returns.upheld`).
-/

set_option autoImplicit false

namespace ShEx

open ShEx.Rdf

namespace Setting

variable (w : Setting)

/-- The unfolding of a question does not end. -/
def Unending (e : ShapeExpr) (node : Term) : Prop :=
  ∀ n, w.unfold n e node = none

/-- What a session keeps about constraints and patterns is right, no answer that it holds is against
an unfolding, and where unfolding ends it provides for what it holds. -/
structure Reliable (s : Session) : Prop where
  sound : s.Sound w
  agrees : ∀ n, w.AgreesUpTo n s
  provides : ∀ n, w.ProvidesUpTo n s

variable {w}

/-- An unfolding ends at some depth or at none. -/
theorem unending_or_unfolds (e : ShapeExpr) (node : Term) :
    w.Unending e node ∨ ∃ n r, w.unfold n e node = some r := by
  by_cases h : ∃ n r, w.unfold n e node = some r
  · exact .inr h
  · refine .inl fun n => ?_
    cases hn : w.unfold n e node with
    | none => rfl
    | some r => exact absurd ⟨n, r, hn⟩ h

/-- A question without an end of unfolding is compound or asks about a declaration. -/
theorem Unending.known {label : Label} {node : Term} (h : w.Unending (.ref label) node) :
    ∃ index d, w.schema.find? label = some (index, d) ∧ d.isAbstract = false ∧
      w.Unending d.expression node := by
  cases hl : w.schema.find? label with
  | none =>
    have h1 := h 1
    rw [unfold, hl] at h1
    cases h1
  | some entry =>
    have hbody : ∀ n, w.unfold (n + 1) (.ref label) node = none := fun n => h (n + 1)
    simp only [unfold_of_known hl] at hbody
    cases hd : entry.2.isAbstract with
    | true => cases (if_pos hd).symm.trans (hbody 0)
    | false =>
      refine ⟨entry.1, entry.2, rfl, hd, fun n => ?_⟩
      have hn := hbody n
      rwa [hd, if_neg Bool.false_ne_true] at hn

/-- A new session holds no answers. -/
theorem Reliable.initial : w.Reliable .initial :=
  ⟨Session.sound_initial w, fun _ _ _ _ _ _ _ _ hb => (nomatch hb),
    fun _ _ _ _ _ _ _ _ hb => (nomatch hb)⟩

/-- What is held about a declaration without an end of unfolding is against no unfolding. -/
theorem Reliable.hold {s t : Session} (h : w.Reliable s) {label : Label} {index : Nat}
    {d : Declaration} {node : Term} {b : Bool} (hl : w.schema.find? label = some (index, d))
    (hu : w.Unending (.ref label) node) (ht : t.declarations = s.declarations.hold index node b)
    (hsound : t.Sound w) : w.Reliable t :=
  ⟨hsound, fun n => (h.agrees n).hold hl (hu n) ht, fun n => (h.provides n).hold hl (hu n) ht⟩

/-- Declarations that begin keep a session reliable where their unfolding does not end. -/
theorem Reliable.enter {s : Session} (h : w.Reliable s) {label : Label} {index : Nat}
    {d : Declaration} {node : Term} (hl : w.schema.find? label = some (index, d))
    (hu : w.Unending (.ref label) node) : w.Reliable (s.enter index node) :=
  h.hold hl hu rfl (h.sound.enter index node)

/-- Declarations that are settled keep a session reliable where their unfolding does not end. -/
theorem Reliable.settle {s : Session} (h : w.Reliable s) {label : Label} {index : Nat}
    {d : Declaration} {node : Term} {b : Bool} (hl : w.schema.find? label = some (index, d))
    (hu : w.Unending (.ref label) node) : w.Reliable (s.settle index node b) :=
  h.hold hl hu rfl (h.sound.settle index node b)

/-- Declarations that are abandoned keep a session reliable where their unfolding does not end. -/
theorem Reliable.abandon {s : Session} (h : w.Reliable s) {label : Label} {index : Nat}
    {d : Declaration} {node : Term} (hl : w.schema.find? label = some (index, d))
    (hu : w.Unending (.ref label) node) : w.Reliable (s.abandon index node) := by
  refine ⟨h.sound.abandon index node, fun n label' index' d' node' b r hl' hb hr => ?_,
    fun n => (h.provides n).forget hl (hu n) rfl⟩
  exact h.agrees n label' index' d' node' b r hl' (Answers.answer?_forget_cases hb).2 hr

/-- A question whose unfolding ends keeps a session reliable, and is answered by its unfolding. -/
theorem Returns.of_reliable (hw : WellNumbered w.schema.constraints) {n : Nat} {e : ShapeExpr}
    {node : Term} {r₀ : Except Failure Bool} (hn : w.unfold n e node = some r₀)
    (he : e.NumberedIn w.schema) {s t : Session} {r : Except Failure Bool}
    (h : w.Returns e node s r t) (hs : w.Reliable s) : w.Matches r₀ s r t ∧ w.Reliable t := by
  have hmatches := Returns.of_unfold hw n hn he h hs.sound (hs.agrees n)
  refine ⟨hmatches, h.sound hw he hs.sound, fun m => (hs.agrees m).adds hmatches.2, fun m => ?_⟩
  have hupto : w.ReturnsUpTo n e node s r t := ⟨h, he, hs.sound, hs.agrees n, r₀, hn⟩
  exact (hs.provides m).gains (hupto.provides hw (hs.provides n)).1 hupto.heldIn

/-- An evaluation leaves a session reliable. -/
theorem Returns.reliable (hw : WellNumbered w.schema.constraints) {e : ShapeExpr} {node : Term}
    {s t : Session} {r : Except Failure Bool} (h : w.Returns e node s r t)
    (he : e.NumberedIn w.schema) (hs : w.Reliable s) : w.Reliable t := by
  have key : e.NumberedIn w.schema → w.Reliable s → w.Reliable t := by
    refine h.induct (motive := fun e _ s _ t => e.NumberedIn w.schema → w.Reliable s →
      w.Reliable t) fun e node s r t hstep he hs => ?_
    have h := returns_iff.2 (hstep.mono fun _ _ _ _ _ hr => hr.1)
    rcases unending_or_unfolds (w := w) e node with hu | ⟨n, r₀, hn⟩
    · cases hstep with
      | compound hc hq =>
        refine hq.invariant (I := w.Reliable) (Q := fun e _ => e.NumberedIn w.schema)
          (fun _ _ _ _ _ hr => hr.2) (fun e' node' hm => ?_) hs
        exact he.mentions hc hm
      | constraint _ => cases hu 1
      | unknown _ => exact hs
      | held _ _ => exact hs
      | refused _ _ _ => exact hs
      | tooDeep _ _ _ _ => exact hs
      | settled hent hr =>
        have hd := ShapeExpr.numberedIn_of_find? hent.known
        exact (hr.2 hd (hs.enter hent.known hu)).settle hent.known hu
      | abandoned hent hr =>
        have hd := ShapeExpr.numberedIn_of_find? hent.known
        exact (hr.2 hd (hs.enter hent.known hu)).abandon hent.known hu
    · exact (Returns.of_reliable hw hn he h hs).2
  exact key he hs

/-! ## Where questions lead -/

variable (w)

/-- A question without an end of unfolding leads to another one of that kind. -/
inductive Draws : ShapeExpr × Term → ShapeExpr × Term → Prop
  | compound {e e' : ShapeExpr} {node node' : Term} (h : e.isCompound)
      (hm : (w.inquiry e node).Mentions e' node') (hu : w.Unending e' node') :
      Draws (e, node) (e', node')
  | declaration {label : Label} {node : Term} {index : Nat} {d : Declaration}
      (hl : w.schema.find? label = some (index, d)) (hu : w.Unending d.expression node) :
      Draws (.ref label, node) (d.expression, node)

/-! ## Declarations that hold as they are taken to -/

/-- Answers to questions without an end of unfolding.  They agree with each other and with
unfolding, and by them every declaration in progress holds, as it is taken to. -/
structure Upholds (U : ShapeExpr → Term → Option (Except Failure Bool)) : Prop where
  unending : ∀ e node r, U e node = some r → w.Unending e node
  compound : ∀ e node r, e.isCompound → U e node = some r → ∃ n,
    (w.inquiry e node).resolve (fun e' node' => (U e' node').or (w.unfold n e' node')) = some r
  declared : ∀ label node index d r, w.schema.find? label = some (index, d) →
    U (.ref label) node = some r → U d.expression node = some r
  progress : ∀ label node, w.Unending (.ref label) node → U (.ref label) node = some (.ok true)

/-- Every declaration without an end of unfolding that has an answer holds. -/
def HoldsOpen (s : Session) : Prop :=
  ∀ label index d node b, w.schema.find? label = some (index, d) →
    s.declarations.answer? index node = some b → w.Unending (.ref label) node → b = true

variable {w} {U : ShapeExpr → Term → Option (Except Failure Bool)}

/-- A new session holds no answers. -/
theorem HoldsOpen.initial : w.HoldsOpen .initial :=
  fun _ _ _ _ _ _ hb => nomatch hb

/-- What unfolding gives is added about declarations with an end only. -/
theorem HoldsOpen.adds {s t : Session} (h : w.HoldsOpen s) (ht : w.Adds s t) : w.HoldsOpen t := by
  intro label index d node b hl hb hu
  rcases ht label index d node b hl hb with hb | ⟨n, hn⟩
  · exact h label index d node b hl hb hu
  · rw [hu n] at hn
    cases hn

/-- A declaration may be taken to hold. -/
theorem HoldsOpen.hold {s t : Session} (h : w.HoldsOpen s) {index : Nat} {node : Term}
    (ht : t.declarations = s.declarations.hold index node true) : w.HoldsOpen t := by
  intro label' index' d' node' b' hl' hb' hu
  rw [ht] at hb'
  rcases Answers.answer?_hold_cases hb' with ⟨-, htrue⟩ | ⟨-, hb'⟩
  · exact htrue.symm
  · exact h label' index' d' node' b' hl' hb' hu

/-- Forgetting an answer leaves the others. -/
theorem HoldsOpen.forget {s t : Session} (h : w.HoldsOpen s) {index : Nat} {node : Term}
    (ht : t.declarations = s.declarations.forget index node) : w.HoldsOpen t := by
  intro label' index' d' node' b' hl' hb' hu
  rw [ht] at hb'
  exact h label' index' d' node' b' hl' (Answers.answer?_forget_cases hb').2 hu

/-- If declarations in progress hold as they are taken to, every evaluation gives the same answers,
whatever answers it finds. -/
theorem Returns.upheld (hw : WellNumbered w.schema.constraints) (hU : w.Upholds U) {e : ShapeExpr}
    {node : Term} {s t : Session} {r : Except Failure Bool} (h : w.Returns e node s r t)
    (he : e.NumberedIn w.schema) (hs : w.Reliable s) (hopen : w.HoldsOpen s) :
    (∀ r₀, U e node = some r₀ → EndsWith r₀ r) ∧ w.HoldsOpen t := by
  have key : e.NumberedIn w.schema → w.Reliable s → w.HoldsOpen s →
      (∀ r₀, U e node = some r₀ → EndsWith r₀ r) ∧ w.HoldsOpen t := by
    refine h.induct (motive := fun e node s r t => e.NumberedIn w.schema → w.Reliable s →
      w.HoldsOpen s → (∀ r₀, U e node = some r₀ → EndsWith r₀ r) ∧ w.HoldsOpen t)
      fun e node s r t hstep he hs hopen => ?_
    have h := returns_iff.2 (hstep.mono fun _ _ _ _ _ hr => hr.1)
    rcases unending_or_unfolds (w := w) e node with hu | ⟨n, r₀, hn⟩
    · have hknown : ∀ {label : Label} {index : Nat} {d : Declaration}, e = .ref label →
          w.schema.find? label = some (index, d) →
            U e node = some (.ok true) ∧ U d.expression node = some (.ok true) := by
        rintro label index d rfl hl
        have htrue := hU.progress label node hu
        exact ⟨htrue, hU.declared label node index d _ hl htrue⟩
      cases hstep with
      | compound hc hq =>
        have hask : ∀ {e' : ShapeExpr} {node' : Term}, (w.inquiry e node).Mentions e' node' →
            e'.NumberedIn w.schema := fun hm => he.mentions hc hm
        refine ⟨fun r₀ hr₀ => ?_, ?_⟩
        · obtain ⟨n, hn⟩ := hU.compound e node r₀ hc hr₀
          refine (hq.endsWith (I := fun u => w.Reliable u ∧ w.HoldsOpen u)
            (fun e' node' r' hm hr' u v r'' hv ⟨hrel, hopen⟩ => ?_) hn ⟨hs, hopen⟩).1
          obtain ⟨h1, h2⟩ := hv.2 (hask hm) hrel hopen
          refine ⟨?_, hv.1.reliable hw (hask hm) hrel, h2⟩
          -- What is not among the given answers is answered by unfolding.
          rcases Option.or_eq_some_iff.1 hr' with hr' | ⟨-, hr'⟩
          · exact h1 r' hr'
          · exact (Returns.of_reliable hw hr' (hask hm) hv.1 hrel).1.1
        · exact (hq.invariant (I := fun u => w.Reliable u ∧ w.HoldsOpen u)
            (Q := fun e' _ => e'.NumberedIn w.schema) (fun _ _ _ _ _ hv he' ⟨hrel, hopen⟩ =>
              ⟨hv.1.reliable hw he' hrel, (hv.2 he' hrel hopen).2⟩)
            (fun _ _ hm => hask hm) ⟨hs, hopen⟩).2
      | constraint _ => cases hu 1
      | unknown hl =>
        obtain ⟨_, _, hl', -⟩ := hu.known
        rw [hl] at hl'
        cases hl'
      | held hl hb =>
        refine ⟨fun r₀ hr₀ => .inl ?_, hopen⟩
        rw [(hknown rfl hl).1] at hr₀
        cases hr₀
        rw [hopen _ _ _ _ _ hl hb hu]
      | refused hl _ hd =>
        obtain ⟨_, _, hl', hd', -⟩ := hu.known
        rw [hl] at hl'
        cases hl'
        rw [hd] at hd'
        cases hd'
      | tooDeep _ _ _ _ => exact ⟨fun _ _ => .inr ⟨_, rfl⟩, hopen⟩
      | settled hent hr =>
        have hd := ShapeExpr.numberedIn_of_find? hent.known
        obtain ⟨htrue, hbody⟩ := hknown rfl hent.known
        obtain ⟨h1, h2⟩ := hr.2 hd (hs.enter hent.known hu) (hopen.hold rfl)
        cases (h1 _ hbody).eq_of_ok
        refine ⟨fun r₀ hr₀ => .inl ?_, h2.hold rfl⟩
        exact Option.some.inj (htrue.symm.trans hr₀)
      | abandoned hent hr =>
        have hd := ShapeExpr.numberedIn_of_find? hent.known
        obtain ⟨htrue, hbody⟩ := hknown rfl hent.known
        obtain ⟨h1, h2⟩ := hr.2 hd (hs.enter hent.known hu) (hopen.hold rfl)
        refine ⟨fun r₀ hr₀ => ?_, h2.forget rfl⟩
        rw [htrue] at hr₀
        cases hr₀
        exact h1 _ hbody
    · refine ⟨fun r₁ hr₁ => ?_, hopen.adds (Returns.of_reliable hw hn he h hs).1.2⟩
      rw [hU.unending e node r₁ hr₁ n] at hn
      cases hn
  exact key he hs hopen

end Setting

end ShEx
