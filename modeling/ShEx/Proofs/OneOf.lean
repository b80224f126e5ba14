import ShEx.Proofs.ArcSharing
import ShEx.Proofs.Expansion
import ShEx.Proofs.KeptAnswers

/-!
# What a shape with alternatives means

The formula that a triple expression stands for is evaluated to one of three values, and the two
kinds of satisfaction have a reading of their own (`evaluate_holds_iff`): a `OneOf` holds
(`Formula.Holds`) if one member holds and no other member takes an arc, where a member takes an arc
(`Formula.Takes`) that stands in a slot below it and not below a part of it that is left
unsatisfied.

So an arc can stand below a member that was not chosen, if that member is not satisfied.  That a
member that was not chosen has no arc at all below it is more than the evaluation asks for
(`returns_lostArc`).
-/

set_option autoImplicit false

namespace ShEx

open ShEx.Rdf

/-! ## Satisfaction -/

namespace Formula

variable (slots : List TripleConstraint) (counts : List Nat)

mutual

/-- A formula is satisfied by so many arcs in each slot: a slot if the number is in its cardinality,
`all` if every part is, and `one` if one part is and no other part takes an arc. -/
def Holds : Formula → Prop
  | .all parts => AllHold parts
  | .one parts => OneHolds parts
  | .value v => v ≠ .unsatisfied
  | .slot i => ∃ t, slots[i]? = some t ∧ t.cardinality.allows (counts.getD i 0)

/-- An arc stands in a slot below a formula, and not below a part of it that is not satisfied. -/
def Takes : Formula → Prop
  | .all parts => AllHold parts ∧ SomeTakes parts
  | .one parts => OneHolds parts ∧ SomeTakes parts
  | .value v => v = .satisfied
  | .slot i => (∃ t, slots[i]? = some t ∧ t.cardinality.allows (counts.getD i 0)) ∧
      0 < counts.getD i 0

/-- All of several formulas are satisfied. -/
def AllHold : List Formula → Prop
  | [] => True
  | f :: fs => f.Holds ∧ AllHold fs

/-- One of several formulas is satisfied, and no other one takes an arc. -/
def OneHolds : List Formula → Prop
  | [] => False
  | f :: fs => (f.Holds ∧ ¬SomeTakes fs) ∨ (¬f.Takes ∧ OneHolds fs)

/-- One of several formulas takes an arc. -/
def SomeTakes : List Formula → Prop
  | [] => False
  | f :: fs => f.Takes ∨ SomeTakes fs

end

variable {slots counts}

/-- All of several formulas are satisfied if each of them is. -/
theorem allHold_iff {fs : List Formula} :
    AllHold slots counts fs ↔ ∀ f ∈ fs, f.Holds slots counts := by
  induction fs with
  | nil => simp [AllHold]
  | cons f fs ih => simp [AllHold, ih]

/-- One of several formulas takes an arc if there is one that does. -/
theorem someTakes_iff {fs : List Formula} :
    SomeTakes slots counts fs ↔ ∃ f ∈ fs, f.Takes slots counts := by
  induction fs with
  | nil => simp [SomeTakes]
  | cons f fs ih => simp [SomeTakes, ih]

/-- One of several formulas is chosen, and those before and behind it take no arc. -/
theorem oneHolds_iff {fs : List Formula} : OneHolds slots counts fs ↔
    ∃ before f after, fs = before ++ f :: after ∧ f.Holds slots counts ∧
      ∀ g ∈ before ++ after, ¬g.Takes slots counts := by
  induction fs with
  | nil => simp [OneHolds]
  | cons f fs ih =>
    rw [OneHolds, someTakes_iff, ih]
    constructor
    · rintro (⟨hf, hnone⟩ | ⟨hf, before, g, after, rfl, hg, hnone⟩)
      · exact ⟨[], f, fs, rfl, hf, fun g hg ht => hnone ⟨g, hg, ht⟩⟩
      · refine ⟨f :: before, g, after, rfl, hg, fun h hh => ?_⟩
        rcases List.mem_cons.1 hh with rfl | hh
        · exact hf
        · exact hnone h hh
    · rintro ⟨before, g, after, heq, hg, hnone⟩
      cases before with
      | nil =>
        cases heq
        exact .inl ⟨hg, fun ⟨h, hh, ht⟩ => hnone h hh ht⟩
      | cons h before =>
        cases heq
        refine .inr ⟨hnone _ List.mem_cons_self, before, g, after, rfl, hg, fun k hk => ?_⟩
        exact hnone k (List.mem_cons_of_mem _ hk)

/-- A formula that takes an arc is satisfied. -/
theorem Takes.holds {f : Formula} (h : f.Takes slots counts) : f.Holds slots counts := by
  cases f with
  | all parts =>
    rw [Takes] at h
    rw [Holds]
    exact h.1
  | one parts =>
    rw [Takes] at h
    rw [Holds]
    exact h.1
  | value v =>
    rw [Takes] at h
    rw [Holds, h]
    decide
  | slot i =>
    rw [Takes] at h
    rw [Holds]
    exact h.1

/-- The three values of a formula and its two readings agree. -/
structure Agrees (slots : List TripleConstraint) (counts : List Nat) (f : Formula) : Prop where
  holds : f.evaluate slots counts ≠ .unsatisfied ↔ f.Holds slots counts
  takes : f.evaluate slots counts = .satisfied ↔ f.Takes slots counts

/-- Several formulas are evaluated one by one. -/
theorem evaluateAll_eq (fs : List Formula) :
    Formula.evaluateAll slots counts fs = fs.map (Formula.evaluate slots counts) := by
  induction fs with
  | nil => rfl
  | cons f fs ih => rw [Formula.evaluateAll, ih, List.map_cons]

/-- Some part takes an arc if one of the values says so. -/
theorem someTakes_iff_satisfied_mem {fs : List Formula} (h : ∀ f ∈ fs, f.Agrees slots counts) :
    Formula.SomeTakes slots counts fs ↔
      Satisfaction.satisfied ∈ fs.map (Formula.evaluate slots counts) := by
  rw [someTakes_iff, List.mem_map]
  constructor
  · rintro ⟨f, hf, ht⟩
    exact ⟨f, hf, (h f hf).takes.2 ht⟩
  · rintro ⟨f, hf, heq⟩
    exact ⟨f, hf, (h f hf).takes.1 heq⟩

/-- All parts hold if none of the values says otherwise. -/
theorem allHold_iff_unsatisfied_not_mem {fs : List Formula}
    (h : ∀ f ∈ fs, f.Agrees slots counts) : Formula.AllHold slots counts fs ↔
      Satisfaction.unsatisfied ∉ fs.map (Formula.evaluate slots counts) := by
  rw [allHold_iff, List.mem_map]
  constructor
  · rintro hall ⟨f, hf, heq⟩
    exact (h f hf).holds.2 (hall f hf) heq
  · intro hnone f hf
    exact (h f hf).holds.1 fun heq => hnone ⟨f, hf, heq⟩

/-- A conjunction agrees with its readings if its parts do: one part that is not satisfied settles
it, and else one that takes an arc is enough. -/
theorem agrees_all {fs : List Formula} (h : ∀ f ∈ fs, f.Agrees slots counts) :
    (Formula.all fs).Agrees slots counts := by
  have hall := allHold_iff_unsatisfied_not_mem h
  have hsome := someTakes_iff_satisfied_mem h
  have hvalue : (Formula.all fs).evaluate slots counts =
      Satisfaction.all (fs.map (Formula.evaluate slots counts)) := by
    rw [Formula.evaluate, evaluateAll_eq]
  constructor
  · rw [hvalue, Formula.Holds, hall, Satisfaction.all]
    simp only [List.contains_iff_mem]
    split
    · simp_all
    · split <;> simp_all
  · rw [hvalue, Formula.Takes, hall, hsome, Satisfaction.all]
    simp only [List.contains_iff_mem]
    split
    · simp_all
    · split <;> simp_all

/-- One of several values is chosen and no other one says that arcs are used. -/
theorem one_ne_unsatisfied_iff (values : List Satisfaction) :
    Satisfaction.one values ≠ .unsatisfied ↔ ∃ before v after, values = before ++ v :: after ∧
      v ≠ .unsatisfied ∧ ∀ u ∈ before ++ after, u ≠ .satisfied := by
  constructor
  · intro h
    -- The value that is satisfied is chosen if there is one, and else any that is vacuous.
    by_cases hmem : Satisfaction.satisfied ∈ values
    · obtain ⟨before, after, rfl⟩ := List.append_of_mem hmem
      refine ⟨before, .satisfied, after, rfl, by decide, fun u hu hs => ?_⟩
      have hpos : 0 < (before ++ after).count .satisfied := List.count_pos_iff.2 (hs ▸ hu)
      have hcount : (before ++ .satisfied :: after).count .satisfied =
          (before ++ after).count .satisfied + 1 := by
        rw [List.count_append, List.count_cons_self, List.count_append, Nat.add_assoc]
      obtain ⟨n, hn⟩ : ∃ n, (before ++ .satisfied :: after).count .satisfied = n + 2 :=
        ⟨(before ++ after).count .satisfied - 1, by omega⟩
      refine absurd ?_ h
      rw [Satisfaction.one, hn]
      rfl
    · have hcount : values.count .satisfied = 0 := List.count_eq_zero.2 hmem
      rw [Satisfaction.one, hcount] at h
      simp only [List.contains_iff_mem] at h
      split at h
      · next hv =>
        obtain ⟨before, after, rfl⟩ := List.append_of_mem hv
        refine ⟨before, .vacuous, after, rfl, by decide, fun u hu hs => hmem ?_⟩
        rw [hs] at hu
        rw [List.mem_append] at hu ⊢
        exact hu.imp id (List.mem_cons_of_mem _)
      · exact absurd rfl h
  · rintro ⟨before, v, after, rfl, hv, hnone⟩
    have hcount : (before ++ after).count .satisfied = 0 :=
      List.count_eq_zero.2 fun hmem => hnone _ hmem rfl
    rw [List.count_append] at hcount
    cases v with
    | unsatisfied => exact absurd rfl hv
    | vacuous =>
      have hzero : (before ++ .vacuous :: after).count .satisfied = 0 := by
        rw [List.count_append, List.count_cons_of_ne (by decide)]
        exact hcount
      rw [Satisfaction.one, hzero]
      simp
    | satisfied =>
      have hone : (before ++ .satisfied :: after).count .satisfied = 1 := by
        rw [List.count_append, List.count_cons_self]
        omega
      rw [Satisfaction.one, hone]
      exact Satisfaction.noConfusion

/-- A choice among values says that arcs are used if and only if it is one and a value says so. -/
theorem one_eq_satisfied_iff (values : List Satisfaction) :
    Satisfaction.one values = .satisfied ↔
      Satisfaction.one values ≠ .unsatisfied ∧ .satisfied ∈ values := by
  rw [Satisfaction.one]
  split
  · next h =>
    have hmem : Satisfaction.satisfied ∈ values :=
      List.count_pos_iff.1 (by rw [h]; exact Nat.one_pos)
    simp [hmem]
  · next h =>
    have hmem : ¬Satisfaction.satisfied ∈ values := List.count_eq_zero.1 h
    split <;> simp [hmem]
  · simp

/-- One part holds, beside parts that take no arc, if the values choose one. -/
theorem oneHolds_iff_one_ne_unsatisfied {fs : List Formula}
    (h : ∀ f ∈ fs, f.Agrees slots counts) : Formula.OneHolds slots counts fs ↔
      Satisfaction.one (fs.map (Formula.evaluate slots counts)) ≠ .unsatisfied := by
  rw [oneHolds_iff, one_ne_unsatisfied_iff]
  constructor
  · rintro ⟨before, f, after, rfl, hf, hnone⟩
    refine ⟨before.map (Formula.evaluate slots counts), f.evaluate slots counts,
      after.map (Formula.evaluate slots counts), ?_, ?_, ?_⟩
    · rw [List.map_append, List.map_cons]
    · exact (h f (by simp)).holds.2 hf
    · rw [← List.map_append]
      intro u hu hs
      obtain ⟨g, hg, rfl⟩ := List.mem_map.1 hu
      refine hnone g hg ((h g ?_).takes.1 hs)
      rw [List.mem_append] at hg ⊢
      exact hg.imp id (List.mem_cons_of_mem _)
  · -- The values are split where one is chosen, so the parts are split there too.
    rintro ⟨before, v, after, heq, hv, hnone⟩
    obtain ⟨before', rest, rfl, rfl, hrest⟩ := List.map_eq_append_iff.1 heq
    obtain ⟨f, after', rfl, rfl, rfl⟩ := List.map_eq_cons_iff.1 hrest
    refine ⟨before', f, after', rfl, (h f (by simp)).holds.1 hv, fun g hg ht => ?_⟩
    have hmem : g ∈ before' ++ f :: after' := by
      rw [List.mem_append] at hg ⊢
      exact hg.imp id (List.mem_cons_of_mem _)
    refine hnone _ ?_ ((h g hmem).takes.2 ht)
    rw [← List.map_append]
    exact List.mem_map_of_mem hg

/-- A choice agrees with its readings if its parts do: it takes one part that is satisfied, beside
parts that take no arc. -/
theorem agrees_one {fs : List Formula} (h : ∀ f ∈ fs, f.Agrees slots counts) :
    (Formula.one fs).Agrees slots counts := by
  have hone := oneHolds_iff_one_ne_unsatisfied h
  have hsome := someTakes_iff_satisfied_mem h
  have hvalue : (Formula.one fs).evaluate slots counts =
      Satisfaction.one (fs.map (Formula.evaluate slots counts)) := by
    rw [Formula.evaluate, evaluateAll_eq]
  constructor
  · rw [hvalue, Formula.Holds, hone]
  · rw [hvalue, one_eq_satisfied_iff, Formula.Takes, hone, hsome]

/-- A slot agrees with its readings: its value tells whether the number of arcs is allowed, and
whether there are any. -/
theorem agrees_slot (i : Nat) : (Formula.slot i).Agrees slots counts := by
  have hvalue : (Formula.slot i).evaluate slots counts =
      slots[i]?.elim .unsatisfied fun t => t.satisfaction (counts.getD i 0) := by
    rw [Formula.evaluate]
    cases slots[i]? <;> rfl
  constructor
  · rw [hvalue, Formula.Holds]
    generalize counts.getD i 0 = n
    cases slots[i]? with
    | none => simp
    | some t =>
      simp only [Option.elim_some, Option.some.injEq, exists_eq_left',
        TripleConstraint.satisfaction]
      cases t.cardinality.allows n <;> cases n <;> simp
  · rw [hvalue, Formula.Takes]
    generalize counts.getD i 0 = n
    cases slots[i]? with
    | none => simp
    | some t =>
      simp only [Option.elim_some, Option.some.injEq, exists_eq_left',
        TripleConstraint.satisfaction]
      cases t.cardinality.allows n <;> cases n <;> simp

/-- The evaluation of a formula to three values and its two readings agree. -/
theorem agrees : ∀ f : Formula, f.Agrees slots counts
  | .all fs => agrees_all fun f _ => agrees f
  | .one fs => agrees_one fun f _ => agrees f
  | .value v => by
    constructor
    · rw [Formula.evaluate, Formula.Holds]
    · rw [Formula.evaluate, Formula.Takes]
  | .slot i => agrees_slot i
termination_by f => sizeOf f
decreasing_by
  all_goals
    have := List.sizeOf_lt_of_mem ‹_›
    simp only [Formula.all.sizeOf_spec, Formula.one.sizeOf_spec]
    omega

/-- The evaluation of a formula finds out whether it is satisfied. -/
theorem evaluate_holds_iff (f : Formula) :
    (f.evaluate slots counts).holds = true ↔ f.Holds slots counts := by
  rw [← (agrees f).holds, Satisfaction.holds, bne_iff_ne]

variable (slots counts)

mutual

/-- The slots below a formula. -/
def slotsBelow : Formula → List Nat
  | .all parts => slotsBelowAll parts
  | .one parts => slotsBelowAll parts
  | .value _ => []
  | .slot i => [i]

/-- The slots below several formulas. -/
def slotsBelowAll : List Formula → List Nat
  | [] => []
  | f :: fs => f.slotsBelow ++ slotsBelowAll fs

end

mutual

/-- A formula is satisfied, and no arc at all stands below a member of `one` that was not chosen. -/
def HoldsAlone : Formula → Prop
  | .all parts => AllHoldAlone parts
  | .one parts => OneHoldsAlone parts
  | .value v => v ≠ .unsatisfied
  | .slot i => ∃ t, slots[i]? = some t ∧ t.cardinality.allows (counts.getD i 0)

/-- All of several formulas are satisfied alone. -/
def AllHoldAlone : List Formula → Prop
  | [] => True
  | f :: fs => f.HoldsAlone ∧ AllHoldAlone fs

/-- One of several formulas is satisfied alone, and no arc stands below the others. -/
def OneHoldsAlone : List Formula → Prop
  | [] => False
  | f :: fs => (f.HoldsAlone ∧ ∀ i ∈ slotsBelowAll fs, counts.getD i 0 = 0) ∨
      ((∀ i ∈ f.slotsBelow, counts.getD i 0 = 0) ∧ OneHoldsAlone fs)

end

end Formula

/-! ## What a shape finds out -/

/-- The shape that asks for one arc `p` or two arcs `q`. -/
def Shape.oneOrTwo : Shape :=
  ⟨false, [], some (.oneOf ⟨[.triple ⟨⟨"p"⟩, false, none, .one, []⟩,
    .triple ⟨⟨"q"⟩, false, none, .exactly 2, []⟩], none, []⟩), [], [], []⟩

namespace Setting

variable {w : Setting}

open scoped Classical in
/-- What holds where, as a session answers in some state at once. -/
noncomputable def heldIn (w : Setting) (t : Session) : ShapeExpr → Term → Bool :=
  fun e node => decide (w.Returns e node t (.ok true) t)

/-- What was answered before a state is held in it. -/
theorem heldIn_eq {e : ShapeExpr} {node : Term} {s t u : Session} {b : Bool}
    (h : w.Returns e node s (.ok b) u) (hu : u.Within t) : w.heldIn t e node = b := by
  classical
  have hagain := h.again hu
  unfold heldIn
  cases b with
  | true => exact decide_eq_true hagain
  | false =>
    refine decide_eq_false fun htrue => ?_
    cases (hagain.unique htrue).1

/-- A shape holds at a node if and only if its arcs can be shared out among the slots that admit
them and the place beside all slots, so that its triple expression is satisfied: a triple constraint
by a number of arcs in its cardinality, an `EachOf` in every member, and a `OneOf` in one member if
no other member takes an arc.  What holds at the other ends of arcs is what the session answers in
the state behind the evaluation. -/
theorem shape_holds_iff_sharing {shape : Shape} {node : Term} {s t : Session} {b : Bool}
    (h : w.Returns (.shape shape) node s (.ok b) t) :
    ∃ f slots, w.schema.ExpandsTo shape.expression f slots ∧
      (b = true ↔ ∃ shares, w.Sharing (w.heldIn t) shape slots node shares ∧
        f.Holds slots (countsOf slots.length (shares.map (·.2)))) := by
  cases returns_iff.1 h with
  | compound hc hq =>
    have hanswer : (w.shapeInquiry shape node).answer (w.heldIn t) = .ok b :=
      (follows_within hq).answer_eq fun e node s b u hr => heldIn_eq hr.1 hr.2
    obtain ⟨f, slots, hcomp, hiff⟩ := answer_shapeInquiry hanswer
    refine ⟨f, slots, Schema.expandsTo_of_compile hcomp, ?_⟩
    simp only [hiff, Formula.evaluate_holds_iff]

/-- A node with one arc `p` and one arc `q`. -/
def oneEach : Setting where
  schema := .empty
  graph := .ofList [⟨.iri ⟨"n"⟩, ⟨"p"⟩, .iri ⟨"x"⟩⟩, ⟨.iri ⟨"n"⟩, ⟨"q"⟩, .iri ⟨"y"⟩⟩]
  listing := Graph.asInserted _
  limits := .standard

/-- At a node with one arc each, the arc `p` satisfies the choice between one arc `p` and two arcs
`q`. -/
theorem shape_holds_iff_sharing_oneEach :
    oneEach.Returns (.shape .oneOrTwo) (.iri ⟨"n"⟩) .initial (.ok true) .initial ∧
    ∃ f slots, oneEach.schema.ExpandsTo Shape.oneOrTwo.expression f slots ∧
      (true = true ↔ ∃ shares,
        oneEach.Sharing (oneEach.heldIn .initial) .oneOrTwo slots (.iri ⟨"n"⟩) shares ∧
          f.Holds slots (countsOf slots.length (shares.map (·.2)))) := by
  have h : oneEach.Returns (.shape .oneOrTwo) (.iri ⟨"n"⟩) .initial (.ok true) .initial := ⟨1, rfl⟩
  exact ⟨h, shape_holds_iff_sharing h⟩

/-- The choice between one arc `p` and two arcs `q` holds at a node with one arc each, although each
way to share them out leaves an arc below the member that is not chosen. -/
theorem returns_lostArc :
    oneEach.Returns (.shape .oneOrTwo) (.iri ⟨"n"⟩) .initial (.ok true) .initial ∧
    ¬∃ f slots, oneEach.schema.ExpandsTo Shape.oneOrTwo.expression f slots ∧ ∃ shares,
      oneEach.Sharing (oneEach.heldIn .initial) .oneOrTwo slots (.iri ⟨"n"⟩) shares ∧
        f.HoldsAlone slots (countsOf slots.length (shares.map (·.2))) := by
  refine ⟨⟨1, rfl⟩, ?_⟩
  rintro ⟨f, slots, hf, shares, hshares, hholds⟩
  have hcompiled : f = .one [.slot 0, .slot 1] ∧ slots =
      [⟨⟨"p"⟩, false, none, .one, []⟩, ⟨⟨"q"⟩, false, none, .exactly 2, []⟩] := by
    cases hf with
    | oneOf h =>
      cases h with
      | cons h hs =>
        cases h with
        | triple =>
          cases hs with
          | cons h hs =>
            cases h with
            | triple =>
              cases hs with
              | nil => exact ⟨rfl, rfl⟩
  obtain ⟨rfl, rfl⟩ := hcompiled
  -- Each arc has one place only.
  have harcs : shares.map (·.1) = [⟨false, ⟨"p"⟩, .iri ⟨"x"⟩⟩, ⟨false, ⟨"q"⟩, .iri ⟨"y"⟩⟩] :=
    hshares.arcs
  obtain ⟨⟨arc₁, c₁⟩, rest, rfl, rfl, hrest⟩ := List.map_eq_cons_iff.1 harcs
  obtain ⟨⟨arc₂, c₂⟩, last, rfl, rfl, hlast⟩ := List.map_eq_cons_iff.1 hrest
  cases List.map_eq_nil_iff.1 hlast
  have h₁ : c₁ ∈ [Choice.slot 0] := hshares.placed _ List.mem_cons_self
  have h₂ : c₂ ∈ [Choice.slot 1] :=
    hshares.placed _ (List.mem_cons_of_mem _ List.mem_cons_self)
  cases List.mem_singleton.1 h₁
  cases List.mem_singleton.1 h₂
  rcases hholds with ⟨-, hnone⟩ | ⟨hnone, -⟩
  · exact absurd (hnone 1 List.mem_cons_self) (by decide)
  · exact absurd (hnone 0 List.mem_cons_self) (by decide)

end Setting

end ShEx
