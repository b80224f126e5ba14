import ShEx.Proofs.Placement

/-!
# The ceiling of the search

A shape tries the assignments of its arcs one after the other, unless there are too many of them.
How many there are is the product of the numbers of options of the arcs that have more than one.  It
is multiplied up with a cap at the largest number that can be reported (`cappedMul`), and a limit
can be as large as that.

The cap does not let a search through that has too many assignments (`decideAssignment_cases`): a
product that reaches the cap reaches every limit.  So where all value expressions are answered and
no outgoing arc is without a place, a shape is refused if and only if some arc has more than one
option and the exact product reaches the limit (`Session.validateExpr_searchCeiling`).
-/

set_option autoImplicit false

namespace ShEx

open ShEx.Rdf

variable {α : Type} {w : Setting} {shape : Shape} {node : Term} {s : Session} {f : Formula}
  {slots : List TripleConstraint} {holds : ShapeExpr → Term → Bool}

/-! ## Questions that are all answered -/

namespace Setting

/-- Every question that an inquiry comes to is answered. -/
def Answers (w : Setting) (q : Inquiry α) (s : Session) : Prop :=
  ∀ e node t, q.Reaches w.Returns s e node t → ∃ b u, w.Returns e node t (.ok b) u

/-- Behind an answer, the rest of the questions are answered too. -/
theorem Answers.next {e : ShapeExpr} {next : Bool → Inquiry α} {b : Bool} {u : Session}
    (h : w.Answers (.ask e node next) s) (hb : w.Returns e node s (.ok b) u) :
    w.Answers (next b) u := by
  intro e' node' t hreach
  exact h e' node' t (.inr ⟨b, u, hb, hreach⟩)

/-- An inquiry whose questions are all answered comes to its end. -/
theorem Answers.exists_follows {q : Inquiry α} (h : w.Answers q s) :
    ∃ r t, q.Follows w.Returns s r t := by
  induction q generalizing s with
  | done a => exact ⟨.ok a, s, rfl, rfl⟩
  | failed failure => exact ⟨.error failure, s, rfl, rfl⟩
  | ask e node next ih =>
    obtain ⟨b, u, hb⟩ := h e node s (.inl ⟨rfl, rfl, rfl⟩)
    obtain ⟨r, t, hfollows⟩ := ih b (h.next hb)
    exact ⟨r, t, .inl ⟨b, u, hb, hfollows⟩⟩

/-- Something is heard from an inquiry whose questions are all answered. -/
theorem Answers.exists_hears {q : Inquiry α} (h : w.Answers q s) : ∃ holds, w.Hears q s holds := by
  obtain ⟨r, t, hfollows⟩ := h.exists_follows
  exact ⟨w.heldIn t, hears_heldIn hfollows⟩

/-- An inquiry whose questions are all answered ends with what follows from the answers. -/
theorem Answers.follows {q : Inquiry α} (h : w.Answers q s) (hhears : w.Hears q s holds) :
    ∃ t, q.Follows w.Returns s (q.answer holds) t := by
  induction q generalizing s with
  | done a => exact ⟨s, rfl, rfl⟩
  | failed failure => exact ⟨s, rfl, rfl⟩
  | ask e node next ih =>
    obtain ⟨b, u, hb⟩ := h e node s (.inl ⟨rfl, rfl, rfl⟩)
    have hholds : holds e node = b := hhears e node s b u (.inl ⟨rfl, rfl, rfl⟩) hb
    have hrest : w.Hears (next b) u holds := by
      intro e' node' t b' v hreach
      exact hhears e' node' t b' v (.inr ⟨b, u, hb, hreach⟩)
    obtain ⟨t, ht⟩ := ih b (h.next hb) hrest
    refine ⟨t, .inl ⟨b, u, hb, ?_⟩⟩
    rw [Inquiry.answer, hholds]
    exact ht

end Setting

/-! ## The number of assignments that are tried -/

/-- How many options each arc has that has more than one. -/
def Setting.optionCounts (w : Setting) (holds : ShapeExpr → Term → Bool) (shape : Shape)
    (slots : List TripleConstraint) (node : Term) : List Nat :=
  ((w.dueArcs holds slots node).map fun arc => (shape.places holds slots arc).length).filter
    fun n => 2 ≤ n

/-- Where every arc has an option, those that are tried have more than one. -/
theorem map_length_openChoices {items : List (List Choice)} (h : ∀ options ∈ items, options ≠ []) :
    (openChoices items).map List.length = (items.map List.length).filter fun n => 2 ≤ n := by
  unfold openChoices
  rw [List.filter_map]
  congr 1
  refine List.filter_congr fun options hmem => ?_
  have hpos : 0 < options.length := List.length_pos_iff.2 (h options hmem)
  rw [Bool.eq_iff_iff, bne_iff_ne, Function.comp_apply, decide_eq_true_eq]
  omega

/-- The outgoing arcs being placed, every arc that a shape has to place has an option. -/
theorem Setting.places_ne_nil (hplaced : ∀ arc ∈ outgoingArcs w.listing node,
    shape.places holds slots arc ≠ []) {arc : Arc} (harc : arc ∈ w.dueArcs holds slots node) :
    shape.places holds slots arc ≠ [] := by
  rcases List.mem_append.1 harc with harc | harc
  · exact hplaced arc harc
  · obtain ⟨hmem, hadmitted⟩ := List.mem_filter.1 harc
    intro hnone
    have hempty : (shape.places holds slots arc).isEmpty = !slots.any (·.admits holds arc) :=
      Shape.places_isEmpty_of_inverse (inverse_of_mem_incomingArcs hmem)
    rw [hnone, hadmitted] at hempty
    cases hempty

/-- If every arc that leaves the node has a place, the options that are multiplied are those of the
arcs with more than one. -/
theorem Setting.map_length_openChoices_places (hplaced : ∀ arc ∈ outgoingArcs w.listing node,
    shape.places holds slots arc ≠ []) :
    (openChoices ((w.dueArcs holds slots node).map (shape.places holds slots))).map List.length =
      w.optionCounts holds shape slots node := by
  have hsome : ∀ options ∈ (w.dueArcs holds slots node).map (shape.places holds slots),
      options ≠ [] := by
    intro options hmem
    obtain ⟨arc, harc, rfl⟩ := List.mem_map.1 hmem
    exact places_ne_nil hplaced harc
  rw [map_length_openChoices hsome, List.map_map]
  rfl

/-! ## The ceiling -/

/-- A search is refused if there is a choice and the number of assignments reaches the limit, and
the number that is reported is capped. -/
theorem decideAssignment_cases (f : Formula) (slots : List TripleConstraint) {limit : Nat}
    (hlimit : limit ≤ complexityCap) {items : List (List Choice)} {counts : List Nat}
    (hcounts : (openChoices items).map List.length = counts) :
    (counts ≠ [] ∧ limit ≤ counts.prod ∧ decideAssignment limit f slots items =
      .error (.searchSpaceExceeded (min counts.prod complexityCap) limit)) ∨
    (¬(counts ≠ [] ∧ limit ≤ counts.prod) ∧ ∃ b, decideAssignment limit f slots items = .ok b) := by
  have hcomplexity : complexity (openChoices items) = min counts.prod complexityCap := by
    rw [complexity_eq, hcounts]
  have hchoice : (!(openChoices items).isEmpty) = true ↔ counts ≠ [] := by
    rw [← hcounts, Bool.not_eq_true', Ne, List.map_eq_nil_iff, ← List.isEmpty_iff,
      Bool.not_eq_true]
  -- The limit is not above the cap, so capping the product does not bring it below the limit.
  have hreach : limit ≤ min counts.prod complexityCap ↔ limit ≤ counts.prod := by
    rw [Nat.le_min]
    exact and_iff_left hlimit
  unfold decideAssignment
  dsimp only
  rw [hcomplexity]
  split
  · next hmany =>
    rw [Bool.and_eq_true, hchoice, decide_eq_true_eq, hreach] at hmany
    exact .inl ⟨hmany.1, hmany.2, rfl⟩
  · next hfew =>
    rw [Bool.and_eq_true, hchoice, decide_eq_true_eq, hreach] at hfew
    exact .inr ⟨hfew, _, rfl⟩

/-! ## Sixteen arcs with sixteen options each -/

/-- A shape with sixteen slots for any number of arcs `p`. -/
def Shape.sixteenfold : Shape :=
  ⟨false, [], some (.eachOf ⟨List.replicate 16 (.triple ⟨⟨"p"⟩, false, none, .zeroOrMore, []⟩),
    none, []⟩), [], [], []⟩

/-- A node that sixteen arcs `p` leave, with the largest limit of 64 bits. -/
def Setting.sixteenArcs : Setting where
  schema := .empty
  graph := .ofList ((List.range 16).map fun i =>
    ⟨.iri ⟨"n"⟩, ⟨"p"⟩, .iri ⟨String.ofList (List.replicate i 'x')⟩⟩)
  listing := Graph.asInserted _
  limits := { Limits.standard with maxSearchSpace := complexityCap }

namespace Session

/-- A shape is given that is compiled, whose value expressions are all answered and that leaves no
outgoing arc without a place.  With a limit of 64 bits, its evaluation is refused if and only if
some arc has more than one option and the product of the numbers of options of these arcs is not
below the limit.  The report says the product, capped at the largest number of 64 bits, and the
limit, and the evaluation does not fail in another way. -/
theorem validateExpr_searchCeiling (hcompile : w.schema.compileShape shape = .ok (f, slots))
    (hlimit : w.limits.maxSearchSpace ≤ complexityCap)
    (hanswers : w.Answers (w.shapeInquiry shape node) s) :
    (∃ holds, w.Hears (w.shapeInquiry shape node) s holds) ∧
    ∀ holds, w.Hears (w.shapeInquiry shape node) s holds →
      (∀ arc ∈ outgoingArcs w.listing node, shape.places holds slots arc ≠ []) →
      ∃ r t, s.validateExpr w (.shape shape) node = some (r, t) ∧
        ((∃ complexity limit, r = .error (.searchSpaceExceeded complexity limit)) ↔
          w.optionCounts holds shape slots node ≠ [] ∧
            w.limits.maxSearchSpace ≤ (w.optionCounts holds shape slots node).prod) ∧
        ∀ failure, r = .error failure → failure =
          .searchSpaceExceeded (min (w.optionCounts holds shape slots node).prod complexityCap)
            w.limits.maxSearchSpace := by
  refine ⟨hanswers.exists_hears, fun holds hhears hplaced => ?_⟩
  have hanswer := Setting.answer_shapeInquiry_of_compile holds hcompile node
  have hfree : ¬(outgoingArcs w.listing node).any
      (fun arc => (shape.places holds slots arc).isEmpty) = true := by
    intro hstuck
    obtain ⟨arc, harc, hempty⟩ := List.any_eq_true.1 hstuck
    exact hplaced arc harc (List.isEmpty_iff.1 hempty)
  rw [if_neg hfree] at hanswer
  obtain ⟨t, hfollows⟩ := hanswers.follows hhears
  rw [hanswer] at hfollows
  have hreturns : ∀ r, decideAssignment w.limits.maxSearchSpace f slots
      ((w.dueArcs holds slots node).map (shape.places holds slots)) = r →
        s.validateExpr w (.shape shape) node = some (r, t) := by
    intro r hr
    apply validateExpr_eq_some_iff.2
    apply Setting.returns_iff.2
    exact .compound rfl (hr ▸ hfollows)
  -- The search is refused, or answers and does not fail.
  rcases decideAssignment_cases f slots hlimit (Setting.map_length_openChoices_places hplaced)
    with ⟨hsome, hmany, hr⟩ | ⟨hfew, b, hr⟩
  · refine ⟨_, t, hreturns _ hr, ?_, ?_⟩
    · exact iff_of_true ⟨_, _, rfl⟩ ⟨hsome, hmany⟩
    · rintro failure ⟨⟩
      rfl
  · refine ⟨_, t, hreturns _ hr, ?_, ?_⟩
    · refine iff_of_false ?_ hfew
      rintro ⟨complexity, limit, hr⟩
      cases hr
    · rintro failure ⟨⟩

/-- The number of assignments is one more than the largest number of 64 bits. -/
theorem validateExpr_searchCeiling_sixteenArcs : ∃ t,
    initial.validateExpr .sixteenArcs (.shape .sixteenfold) (.iri ⟨"n"⟩) =
      some (.error (.searchSpaceExceeded (2 ^ 64 - 1) (2 ^ 64 - 1)), t) := by
  have hcompile : Setting.sixteenArcs.schema.compileShape .sixteenfold =
      .ok (.all ((List.range 16).map .slot),
        List.replicate 16 ⟨⟨"p"⟩, false, none, .zeroOrMore, []⟩) := by rfl
  have hlimit : Setting.sixteenArcs.limits.maxSearchSpace ≤ complexityCap := Nat.le_refl _
  have hasksNothing : ∀ e node s, ¬(Setting.sixteenArcs.shapeInquiry .sixteenfold
      (.iri ⟨"n"⟩)).Reaches Setting.sixteenArcs.Returns initial e node s := by
    intro e node s hreach
    obtain ⟨f, slots, hcompile', arc, -, t, ht, -, hvalue, -⟩ :=
      Setting.mentions_shapeInquiry hreach.mentions
    cases (Schema.compile_of_compileShape hcompile).symm.trans hcompile'
    rw [List.eq_of_mem_replicate ht] at hvalue
    cases hvalue
  obtain ⟨-, hceiling⟩ := validateExpr_searchCeiling hcompile hlimit
    (fun e node s hreach => (hasksNothing e node s hreach).elim)
  have hplaced : ∀ arc ∈ outgoingArcs Setting.sixteenArcs.listing (.iri ⟨"n"⟩),
      Shape.sixteenfold.places (fun _ _ => true)
        (List.replicate 16 ⟨⟨"p"⟩, false, none, .zeroOrMore, []⟩) arc ≠ [] := by
    decide +kernel
  have hcounts : Setting.sixteenArcs.optionCounts (fun _ _ => true) .sixteenfold
      (List.replicate 16 ⟨⟨"p"⟩, false, none, .zeroOrMore, []⟩) (.iri ⟨"n"⟩) =
        List.replicate 16 16 := by
    decide +kernel
  obtain ⟨r, t, hr, hiff, hreport⟩ := hceiling (fun _ _ => true)
    (fun e node s b u hreach => (hasksNothing e node s hreach).elim) hplaced
  rw [hcounts] at hiff hreport
  obtain ⟨complexity, limit, rfl⟩ := hiff.2 ⟨by decide, by decide +kernel⟩
  rw [hreport _ rfl] at hr
  exact ⟨t, hr⟩

end Session

end ShEx
