import ShEx.Proofs.ArcOrder
import ShEx.Proofs.Failures
import ShEx.Proofs.RaisedLimits

/-!
# Shapes that ask for less

A shape asks for less if it is no longer closed, or if it admits further arcs with more predicates.
Its triple constraints are the same, so the same value expressions are evaluated at the same nodes
in the same order, and the session goes through the same states.  What changes are the options of
the arcs.  Each arc keeps those that it had and can get one more, the place beside all slots
(`follows_arcInquiry_relaxed`), so an arc that was forced into a slot can become one that the search
has to try.

An assignment that satisfied the formula is still among those that are tried
(`decideAssignment_of_subset`).  So a node that conforms is not lost, but there can be too many
assignments now (`Session.validateExpr_relaxed`).
-/

set_option autoImplicit false

namespace ShEx

open ShEx.Rdf

variable {w : Setting} {shape : Shape} {closed : Bool} {extra : List Iri} {R : Answering}

/-! ## More options -/

/-- An assignment from some options is one from more options: if the formula is satisfied, it still
is, unless there are too many assignments to try. -/
theorem decideAssignment_of_subset {limit : Nat} {f : Formula} {slots : List TripleConstraint}
    {items items' : List (List Choice)} (hmore : List.Forall₂ (· ⊆ ·) items items')
    (h : decideAssignment limit f slots items = .ok true) :
    decideAssignment limit f slots items' = .ok true ∨ ∃ complexity, limit ≤ complexity ∧
      decideAssignment limit f slots items' = .error (.searchSpaceExceeded complexity limit) := by
  obtain ⟨cs, hcs, hsatisfied⟩ := (decideAssignment_iff h).1 rfl
  have hstill : List.Forall₂ (· ∈ ·) cs items' := by
    clear h hsatisfied
    induction hmore generalizing cs with
    | nil => exact hcs
    | cons hsubset _ ih =>
      cases hcs with
      | cons hc hcs => exact .cons (hsubset hc) (ih _ hcs)
  cases hd : decideAssignment limit f slots items' with
  | ok b =>
    have hb : b = true := (decideAssignment_iff hd).2 ⟨cs, hstill, hsatisfied⟩
    exact .inl (congrArg Except.ok hb)
  | error failure =>
    obtain ⟨complexity, hmany, hfailure⟩ := decideAssignment_error hd
    exact .inr ⟨complexity, hmany, congrArg Except.error hfailure⟩

/-! ## The options of arcs -/

/-- The options of an arc that is eligible for some slots: those and, if it goes out and the shape
allows further arcs with its predicate, the place beside all slots. -/
def Shape.options (shape : Shape) (slots : List TripleConstraint) (arc : Arc)
    (eligible : List Choice) : List Choice :=
  eligible ++ if !arc.inverse && shape.allowsExtra slots arc.predicate then [.extra] else []

/-- All arcs have been given options if the first one has, unless it comes in, and all others
have. -/
theorem follows_arcInquiry_cons {slots : List TripleConstraint} {arc : Arc} {rest : List Arc}
    {s t : Session} {items : List (List Choice)} :
    (arcInquiry shape slots (arc :: rest)).Follows R s (.ok (some items)) t ↔
      ∃ eligible u found, (slotInquiry arc 0 slots).Follows R s (.ok eligible) u ∧
        (arcInquiry shape slots rest).Follows R u (.ok (some found)) t ∧
        (arc.inverse = false → shape.options slots arc eligible ≠ []) ∧
        items = if (shape.options slots arc eligible).isEmpty then found
          else shape.options slots arc eligible :: found := by
  have hstuck : ∀ options : List Choice, (!arc.inverse && options.isEmpty) = true ↔
      ¬(arc.inverse = false → options ≠ []) := by
    intro options
    simp
  rw [arcInquiry_cons, Inquiry.follows_bind_ok]
  refine exists_congr fun eligible => exists_congr fun u => ?_
  change _ ∧ Inquiry.Follows R
    (if (!arc.inverse && (shape.options slots arc eligible).isEmpty) = true then .done none
    else arcInquiry shape slots rest >>= fun items => .done
      (if (shape.options slots arc eligible).isEmpty then items
        else items.map (shape.options slots arc eligible :: ·))) u (.ok (some items)) t ↔ _
  by_cases hplaced : arc.inverse = false → shape.options slots arc eligible ≠ []
  · rw [if_neg (mt (hstuck _).1 (not_not_intro hplaced)), Inquiry.follows_bind_ok]
    constructor
    · rintro ⟨heligible, found, v, hfound, hitems, rfl⟩
      cases found with
      | none => split at hitems <;> cases hitems
      | some found =>
        refine ⟨found, heligible, hfound, hplaced, ?_⟩
        split at hitems
        · next hnone =>
          cases hitems
          exact (if_pos hnone).symm
        · next hsome =>
          cases hitems
          exact (if_neg hsome).symm
    · rintro ⟨found, heligible, hfound, -, rfl⟩
      refine ⟨heligible, some found, t, hfound, ?_, rfl⟩
      split <;> rfl
  · rw [if_pos ((hstuck _).2 hplaced)]
    constructor
    · rintro ⟨-, hnone, -⟩
      cases hnone
    · rintro ⟨found, -, -, hfree, -⟩
      exact absurd hfree hplaced

section Relaxed

variable {slots : List TripleConstraint}

/-- What an arc could stand beside, it still can. -/
theorem Shape.allowsExtra_relaxed (hclosed : closed = true → shape.closed = true)
    (hextra : shape.extra ⊆ extra) {predicate : Iri}
    (h : shape.allowsExtra slots predicate = true) :
    { shape with closed := closed, extra := extra }.allowsExtra slots predicate = true := by
  simp only [allowsExtra, Bool.or_eq_true, Bool.and_eq_true, Bool.not_eq_true',
    List.contains_iff_mem] at h ⊢
  rcases h with hmem | ⟨hopen, hnew⟩
  · exact .inl (hextra hmem)
  · refine .inr ⟨?_, hnew⟩
    by_contra hstill
    have hshut : shape.closed = true := hclosed (by simpa using hstill)
    rw [hopen] at hshut
    cases hshut

/-- An arc keeps its options, and one that comes in gets no more. -/
theorem Shape.options_relaxed (hclosed : closed = true → shape.closed = true)
    (hextra : shape.extra ⊆ extra) (arc : Arc) (eligible : List Choice) :
    shape.options slots arc eligible ⊆
        { shape with closed := closed, extra := extra }.options slots arc eligible ∧
      (arc.inverse = true → { shape with closed := closed, extra := extra }.options slots arc
        eligible = shape.options slots arc eligible) := by
  unfold options
  constructor
  · apply List.append_subset.2
    refine ⟨List.subset_append_left _ _, ?_⟩
    split
    · next hallowed =>
      rw [Bool.and_eq_true] at hallowed
      have hstill := Shape.allowsExtra_relaxed hclosed hextra hallowed.2
      rw [hallowed.1, hstill]
      exact List.subset_append_right _ _
    · exact List.nil_subset _
  · intro hinverse
    simp [hinverse]

/-- The options of the arcs that have to go somewhere are found by the same questions in the same
states, and each arc keeps those that it had. -/
theorem follows_arcInquiry_relaxed (hclosed : closed = true → shape.closed = true)
    (hextra : shape.extra ⊆ extra) {arcs : List Arc} {s t : Session} {items : List (List Choice)}
    (h : (arcInquiry shape slots arcs).Follows R s (.ok (some items)) t) :
    ∃ items', (arcInquiry { shape with closed := closed, extra := extra } slots arcs).Follows R s
        (.ok (some items')) t ∧ List.Forall₂ (· ⊆ ·) items items' := by
  induction arcs generalizing s items with
  | nil =>
    obtain ⟨hitems, rfl⟩ := h
    cases hitems
    exact ⟨[], ⟨rfl, rfl⟩, .nil⟩
  | cons arc rest ih =>
    obtain ⟨eligible, u, found, heligible, hfound, hplaced, rfl⟩ := follows_arcInquiry_cons.1 h
    obtain ⟨found', hfound', hmore⟩ := ih hfound
    obtain ⟨hsubset, hsame⟩ := Shape.options_relaxed hclosed hextra arc eligible
    have hstill : shape.options slots arc eligible ≠ [] →
        { shape with closed := closed, extra := extra }.options slots arc eligible ≠ [] := by
      intro hsome hnone
      rw [hnone] at hsubset
      exact hsome (List.eq_nil_of_subset_nil hsubset)
    refine ⟨_, follows_arcInquiry_cons.2 ⟨eligible, u, found', heligible, hfound', ?_, rfl⟩, ?_⟩
    · exact fun hout => hstill (hplaced hout)
    · by_cases hnone : shape.options slots arc eligible = []
      · -- Only an arc that comes in can be without options, and it gets none.
        have hinverse : arc.inverse = true := by
          by_contra hout
          exact hplaced (by simpa using hout) hnone
        rw [hsame hinverse, hnone]
        exact hmore
      · rw [if_neg (by simpa using hnone), if_neg (by simpa using hstill hnone)]
        exact .cons hsubset hmore

end Relaxed

/-! ## Shapes that ask for less -/

/-- A closed shape with one constraint on arcs `p`, by reference. -/
def Shape.shut : Shape :=
  ⟨true, [], some (.triple ⟨⟨"p"⟩, false, some (.ref (.iri ⟨"A"⟩)), .zeroOrMore, []⟩), [], [], []⟩

/-- A node with an arc to itself, a declaration that every node conforms to, and a limit that two
assignments reach. -/
def Setting.narrow : Setting where
  schema := Schema.empty.addShape ⟨.iri ⟨"A"⟩, false, .shape .any⟩
  graph := .ofList [⟨.iri ⟨"n"⟩, ⟨"p"⟩, .iri ⟨"n"⟩⟩]
  listing := Graph.asInserted _
  limits := { Limits.standard with maxSearchSpace := 2 }

namespace Session

/-- A shape that holds at a node still holds if it is opened or admits further arcs with more
predicates, unless there are too many assignments to try then.  The session ends in the same state
in either case. -/
theorem validateExpr_relaxed {node : Term} {s t : Session}
    (h : s.validateExpr w (.shape shape) node = some (.ok true, t))
    (hclosed : closed = true → shape.closed = true) (hextra : shape.extra ⊆ extra) :
    ∃ r, s.validateExpr w (.shape { shape with closed := closed, extra := extra }) node =
        some (r, t) ∧
      (r = .ok true ∨ ∃ complexity, w.limits.maxSearchSpace ≤ complexity ∧
        r = .error (.searchSpaceExceeded complexity w.limits.maxSearchSpace)) := by
  have hfollows : (w.shapeInquiry shape node).Follows w.Returns s (.ok true) t := by
    cases Setting.returns_iff.1 (validateExpr_eq_some_iff.1 h) with
    | compound _ hq => exact hq
  rw [Setting.shapeInquiry_eq] at hfollows
  obtain ⟨⟨f, slots⟩, u, hcompiled, hrest⟩ := Inquiry.follows_bind_ok.1 hfollows
  obtain ⟨hcompile, rfl⟩ := follows_ofExcept.1 hcompiled
  obtain ⟨found, v, hfound, hend⟩ := Inquiry.follows_bind_ok.1 hrest
  cases found with
  | none => cases hend.1
  | some items =>
    obtain ⟨hdecided, rfl⟩ := follows_ofExcept.1 hend
    obtain ⟨items', hfound', hmore⟩ := follows_arcInquiry_relaxed hclosed hextra hfound
    have hreturns : w.Returns (.shape { shape with closed := closed, extra := extra }) node u
        (decideAssignment w.limits.maxSearchSpace f slots items') t := by
      apply Setting.returns_iff.2
      apply Setting.OneStep.compound rfl
      show (w.shapeInquiry _ node).Follows _ _ _ _
      rw [Setting.shapeInquiry_eq]
      apply Inquiry.Follows.bind hcompiled
      apply hfound'.bind
      exact follows_ofExcept.2 ⟨rfl, rfl⟩
    refine ⟨_, validateExpr_eq_some_iff.2 hreturns, ?_⟩
    exact decideAssignment_of_subset hmore hdecided.symm

/-- The arc had to go into the slot and can stand beside it now, so there are two assignments, which
is what the limit does not allow.  The declaration has been evaluated all the same. -/
theorem validateExpr_relaxed_narrow : ∃ t,
    initial.validateExpr .narrow (.shape .shut) (.iri ⟨"n"⟩) = some (.ok true, t) ∧
    initial.validateExpr .narrow (.shape { Shape.shut with closed := false, extra := [⟨"p"⟩] })
      (.iri ⟨"n"⟩) = some (.error (.searchSpaceExceeded 2 2), t) ∧
    t.declarations.answer? 0 (.iri ⟨"n"⟩) = some true := by
  have h : initial.validateExpr .narrow (.shape .shut) (.iri ⟨"n"⟩) =
      some (.ok true, ⟨0, [((0, .iri ⟨"n"⟩), true)], [], []⟩) := rfl
  have hfails : ∃ t, initial.validateExpr .narrow
      (.shape { Shape.shut with closed := false, extra := [⟨"p"⟩] }) (.iri ⟨"n"⟩) =
        some (.error (.searchSpaceExceeded 2 2), t) := ⟨_, rfl⟩
  have hclosed : false = true → Shape.shut.closed = true := nofun
  have hextra : Shape.shut.extra ⊆ [⟨"p"⟩] := List.nil_subset _
  obtain ⟨r, hr, -⟩ := validateExpr_relaxed h hclosed hextra
  obtain ⟨t, ht⟩ := hfails
  cases ht.symm.trans hr
  exact ⟨_, h, hr, rfl⟩

end Session

end ShEx
