import ShEx.Proofs.OneOf
import ShEx.Proofs.Termination

/-!
# Placements

A shape sends each arc that it has to place to one of its places.  The arcs around a node are met
once each (`nodup_outgoingArcs`, `nodup_incomingArcs`), so an assignment of places to the arcs of a
listing is a function on arcs (`Setting.exists_sharing_iff`).

What decides about the places is what the session answered about the value expressions that it was
asked on the way (`Setting.Hears`).  With these answers the search finds a function that satisfies
the triple expression if there is one, and only then (`Setting.shape_holds_iff_places`).

A function that satisfies a `OneOf` by one member, and sends no arc below the other ones, is found
in particular (`Setting.shape_holds_of_holdsAlone`): below a member without arcs nothing says that
arcs are used (`Schema.Expands.not_takes`).
-/

set_option autoImplicit false

namespace ShEx

open ShEx.Rdf

variable {α : Type}

/-! ## The arcs around a node -/

/-- Different resources are different terms. -/
theorem Rdf.Resource.toTerm_injective : Function.Injective Resource.toTerm := by
  intro r r' h
  cases r <;> cases r' <;> cases h <;> rfl

/-- No arc leaves a node twice. -/
theorem nodup_outgoingArcs {g : Graph} (listing : g.Listing) (node : Term) :
    (outgoingArcs listing node).Nodup := by
  unfold outgoingArcs
  cases node.resource? with
  | none => exact List.nodup_nil
  | some r =>
    have hperm := listing.outgoing_perm r
    have hsubject : ∀ t ∈ listing.outgoing r, t.subject = r := by
      intro t ht
      simpa using List.of_mem_filter (hperm.mem_iff.1 ht)
    refine (List.nodup_map_iff_inj_on (hperm.nodup_iff.2 (g.nodup.filter _))).2 ?_
    rintro ⟨s, p, o⟩ ht ⟨s', p', o'⟩ ht' heq
    cases hsubject _ ht
    cases hsubject _ ht'
    cases heq
    rfl

/-- No arc reaches a node twice. -/
theorem nodup_incomingArcs {g : Graph} (listing : g.Listing) (node : Term) :
    (incomingArcs listing node).Nodup := by
  have hperm := listing.incoming_perm node
  have hobject : ∀ t ∈ listing.incoming node, t.object = node := by
    intro t ht
    simpa using List.of_mem_filter (hperm.mem_iff.1 ht)
  refine (List.nodup_map_iff_inj_on (hperm.nodup_iff.2 (g.nodup.filter _))).2 ?_
  rintro ⟨s, p, o⟩ ht ⟨s', p', o'⟩ ht' heq
  cases hobject _ ht
  cases hobject _ ht'
  obtain ⟨-, rfl, hsubject⟩ := Arc.mk.injEq .. ▸ heq
  cases Resource.toTerm_injective hsubject
  rfl

namespace Setting

/-- The arcs that a shape with these slots has to place: those that leave the node, and of those
that reach it the ones that a slot admits. -/
def dueArcs (w : Setting) (holds : ShapeExpr → Term → Bool) (slots : List TripleConstraint)
    (node : Term) : List Arc :=
  outgoingArcs w.listing node ++
    (incomingArcs w.listing node).filter fun arc => slots.any (·.admits holds arc)

/-- A function gives each arc that a shape has to place one of its places. -/
def Places (w : Setting) (holds : ShapeExpr → Term → Bool) (shape : Shape)
    (slots : List TripleConstraint) (node : Term) (place : Arc → Choice) : Prop :=
  ∀ arc ∈ w.dueArcs holds slots node, place arc ∈ shape.places holds slots arc

/-- How many arcs a function sends to each slot. -/
def tally (w : Setting) (holds : ShapeExpr → Term → Bool) (slots : List TripleConstraint)
    (node : Term) (place : Arc → Choice) : List Nat :=
  countsOf slots.length ((w.dueArcs holds slots node).map place)

variable {w : Setting} {holds : ShapeExpr → Term → Bool} {shape : Shape}
  {slots : List TripleConstraint} {node : Term}

/-- No arc has to be placed twice: one that leaves the node does not reach it. -/
theorem nodup_dueArcs : (w.dueArcs holds slots node).Nodup := by
  refine List.nodup_append'.2 ⟨nodup_outgoingArcs _ _, (nodup_incomingArcs _ _).filter _, ?_⟩
  intro arc hout hin
  have hin := inverse_of_mem_incomingArcs (List.mem_of_mem_filter hin)
  rw [inverse_of_mem_outgoingArcs hout] at hin
  cases hin

/-- To share the arcs out is to choose a function on them. -/
theorem exists_sharing_iff {P : List Choice → Prop} :
    (∃ shares, w.Sharing holds shape slots node shares ∧ P (shares.map (·.2))) ↔
      ∃ place, w.Places holds shape slots node place ∧
        P ((w.dueArcs holds slots node).map place) := by
  classical
  constructor
  · rintro ⟨shares, hs, hP⟩
    have harcs : shares.map (·.1) = w.dueArcs holds slots node := hs.arcs
    have hinj := List.inj_on_of_nodup_map (harcs ▸ nodup_dueArcs : (shares.map (·.1)).Nodup)
    -- The place of an arc is the one that stands beside it.
    let place : Arc → Choice := fun arc =>
      if h : ∃ share ∈ shares, share.1 = arc then h.choose.2 else .extra
    have hplace : ∀ share ∈ shares, place share.1 = share.2 := by
      intro share hmem
      have h : ∃ share' ∈ shares, share'.1 = share.1 := ⟨share, hmem, rfl⟩
      have heq := hinj h.choose_spec.1 hmem h.choose_spec.2
      show (if h : _ then _ else _) = _
      rw [dif_pos h, heq]
    refine ⟨place, fun arc harc => ?_, ?_⟩
    · rw [← harcs] at harc
      obtain ⟨share, hmem, rfl⟩ := List.mem_map.1 harc
      rw [hplace share hmem]
      exact hs.placed share hmem
    · rw [← harcs, List.map_map]
      exact (List.map_congr_left hplace : shares.map (place ∘ (·.1)) = _) ▸ hP
  · rintro ⟨place, hplace, hP⟩
    refine ⟨(w.dueArcs holds slots node).map fun arc => (arc, place arc), ⟨?_, ?_⟩, ?_⟩
    · rw [List.map_map]
      exact List.map_id _
    · intro share hmem
      obtain ⟨arc, harc, rfl⟩ := List.mem_map.1 hmem
      exact hplace arc harc
    · rw [List.map_map]
      exact hP

/-! ## What a session answers on the way -/

/-- What holds where is what the session answers to the questions that an inquiry comes to. -/
def Hears (w : Setting) (q : Inquiry α) (s : Session) (holds : ShapeExpr → Term → Bool) : Prop :=
  ∀ e node t b u, q.Reaches w.Returns s e node t → w.Returns e node t (.ok b) u →
    holds e node = b

/-- A question that was answered once in the course of an inquiry has one answer there. -/
theorem hears_heldIn {q : Inquiry α} {s t : Session} {r : Except Failure α}
    (h : q.Follows w.Returns s r t) : w.Hears q s (w.heldIn t) := by
  induction q generalizing s with
  | done a' => exact fun _ _ _ _ _ hq => hq.elim
  | failed failure => exact fun _ _ _ _ _ hq => hq.elim
  | ask e node next ih =>
    rcases h with ⟨b, u, hb, hrest⟩ | ⟨failure, hfailure, -⟩
    · rintro e' node' t' b' u' (⟨rfl, rfl, rfl⟩ | ⟨c, v, hc, hreach⟩) hb'
      · obtain ⟨hbb', rfl⟩ := hb.unique hb'
        cases hbb'
        exact heldIn_eq hb (follows_keeps (fun _ _ _ _ _ hr => hr.keeps) hrest).1
      · obtain ⟨hbc, rfl⟩ := hb.unique hc
        cases hbc
        exact ih b hrest e' node' t' b' u' hreach hb'
    -- The question that fails is the last one that is come to.
    · rintro e' node' t' b' u' (⟨rfl, rfl, rfl⟩ | ⟨c, v, hc, -⟩) hb'
      · cases (hfailure.unique hb').1
      · cases (hfailure.unique hc).1

/-- An inquiry concludes what follows from the answers that it hears. -/
theorem Hears.answer_eq {q : Inquiry α} {s t : Session} {a : α} (hq : w.Hears q s holds)
    (h : q.Follows w.Returns s (.ok a) t) : q.answer holds = .ok a := by
  induction q generalizing s with
  | done a' =>
    cases h.1
    rfl
  | failed failure => cases h.1
  | ask e node next ih =>
    rcases h with ⟨b, u, hb, hrest⟩ | ⟨failure, -, hf⟩
    · rw [Inquiry.answer, hq e node s b u (.inl ⟨rfl, rfl, rfl⟩) hb]
      exact ih b (fun e' node' t' b' u' hreach => hq e' node' t' b' u' (.inr ⟨b, u, hb, hreach⟩))
        hrest
    · cases hf

/-- A shape that has an answer holds if and only if some function on its arcs satisfies its
formula. -/
theorem Returns.holds_iff_exists_places {s t : Session} {b : Bool}
    (h : w.Returns (.shape shape) node s (.ok b) t)
    (hholds : w.Hears (w.shapeInquiry shape node) s holds) :
    ∃ f slots, w.schema.compile shape.expression = .ok (f, slots) ∧
      (b = true ↔ ∃ place, w.Places holds shape slots node place ∧
        (f.evaluate slots (w.tally holds slots node place)).holds = true) := by
  cases returns_iff.1 h with
  | compound _ hq =>
    obtain ⟨f, slots, hcompile, hiff⟩ := answer_shapeInquiry (hholds.answer_eq hq)
    refine ⟨f, slots, hcompile, hiff.trans ?_⟩
    exact exists_sharing_iff (P := fun places =>
      (f.evaluate slots (countsOf slots.length places)).holds = true)

end Setting

/-! ## Members without arcs -/

namespace Schema

variable {s : Schema} {slots : List TripleConstraint} {counts : List Nat}

mutual

/-- Nothing takes an arc where no arc stands. -/
theorem Expands.not_takes {te : TripleExpr} {before after : List TripleConstraint} {f : Formula} :
    s.Expands te before f after → (∀ i ∈ f.slotsBelow, counts.getD i 0 = 0) →
      ¬f.Takes slots counts
  | .eachOf h => fun hnone ht => by
    rw [Formula.Takes] at ht
    exact ExpandsAll.not_someTakes h hnone ht.2
  | .oneOf h => fun hnone ht => by
    rw [Formula.Takes] at ht
    exact ExpandsAll.not_someTakes h hnone ht.2
  | .triple => fun hnone ht => by
    rw [Formula.Takes, hnone _ List.mem_cons_self] at ht
    exact absurd ht.2 (Nat.lt_irrefl 0)
  | .known _ h => Expands.not_takes h
  | .unknown _ => fun _ ht => by
    rw [Formula.Takes] at ht
    cases ht

/-- None of several formulas takes an arc where no arc stands below them. -/
theorem ExpandsAll.not_someTakes {tes : List TripleExpr} {before after : List TripleConstraint}
    {fs : List Formula} : s.ExpandsAll tes before fs after →
    (∀ i ∈ Formula.slotsBelowAll fs, counts.getD i 0 = 0) → ¬Formula.SomeTakes slots counts fs
  | .nil => fun _ ht => by
    rw [Formula.SomeTakes] at ht
    exact ht
  | .cons h hs => fun hnone ht => by
    rw [Formula.SomeTakes] at ht
    rcases ht with ht | ht
    · exact Expands.not_takes h (fun i hi => hnone i (List.mem_append_left _ hi)) ht
    · exact ExpandsAll.not_someTakes hs (fun i hi => hnone i (List.mem_append_right _ hi)) ht

end

mutual

/-- A triple expression that is satisfied with no arc below a member that was not chosen is
satisfied. -/
theorem Expands.holds {te : TripleExpr} {before after : List TripleConstraint} {f : Formula} :
    s.Expands te before f after → f.HoldsAlone slots counts → f.Holds slots counts
  | .eachOf h => fun hf => by
    rw [Formula.HoldsAlone] at hf
    rw [Formula.Holds]
    exact ExpandsAll.allHold h hf
  | .oneOf h => fun hf => by
    rw [Formula.HoldsAlone] at hf
    rw [Formula.Holds]
    exact ExpandsAll.oneHolds h hf
  | .triple => fun hf => by
    rw [Formula.HoldsAlone] at hf
    rwa [Formula.Holds]
  | .known _ h => Expands.holds h
  | .unknown _ => fun hf => by
    rw [Formula.HoldsAlone] at hf
    rwa [Formula.Holds]

/-- Parts that are all satisfied in this way are all satisfied. -/
theorem ExpandsAll.allHold {tes : List TripleExpr} {before after : List TripleConstraint}
    {fs : List Formula} : s.ExpandsAll tes before fs after →
    Formula.AllHoldAlone slots counts fs → Formula.AllHold slots counts fs
  | .nil => fun _ => by rw [Formula.AllHold]; trivial
  | .cons h hs => fun hf => by
    rw [Formula.AllHoldAlone] at hf
    rw [Formula.AllHold]
    exact ⟨Expands.holds h hf.1, ExpandsAll.allHold hs hf.2⟩

/-- A member that is satisfied beside others without arcs is satisfied beside others that take
none. -/
theorem ExpandsAll.oneHolds {tes : List TripleExpr} {before after : List TripleConstraint}
    {fs : List Formula} : s.ExpandsAll tes before fs after →
    Formula.OneHoldsAlone slots counts fs → Formula.OneHolds slots counts fs
  | .nil => fun hf => by
    rw [Formula.OneHoldsAlone] at hf
    exact hf.elim
  | .cons h hs => fun hf => by
    rw [Formula.OneHoldsAlone] at hf
    rw [Formula.OneHolds]
    rcases hf with ⟨hf, hnone⟩ | ⟨hnone, hf⟩
    · exact .inl ⟨Expands.holds h hf, ExpandsAll.not_someTakes hs hnone⟩
    · exact .inr ⟨Expands.not_takes h hnone, ExpandsAll.oneHolds hs hf⟩

end

/-- The triple expression of a shape is satisfied if it is in this way; without one there is nothing
to satisfy. -/
theorem ExpandsTo.holds {expression : Option TripleExpr} {f : Formula}
    (h : s.ExpandsTo expression f slots) (hf : f.HoldsAlone slots counts) :
    f.Holds slots counts := by
  cases expression with
  | none =>
    obtain ⟨rfl, -⟩ := h
    rw [Formula.Holds]
    exact Satisfaction.noConfusion
  | some te => exact Expands.holds h hf

end Schema

/-! ## Examples of placements -/

/-- Two slots for arcs `p`, one of them with a value expression, one for arcs `s`, and two for arcs
`q` that reach the node, of which the second one refers to nothing. -/
def crowdedSlots : List TripleConstraint :=
  [⟨⟨"p"⟩, false, none, .one, []⟩,
    ⟨⟨"p"⟩, false, some (.and []), .one, []⟩,
    ⟨⟨"s"⟩, false, none, .exactly 2, []⟩,
    ⟨⟨"q"⟩, true, some (.and []), .exactly 2, []⟩,
    ⟨⟨"q"⟩, true, some (.ref (.iri ⟨"U"⟩)), .zeroOrMore, []⟩]

/-- The shape with these slots, of which the second and the third one are a choice.  Further arcs
`p` are allowed beside them. -/
def Shape.crowded : Shape :=
  ⟨false, [⟨"p"⟩], some (.eachOf ⟨[
    .triple ⟨⟨"p"⟩, false, none, .one, []⟩,
    .oneOf ⟨[.triple ⟨⟨"p"⟩, false, some (.and []), .one, []⟩,
      .triple ⟨⟨"s"⟩, false, none, .exactly 2, []⟩], none, []⟩,
    .triple ⟨⟨"q"⟩, true, some (.and []), .exactly 2, []⟩,
    .triple ⟨⟨"q"⟩, true, some (.ref (.iri ⟨"U"⟩)), .zeroOrMore, []⟩], none, []⟩), [], [], []⟩

namespace Setting

/-- A node that three arcs leave and two arcs reach. -/
def crossing : Setting where
  schema := .empty
  graph := .ofList [⟨.iri ⟨"n"⟩, ⟨"p"⟩, .iri ⟨"x"⟩⟩, ⟨.iri ⟨"n"⟩, ⟨"p"⟩, .iri ⟨"y"⟩⟩,
    ⟨.iri ⟨"n"⟩, ⟨"r"⟩, .iri ⟨"z"⟩⟩, ⟨.iri ⟨"k"⟩, ⟨"q"⟩, .iri ⟨"n"⟩⟩,
    ⟨.iri ⟨"j"⟩, ⟨"q"⟩, .iri ⟨"n"⟩⟩]
  listing := Graph.asInserted _
  limits := .standard

/-! ## What the search finds -/

variable {w : Setting} {shape : Shape} {node : Term} {s t : Session}

/-- A shape that has an answer holds at a node if and only if every arc that leaves the node has a
place, and some function sends each arc that is to be placed to one of its places so that the
formula is not unsatisfied by the numbers of arcs in the slots.  The places of an arc are the slots
with its direction and predicate whose value expression was answered to hold, and for an arc that
goes out the place beside them, where the shape allows it. -/
theorem shape_holds_iff_places {b : Bool} (h : w.Returns (.shape shape) node s (.ok b) t) :
    (∃ holds, w.Hears (w.shapeInquiry shape node) s holds) ∧
    ∀ holds, w.Hears (w.shapeInquiry shape node) s holds →
      ∃ f slots, w.schema.compile shape.expression = .ok (f, slots) ∧
        (b = true ↔
          (∀ arc ∈ outgoingArcs w.listing node, shape.places holds slots arc ≠ []) ∧
          ∃ place : Arc → Choice,
            (∀ arc ∈ w.dueArcs holds slots node, place arc ∈ shape.places holds slots arc) ∧
            f.evaluate slots (w.tally holds slots node place) ≠ .unsatisfied) := by
  constructor
  · cases returns_iff.1 h with
    | compound _ hq => exact ⟨w.heldIn t, hears_heldIn hq⟩
  · intro holds hholds
    obtain ⟨f, slots, hcompile, hiff⟩ := h.holds_iff_exists_places hholds
    refine ⟨f, slots, hcompile, hiff.trans ⟨?_, ?_⟩⟩
    · rintro ⟨place, hplace, hf⟩
      refine ⟨fun arc harc hnone => ?_, place, hplace, bne_iff_ne.1 hf⟩
      have hmem := hplace arc (List.mem_append_left _ harc)
      rw [hnone] at hmem
      cases hmem
    · rintro ⟨-, place, hplace, hf⟩
      exact ⟨place, hplace, bne_iff_ne.2 hf⟩

/-- Two arcs compete for three places each, one arc stands beside all slots, and two arcs that reach
the node have one slot each. -/
theorem shape_holds_iff_places_crossing :
    crossing.Returns (.shape .crowded) (.iri ⟨"n"⟩) .initial (.ok true) .initial ∧
    (∃ holds, crossing.Hears (crossing.shapeInquiry .crowded (.iri ⟨"n"⟩)) .initial holds) ∧
    ∀ holds, crossing.Hears (crossing.shapeInquiry .crowded (.iri ⟨"n"⟩)) .initial holds →
      ∃ f slots, crossing.schema.compile Shape.crowded.expression = .ok (f, slots) ∧
        (true = true ↔
          (∀ arc ∈ outgoingArcs crossing.listing (.iri ⟨"n"⟩),
            Shape.crowded.places holds slots arc ≠ []) ∧
          ∃ place : Arc → Choice,
            (∀ arc ∈ crossing.dueArcs holds slots (.iri ⟨"n"⟩),
              place arc ∈ Shape.crowded.places holds slots arc) ∧
            f.evaluate slots (crossing.tally holds slots (.iri ⟨"n"⟩) place) ≠ .unsatisfied) := by
  have h : crossing.Returns (.shape .crowded) (.iri ⟨"n"⟩) .initial (.ok true) .initial := ⟨2, rfl⟩
  exact ⟨h, shape_holds_iff_places h⟩

/-- If a function sends each arc to one of its places so that the triple expression is satisfied, by
one member of each `OneOf` and with no arc below the other ones, and the evaluation of the shape
neither comes back to a question nor fails, it finds that the shape holds. -/
theorem shape_holds_of_holdsAlone (hends : ¬w.ComesBack ⟨.shape shape, node, s⟩)
    (hfails : ∀ failure t, ¬w.Returns (.shape shape) node s (.error failure) t)
    {holds : ShapeExpr → Term → Bool} (hholds : w.Hears (w.shapeInquiry shape node) s holds)
    {f : Formula} {slots : List TripleConstraint}
    (hf : w.schema.ExpandsTo shape.expression f slots) {place : Arc → Choice}
    (hplace : ∀ arc ∈ w.dueArcs holds slots node, place arc ∈ shape.places holds slots arc)
    (halone : f.HoldsAlone slots (w.tally holds slots node place)) :
    ∃ t, w.Returns (.shape shape) node s (.ok true) t := by
  obtain ⟨r, t, hr⟩ := exists_validateExpr_of_not_comesBack hends
  have hr := Session.validateExpr_eq_some_iff.1 hr
  cases r with
  | error failure => exact absurd hr (hfails failure t)
  | ok b =>
    obtain ⟨f', slots', hcompile, hiff⟩ := hr.holds_iff_exists_places hholds
    obtain ⟨rfl, rfl⟩ := hf.unique (Schema.expandsTo_of_compile hcompile)
    have hb : b = true :=
      hiff.2 ⟨place, hplace, Formula.evaluate_holds_iff _ |>.2 (hf.holds halone)⟩
    exact ⟨t, hb ▸ hr⟩

/-- What is no reference holds. -/
def holdsUnreferred : ShapeExpr → Term → Bool
  | .ref _, _ => false
  | _, _ => true

/-- The arc to `x` goes to the first slot, the one to `y` to the member of the choice that asks for
an arc `p`, and the arcs that reach the node to the slot that asks for two of them. -/
def byNeighbour (arc : Arc) : Choice :=
  if arc.inverse then .slot 3
  else if arc.neighbour = .iri ⟨"x"⟩ then .slot 0
  else if arc.neighbour = .iri ⟨"y"⟩ then .slot 1
  else .extra

/-- One way to place the arcs satisfies the choice by its first member and gives the second one no
arc. -/
theorem shape_holds_of_holdsAlone_crossing :
    ¬crossing.ComesBack ⟨.shape .crowded, .iri ⟨"n"⟩, .initial⟩ ∧
    (∀ failure t, ¬crossing.Returns (.shape .crowded) (.iri ⟨"n"⟩) .initial (.error failure) t) ∧
    crossing.Hears (crossing.shapeInquiry .crowded (.iri ⟨"n"⟩)) .initial holdsUnreferred ∧
    ∃ f, crossing.schema.ExpandsTo Shape.crowded.expression f crowdedSlots ∧
      (∀ arc ∈ crossing.dueArcs holdsUnreferred crowdedSlots (.iri ⟨"n"⟩),
        byNeighbour arc ∈ Shape.crowded.places holdsUnreferred crowdedSlots arc) ∧
      f.HoldsAlone crowdedSlots
        (crossing.tally holdsUnreferred crowdedSlots (.iri ⟨"n"⟩) byNeighbour) ∧
      ∃ t, crossing.Returns (.shape .crowded) (.iri ⟨"n"⟩) .initial (.ok true) t := by
  have hcompile : crossing.schema.compile Shape.crowded.expression =
      .ok (.all [.slot 0, .one [.slot 1, .slot 2], .slot 3, .slot 4], crowdedSlots) := rfl
  have hends : ¬crossing.ComesBack ⟨.shape .crowded, .iri ⟨"n"⟩, .initial⟩ := by
    refine not_comesBack (fun l hl => ?_) _
    obtain ⟨l', ⟨e, ⟨te, hte, -⟩, -⟩, -⟩ := Relation.TransGen.head'_iff.1 hl
    cases hte
  have hfails : ∀ failure t,
      ¬crossing.Returns (.shape .crowded) (.iri ⟨"n"⟩) .initial (.error failure) t := by
    intro failure t h
    have hreturns : crossing.Returns (.shape .crowded) (.iri ⟨"n"⟩) .initial (.ok true) .initial :=
      ⟨2, rfl⟩
    cases (h.unique hreturns).1
  have hholds : crossing.Hears (crossing.shapeInquiry .crowded (.iri ⟨"n"⟩)) .initial
      holdsUnreferred := by
    intro e node t b u hreach hb
    obtain ⟨f, slots, hcompile', -, -, c, hc, -, hvalue, -⟩ := mentions_shapeInquiry hreach.mentions
    cases hcompile.symm.trans hcompile'
    have hvalues : ∀ c ∈ crowdedSlots, ∀ e, c.value = some e →
        e = .and [] ∨ e = .ref (.iri ⟨"U"⟩) := by
      simp [crowdedSlots, eq_comm]
    rcases hvalues c hc e hvalue with rfl | rfl
    · cases returns_iff.1 hb with
      | compound _ hq =>
        cases hq.1
        rfl
    · cases returns_iff.1 hb with
      | compound hc => cases hc
      | unknown => rfl
      | held h => cases h
      | settled h => cases h.1
  have hf := Schema.expandsTo_of_compile hcompile
  have hplace : ∀ arc ∈ crossing.dueArcs holdsUnreferred crowdedSlots (.iri ⟨"n"⟩),
      byNeighbour arc ∈ Shape.crowded.places holdsUnreferred crowdedSlots arc := by decide
  have halone : Formula.HoldsAlone crowdedSlots
      (crossing.tally holdsUnreferred crowdedSlots (.iri ⟨"n"⟩) byNeighbour)
      (.all [.slot 0, .one [.slot 1, .slot 2], .slot 3, .slot 4]) := by
    have htally : crossing.tally holdsUnreferred crowdedSlots (.iri ⟨"n"⟩) byNeighbour =
        [1, 1, 0, 2, 0] := rfl
    rw [htally]
    refine ⟨⟨_, rfl, by decide⟩, .inl ⟨⟨_, rfl, by decide⟩, ?_⟩, ⟨_, rfl, by decide⟩,
      ⟨_, rfl, by decide⟩, trivial⟩
    exact List.forall_mem_singleton.2 rfl
  exact ⟨hends, hfails, hholds, _, hf, hplace, halone,
    shape_holds_of_holdsAlone hends hfails hholds hf hplace halone⟩

end Setting

end ShEx
