import Mathlib.Algebra.BigOperators.Group.List.Basic
import Mathlib.Data.List.Forall2
import ShEx.Proofs.Returns

/-!
# How arcs are shared out

Once it is known which expressions hold where, a shape asks nothing more (`Inquiry.answer`): its
arcs are to be shared out among the slots that admit them and, for an outgoing arc, the place beside
all slots.  A `Sharing` gives each arc one of its places.

The search is exact: where it is not refused, it finds out whether there is a sharing whose counts
satisfy the formula (`answer_shapeInquiry`).  Arcs with one place only are counted beforehand and
the others are tried in turn, and neither changes what can be reached, as the order in which arcs
are counted does not matter (`addArc_comm`).
-/

set_option autoImplicit false

namespace ShEx

open ShEx.Rdf

variable {α β : Type}

/-! ## Inquiries with known answers -/

namespace Inquiry

/-- The conclusion of an inquiry if it is known which expressions hold where. -/
def answer (holds : ShapeExpr → Term → Bool) : Inquiry α → Except Failure α
  | .done a => .ok a
  | .failed failure => .error failure
  | .ask e node next => (next (holds e node)).answer holds

variable (holds : ShapeExpr → Term → Bool)

/-- The second of two inquiries is concluded from the conclusion of the first one. -/
theorem answer_bind (q : Inquiry α) (f : α → Inquiry β) :
    (q >>= f).answer holds = q.answer holds >>= fun a => (f a).answer holds := by
  induction q with
  | done a => rfl
  | failed failure => rfl
  | ask e node next ih => exact ih (holds e node)

/-- An inquiry without questions concludes what it is. -/
@[simp]
theorem answer_ofExcept (x : Except Failure α) : (ofExcept x).answer holds = x := by
  cases x <;> rfl

variable {holds}

/-- An inquiry whose questions are answered as it is known concludes what is known to follow. -/
theorem Follows.answer_eq {R : Answering} {q : Inquiry α} {s t : Session} {a : α}
    (h : q.Follows R s (.ok a) t)
    (hR : ∀ e node s b u, R e node s (.ok b) u → holds e node = b) : q.answer holds = .ok a := by
  induction q generalizing s with
  | done a' =>
    cases h.1
    rfl
  | failed failure => cases h.1
  | ask e node next ih =>
    rcases h with ⟨b, u, hb, hrest⟩ | ⟨failure, -, hf⟩
    · rw [answer, hR _ _ _ _ _ hb]
      exact ih b hrest
    · cases hf

end Inquiry

/-! ## The places of an arc -/

variable (holds : ShapeExpr → Term → Bool)

/-- Does a slot admit an arc: has it its direction and predicate, and does its value expression hold
at the other end? -/
def TripleConstraint.admits (t : TripleConstraint) (arc : Arc) : Bool :=
  t.concerns arc && t.value.all fun e => holds e arc.neighbour

/-- The slots, numbered from `i` on, that admit an arc. -/
def admitting (arc : Arc) : Nat → List TripleConstraint → List Choice
  | _, [] => []
  | i, t :: rest =>
    if t.admits holds arc then .slot i :: admitting arc (i + 1) rest else admitting arc (i + 1) rest

/-- All places of an arc: the slots that admit it and, if it goes out and the shape allows further
arcs with its predicate, the place beside them. -/
def Shape.places (shape : Shape) (slots : List TripleConstraint) (arc : Arc) : List Choice :=
  admitting holds arc 0 slots ++
    if !arc.inverse && shape.allowsExtra slots arc.predicate then [.extra] else []

variable {holds}

/-- The first slot is among those that admit the arc just if it does, and the others are numbered
on. -/
theorem admitting_cons (arc : Arc) (i : Nat) (t : TripleConstraint)
    (rest : List TripleConstraint) : admitting holds arc i (t :: rest) =
      if t.admits holds arc then .slot i :: admitting holds arc (i + 1) rest
      else admitting holds arc (i + 1) rest := rfl

/-- Among the slots that admit an arc are those, and under their own numbers. -/
theorem mem_admitting {arc : Arc} {i : Nat} {slots : List TripleConstraint} {c : Choice} :
    c ∈ admitting holds arc i slots ↔
      ∃ j t, slots[j]? = some t ∧ t.admits holds arc ∧ c = .slot (i + j) := by
  induction slots generalizing i with
  | nil => simp [admitting]
  | cons t rest ih =>
    have hrest : (∃ j t', (t :: rest)[j]? = some t' ∧ t'.admits holds arc ∧ c = .slot (i + j)) ↔
        (t.admits holds arc ∧ c = .slot i) ∨ c ∈ admitting holds arc (i + 1) rest := by
      rw [ih]
      constructor
      · rintro ⟨j, t', hj, ha, rfl⟩
        cases j with
        | zero =>
          cases hj
          exact .inl ⟨ha, rfl⟩
        | succ j =>
          refine .inr ⟨j, t', hj, ha, ?_⟩
          rw [Nat.add_right_comm, Nat.add_assoc]
      · rintro (⟨ha, rfl⟩ | ⟨j, t', hj, ha, rfl⟩)
        · exact ⟨0, t, rfl, ha, rfl⟩
        · refine ⟨j + 1, t', hj, ha, ?_⟩
          rw [Nat.add_right_comm, Nat.add_assoc]
    rw [hrest, admitting_cons]
    split
    · next ha => simp [ha]
    · next ha => simp [ha]

/-- The places of an arc, one by one. -/
theorem Shape.mem_places {shape : Shape} {slots : List TripleConstraint} {arc : Arc} {c : Choice} :
    c ∈ shape.places holds slots arc ↔
      (∃ i t, slots[i]? = some t ∧ t.admits holds arc ∧ c = .slot i) ∨
        (c = .extra ∧ arc.inverse = false ∧ shape.allowsExtra slots arc.predicate) := by
  unfold Shape.places
  rw [List.mem_append, mem_admitting]
  refine or_congr ?_ ?_
  · simp only [Nat.zero_add]
  · split
    · next h => simpa using fun _ => h
    · next h => simpa using fun _ => h

/-- An incoming arc has a place if and only if a slot admits it. -/
theorem Shape.places_isEmpty_of_inverse {shape : Shape} {slots : List TripleConstraint} {arc : Arc}
    (h : arc.inverse = true) :
    (shape.places holds slots arc).isEmpty = !slots.any (·.admits holds arc) := by
  rw [Bool.eq_iff_iff, List.isEmpty_iff, List.eq_nil_iff_forall_not_mem, Bool.not_eq_true',
    List.any_eq_false]
  constructor
  · intro hnone t ht ha
    obtain ⟨i, hi⟩ := List.mem_iff_getElem?.1 ht
    exact hnone _ (Shape.mem_places.2 (.inl ⟨i, t, hi, ha, rfl⟩))
  · intro hnone c hc
    rcases Shape.mem_places.1 hc with ⟨i, t, hi, ha, -⟩ | ⟨-, hout, -⟩
    · exact hnone t (List.mem_of_getElem? hi) ha
    · rw [h] at hout
      cases hout

/-! ## The options that a shape works with -/

/-- If it is known what holds where, the inquiry about an arc gathers the slots that admit it. -/
theorem answer_slotInquiry (arc : Arc) (i : Nat) (slots : List TripleConstraint) :
    (slotInquiry arc i slots).answer holds = .ok (admitting holds arc i slots) := by
  induction slots generalizing i with
  | nil => rfl
  | cons t rest ih =>
    unfold slotInquiry admitting TripleConstraint.admits
    cases t.concerns arc with
    | false =>
      simp only [Bool.false_eq_true, if_false, Bool.false_and]
      exact ih (i + 1)
    | true =>
      simp only [if_true, Bool.true_and, Inquiry.answer_bind, ih]
      have hvalue : (valueInquiry t arc).answer holds =
          .ok (t.value.all fun e => holds e arc.neighbour) := by
        unfold valueInquiry
        cases t.value <;> rfl
      rw [hvalue]
      show Except.ok _ = _
      cases t.value.all fun e => holds e arc.neighbour <;> rfl

/-- The options of the arcs of a node are their places, incoming arcs without a place left out, and
there are none if an outgoing arc has no place. -/
theorem answer_arcInquiry (shape : Shape) (slots : List TripleConstraint) (arcs : List Arc) :
    (arcInquiry shape slots arcs).answer holds = .ok
      (if arcs.any fun arc => !arc.inverse && (shape.places holds slots arc).isEmpty then none
      else some ((arcs.filter fun arc => !(shape.places holds slots arc).isEmpty).map
        (shape.places holds slots))) := by
  induction arcs with
  | nil => rfl
  | cons arc rest ih =>
    unfold arcInquiry
    rw [Inquiry.answer_bind, answer_slotInquiry]
    show ((if arc.inverse then _ else _ : Inquiry _).answer holds) = _
    cases hinv : arc.inverse with
    | true =>
      have hplaces : shape.places holds slots arc = admitting holds arc 0 slots := by
        simp [Shape.places, hinv]
      rw [← hplaces]
      simp only [if_true, Inquiry.answer_bind, ih, List.any_cons, hinv, Bool.not_true,
        Bool.false_and, Bool.false_or, List.filter_cons]
      show Except.ok _ = _
      cases (shape.places holds slots arc).isEmpty with
      | true => rfl
      | false =>
        simp only [Bool.false_eq_true, if_false, Bool.not_false, if_true]
        split <;> rfl
    | false =>
      have hplaces : (if shape.allowsExtra slots arc.predicate
          then admitting holds arc 0 slots ++ [.extra] else admitting holds arc 0 slots) =
            shape.places holds slots arc := by
        unfold Shape.places
        rw [hinv]
        cases shape.allowsExtra slots arc.predicate <;> simp
      simp only [Bool.false_eq_true, if_false, hplaces, List.any_cons, hinv, Bool.not_false,
        Bool.true_and, List.filter_cons]
      cases (shape.places holds slots arc).isEmpty with
      | true => rfl
      | false =>
        simp only [Bool.false_eq_true, if_false, Inquiry.answer_bind, ih, Bool.false_or,
          Bool.not_false, if_true]
        show Except.ok _ = _
        split <;> rfl

/-! ## The search -/

/-- Two arcs can be counted in either order. -/
theorem addArc_comm (counts : List Nat) (c d : Choice) :
    addArc (addArc counts c) d = addArc (addArc counts d) c := by
  cases c with
  | extra => rfl
  | slot i =>
    cases d with
    | extra => rfl
    | slot j =>
      refine List.ext_getElem? fun k => ?_
      simp only [addArc, List.getElem?_modify]
      cases counts[k]? with
      | none => rfl
      | some n =>
        simp only [Option.map_some, Option.some.injEq, Option.map_eq_map]
        split <;> split <;> rfl

/-- The counts of arcs at some places. -/
def countsOf (n : Nat) (places : List Choice) : List Nat :=
  (List.range n).map fun i => places.count (.slot i)

/-- Counting arcs one after the other gives how many have each place. -/
theorem foldl_addArc (places : List Choice) (n : Nat) :
    places.foldl addArc (List.replicate n 0) = countsOf n places := by
  have hgeneral : ∀ counts : List Nat, places.foldl addArc counts =
      counts.mapIdx fun i k => k + places.count (.slot i) := by
    induction places with
    | nil =>
      intro counts
      refine List.ext_getElem? fun k => ?_
      simp
    | cons c rest ih =>
      intro counts
      rw [List.foldl_cons, ih]
      refine List.ext_getElem? fun k => ?_
      cases c with
      | extra =>
        simp [addArc]
      | slot i =>
        simp only [addArc, List.getElem?_mapIdx, List.getElem?_modify, List.count_cons]
        cases counts[k]? with
        | none => rfl
        | some m =>
          simp only [Option.map_some, Option.some.injEq, Option.map_eq_map, beq_iff_eq,
            Choice.slot.injEq]
          split <;> omega
  rw [hgeneral]
  refine List.ext_getElem? fun k => ?_
  simp only [countsOf, List.getElem?_mapIdx, List.getElem?_map, List.getElem?_replicate]
  by_cases hk : k < n
  · simp [hk]
  · simp [hk]

/-- The search finds out whether one option each for some arcs can be added to counts so that the
formula holds. -/
theorem assignable_iff (f : Formula) (slots : List TripleConstraint) (items : List (List Choice))
    (counts : List Nat) : assignable f slots items counts = true ↔
      ∃ cs, List.Forall₂ (· ∈ ·) cs items ∧
        (f.evaluate slots (cs.foldl addArc counts)).holds = true := by
  induction items generalizing counts with
  | nil =>
    unfold assignable
    constructor
    · exact fun h => ⟨[], .nil, h⟩
    · rintro ⟨cs, hcs, h⟩
      cases hcs
      exact h
  | cons options rest ih =>
    unfold assignable
    rw [List.any_eq_true]
    constructor
    · rintro ⟨c, hc, h⟩
      obtain ⟨cs, hcs, h⟩ := (ih _).1 h
      exact ⟨c :: cs, .cons hc hcs, h⟩
    · rintro ⟨cs, hcs, h⟩
      cases hcs with
      | @cons c _ cs _ hc hcs => exact ⟨c, hc, (ih _).2 ⟨cs, hcs, h⟩⟩

/-- Counting the arcs with one option beforehand leaves the reachable counts as they are. -/
theorem exists_openChoices_iff (items : List (List Choice)) (counts : List Nat)
    (P : List Nat → Prop) :
    (∃ cs, List.Forall₂ (· ∈ ·) cs (openChoices items) ∧ P (cs.foldl addArc (items.foldl
      (fun counts options =>
        match options with
        | [choice] => addArc counts choice
        | _ => counts) counts))) ↔
      ∃ cs, List.Forall₂ (· ∈ ·) cs items ∧ P (cs.foldl addArc counts) := by
  induction items generalizing counts P with
  | nil => rfl
  | cons options rest ih =>
    have hmany : ∀ {options : List Choice}, options.length ≠ 1 →
        openChoices (options :: rest) = options :: openChoices rest ∧
        (match options with
        | [choice] => addArc counts choice
        | _ => counts) = counts := by
      intro options h
      refine ⟨by simp [openChoices, h], ?_⟩
      match options, h with
      | [], _ => rfl
      | _ :: _ :: _, _ => rfl
    by_cases hone : options.length = 1
    · obtain ⟨c, rfl⟩ := List.length_eq_one_iff.1 hone
      have hopen : openChoices ([c] :: rest) = openChoices rest := rfl
      rw [hopen, List.foldl_cons, ih]
      constructor
      · rintro ⟨cs, hcs, h⟩
        exact ⟨c :: cs, .cons (List.mem_singleton.2 rfl) hcs, h⟩
      · rintro ⟨cs, hcs, h⟩
        cases hcs with
        | @cons d _ cs _ hd hcs =>
          cases List.mem_singleton.1 hd
          exact ⟨cs, hcs, h⟩
    · obtain ⟨hopen, hcounts⟩ := hmany hone
      rw [hopen, List.foldl_cons, hcounts]
      -- An option that is tried after the counting could have been counted first.
      have hmove : ∀ (c : Choice) (cs : List Choice) (counts : List Nat),
          cs.foldl addArc (addArc counts c) = addArc (cs.foldl addArc counts) c := by
        intro c cs
        induction cs with
        | nil => exact fun _ => rfl
        | cons d ds ihds =>
          intro counts
          rw [List.foldl_cons, addArc_comm, ihds, List.foldl_cons]
      constructor
      · rintro ⟨cs, hcs, h⟩
        cases hcs with
        | @cons c _ cs _ hc hcs =>
          rw [List.foldl_cons, hmove] at h
          obtain ⟨ds, hds, h⟩ := (ih counts fun k => P (addArc k c)).1 ⟨cs, hcs, h⟩
          refine ⟨c :: ds, .cons hc hds, ?_⟩
          rw [List.foldl_cons, hmove]
          exact h
      · rintro ⟨cs, hcs, h⟩
        cases hcs with
        | @cons c _ cs _ hc hcs =>
          rw [List.foldl_cons, hmove] at h
          obtain ⟨ds, hds, h⟩ := (ih counts fun k => P (addArc k c)).2 ⟨cs, hcs, h⟩
          refine ⟨c :: ds, .cons hc hds, ?_⟩
          rw [List.foldl_cons, hmove]
          exact h

/-- After the counting, the search finds out whether one option for each arc satisfies the
formula. -/
theorem assignable_openChoices_iff (f : Formula) (slots : List TripleConstraint)
    (items : List (List Choice)) :
    assignable f slots (openChoices items) (forcedCounts slots.length items) = true ↔
      ∃ cs, List.Forall₂ (· ∈ ·) cs items ∧
        (f.evaluate slots (countsOf slots.length cs)).holds = true := by
  rw [assignable_iff]
  refine (exists_openChoices_iff items (List.replicate slots.length 0)
    fun counts => (f.evaluate slots counts).holds = true).trans ?_
  simp only [foldl_addArc]

/-- A search that is not refused finds out whether one option for each arc satisfies the formula. -/
theorem decideAssignment_iff {limit : Nat} {f : Formula} {slots : List TripleConstraint}
    {items : List (List Choice)} {b : Bool} (h : decideAssignment limit f slots items = .ok b) :
    b = true ↔ ∃ cs, List.Forall₂ (· ∈ ·) cs items ∧
      (f.evaluate slots (countsOf slots.length cs)).holds = true := by
  unfold decideAssignment at h
  dsimp only at h
  split at h
  · cases h
  · cases h
    exact assignable_openChoices_iff f slots items

/-! ## The number of assignments -/

/-- Once a product is capped, it stays what it is by the cap, whatever factors follow. -/
theorem cappedMul_min (a b : Nat) : cappedMul (min a complexityCap) b = cappedMul a b := by
  unfold cappedMul
  rcases Nat.le_total a complexityCap with h | h
  · rw [Nat.min_eq_left h]
  · rw [Nat.min_eq_right h]
    rcases Nat.eq_zero_or_pos b with rfl | hb
    · rw [Nat.mul_zero, Nat.mul_zero]
    · have hcap : complexityCap ≤ complexityCap * b := Nat.le_mul_of_pos_right _ hb
      have ha : complexityCap * b ≤ a * b := Nat.mul_le_mul_right b h
      rw [Nat.min_eq_right hcap, Nat.min_eq_right (Nat.le_trans hcap ha)]

/-- Capping after each factor comes to the same as capping the product of all. -/
theorem foldl_cappedMul (numbers : List Nat) (start : Nat) :
    numbers.foldl cappedMul (min start complexityCap) =
      min (start * numbers.prod) complexityCap := by
  induction numbers generalizing start with
  | nil => simp
  | cons n rest ih =>
    have hstep : cappedMul (min start complexityCap) n = min (start * n) complexityCap :=
      cappedMul_min start n
    rw [List.foldl_cons, hstep, ih, List.prod_cons, Nat.mul_assoc]

/-- The number at which assignments are no longer counted is not zero. -/
theorem one_le_complexityCap : 1 ≤ complexityCap := by decide +kernel

/-- The complexity is the number of all assignments, capped once. -/
theorem complexity_eq (choices : List (List Choice)) :
    complexity choices = min (choices.map List.length).prod complexityCap := by
  have hfold := foldl_cappedMul (choices.map List.length) 1
  rw [Nat.min_eq_left one_le_complexityCap, Nat.one_mul, List.foldl_map] at hfold
  exact hfold

/-! ## Sharings -/

/-- Each arc that a shape with these slots has to place, with one of its places: the arcs that leave
the node, and of those that reach it the ones that a slot admits. -/
structure Setting.Sharing (w : Setting) (holds : ShapeExpr → Term → Bool) (shape : Shape)
    (slots : List TripleConstraint) (node : Term) (shares : List (Arc × Choice)) : Prop where
  arcs : shares.map (·.1) = outgoingArcs w.listing node ++
    (incomingArcs w.listing node).filter fun arc => slots.any (·.admits holds arc)
  placed : ∀ share ∈ shares, share.2 ∈ shape.places holds slots share.1

/-- The places of an arc depend on which slots admit it only. -/
theorem Shape.places_congr {holds' : ShapeExpr → Term → Bool} {shape : Shape}
    {slots : List TripleConstraint} {arc : Arc}
    (h : ∀ t ∈ slots, t.admits holds arc = t.admits holds' arc) :
    shape.places holds slots arc = shape.places holds' slots arc := by
  have hadmitting : ∀ i, admitting holds arc i slots = admitting holds' arc i slots := by
    induction slots with
    | nil => exact fun _ => rfl
    | cons t rest ih =>
      intro i
      rw [admitting_cons, admitting_cons, h t List.mem_cons_self,
        ih fun t' ht' => h t' (List.mem_cons_of_mem _ ht')]
  unfold Shape.places
  rw [hadmitting]

/-- A way to share out arcs remains one under other findings that admit the same arcs around the
node. -/
theorem Setting.Sharing.congr {w : Setting} {holds' : ShapeExpr → Term → Bool} {shape : Shape}
    {slots : List TripleConstraint} {node : Term} {shares : List (Arc × Choice)}
    (hs : w.Sharing holds shape slots node shares)
    (h : ∀ arc ∈ outgoingArcs w.listing node ++ incomingArcs w.listing node, ∀ t ∈ slots,
      t.admits holds arc = t.admits holds' arc) : w.Sharing holds' shape slots node shares where
  arcs := by
    rw [hs.arcs]
    congr 1
    refine List.filter_congr fun arc harc => ?_
    rw [Bool.eq_iff_iff, List.any_eq_true, List.any_eq_true]
    refine exists_congr fun t => and_congr_right fun ht => ?_
    rw [h arc (List.mem_append_right _ harc) t ht]
  placed share hshare := by
    have harc : share.1 ∈ outgoingArcs w.listing node ++ incomingArcs w.listing node := by
      have hmem : share.1 ∈ shares.map (·.1) := List.mem_map_of_mem hshare
      rw [hs.arcs] at hmem
      rcases List.mem_append.1 hmem with hmem | hmem
      · exact List.mem_append_left _ hmem
      · exact List.mem_append_right _ (List.mem_of_mem_filter hmem)
    rw [← Shape.places_congr (h share.1 harc)]
    exact hs.placed share hshare

/-- Choosing an option for each arc is choosing a place for each arc. -/
theorem exists_shares_iff {places : Arc → List Choice} {arcs : List Arc} {P : List Choice → Prop} :
    (∃ cs, List.Forall₂ (· ∈ ·) cs (arcs.map places) ∧ P cs) ↔
      ∃ shares : List (Arc × Choice), shares.map (·.1) = arcs ∧
        (∀ share ∈ shares, share.2 ∈ places share.1) ∧ P (shares.map (·.2)) := by
  -- The induction is on the arcs, for any condition on the options of the others.
  induction arcs generalizing P with
  | nil =>
    constructor
    · rintro ⟨cs, hcs, h⟩
      cases hcs
      exact ⟨[], rfl, nofun, h⟩
    · rintro ⟨shares, harcs, -, h⟩
      cases List.map_eq_nil_iff.1 harcs
      exact ⟨[], .nil, h⟩
  | cons arc rest ih =>
    constructor
    · rintro ⟨cs, hcs, h⟩
      cases hcs with
      | @cons c _ cs _ hc hcs =>
        obtain ⟨shares, harcs, hplaced, h⟩ := (ih (P := fun cs => P (c :: cs))).1 ⟨cs, hcs, h⟩
        refine ⟨(arc, c) :: shares, congrArg (arc :: ·) harcs, fun share hmem => ?_, h⟩
        rcases List.mem_cons.1 hmem with rfl | hmem
        · exact hc
        · exact hplaced share hmem
    · rintro ⟨shares, harcs, hplaced, h⟩
      cases shares with
      | nil => cases harcs
      | cons share shares =>
        rw [List.map_cons, List.cons.injEq] at harcs
        obtain ⟨harc, harcs⟩ := harcs
        obtain ⟨cs, hcs, h⟩ := (ih (P := fun cs => P (share.2 :: cs))).2
          ⟨shares, harcs, fun s hs => hplaced s (List.mem_cons_of_mem _ hs), h⟩
        refine ⟨share.2 :: cs, .cons ?_ hcs, h⟩
        rw [← harc]
        exact hplaced share List.mem_cons_self

/-- Arcs that leave a node are not inverse. -/
theorem inverse_of_mem_outgoingArcs {g : Graph} {listing : g.Listing} {node : Term} {arc : Arc}
    (h : arc ∈ outgoingArcs listing node) : arc.inverse = false := by
  unfold outgoingArcs at h
  split at h
  · cases h
  · obtain ⟨t, -, rfl⟩ := List.mem_map.1 h
    rfl

/-- Arcs that reach a node are inverse. -/
theorem inverse_of_mem_incomingArcs {g : Graph} {listing : g.Listing} {node : Term} {arc : Arc}
    (h : arc ∈ incomingArcs listing node) : arc.inverse = true := by
  obtain ⟨t, -, rfl⟩ := List.mem_map.1 h
  rfl

/-- The arcs that a shape looks at and that have a place are those that it has to place, if every
outgoing arc has one. -/
theorem Setting.filter_arcsOf (w : Setting) {shape : Shape} {slots : List TripleConstraint}
    {node : Term} (h : ∀ arc ∈ outgoingArcs w.listing node,
      (shape.places holds slots arc).isEmpty = false) :
    (w.arcsOf slots node).filter (fun arc => !(shape.places holds slots arc).isEmpty) =
      outgoingArcs w.listing node ++
        (incomingArcs w.listing node).filter fun arc => slots.any (·.admits holds arc) := by
  have hout : (outgoingArcs w.listing node).filter
      (fun arc => !(shape.places holds slots arc).isEmpty) = outgoingArcs w.listing node := by
    rw [List.filter_eq_self]
    intro arc harc
    rw [h arc harc]
    rfl
  have hfilter : (incomingArcs w.listing node).filter
      (fun arc => !(shape.places holds slots arc).isEmpty) =
        (incomingArcs w.listing node).filter fun arc => slots.any (·.admits holds arc) := by
    refine List.filter_congr fun arc harc => ?_
    rw [Shape.places_isEmpty_of_inverse (inverse_of_mem_incomingArcs harc), Bool.not_not]
  unfold arcsOf
  rw [List.filter_append, hout]
  congr 1
  split
  · exact hfilter
  · next hnone =>
    -- Without an inverse slot nothing admits an incoming arc.
    symm
    rw [List.filter_nil, List.filter_eq_nil_iff]
    intro arc harc hany
    obtain ⟨t, ht, ha⟩ := List.any_eq_true.1 hany
    refine hnone (List.any_eq_true.2 ⟨t, ht, ?_⟩)
    unfold TripleConstraint.admits TripleConstraint.concerns at ha
    simp only [Bool.and_eq_true, decide_eq_true_eq] at ha
    rw [ha.1.1, inverse_of_mem_incomingArcs harc]

/-- Only an outgoing arc can be in the way of a shape by having no place. -/
theorem Setting.any_stuck_arcsOf (w : Setting) (holds : ShapeExpr → Term → Bool) (shape : Shape)
    (slots : List TripleConstraint) (node : Term) :
    ((w.arcsOf slots node).any fun arc => !arc.inverse && (shape.places holds slots arc).isEmpty) =
      (outgoingArcs w.listing node).any fun arc => (shape.places holds slots arc).isEmpty := by
  rw [Bool.eq_iff_iff, List.any_eq_true, List.any_eq_true]
  unfold arcsOf
  constructor
  · rintro ⟨arc, harc, hstuck⟩
    rw [Bool.and_eq_true, Bool.not_eq_true'] at hstuck
    rcases List.mem_append.1 harc with harc | harc
    · exact ⟨arc, harc, hstuck.2⟩
    · split at harc
      · have hinv := inverse_of_mem_incomingArcs harc
        rw [hstuck.1] at hinv
        cases hinv
      · cases harc
  · rintro ⟨arc, harc, hempty⟩
    refine ⟨arc, List.mem_append_left _ harc, ?_⟩
    rw [inverse_of_mem_outgoingArcs harc, hempty]
    rfl

/-- Once it is known what holds at the other ends of arcs, a shape that is compiled does not hold if
an outgoing arc has no place, and otherwise it looks for an assignment of its arcs to their
places. -/
theorem Setting.answer_shapeInquiry_of_compile {w : Setting} (holds : ShapeExpr → Term → Bool)
    {shape : Shape} {f : Formula} {slots : List TripleConstraint}
    (hc : w.schema.compileShape shape = .ok (f, slots)) (node : Term) :
    (w.shapeInquiry shape node).answer holds =
      if (outgoingArcs w.listing node).any fun arc => (shape.places holds slots arc).isEmpty then
        .ok false
      else decideAssignment w.limits.maxSearchSpace f slots
        ((outgoingArcs w.listing node ++
          (incomingArcs w.listing node).filter fun arc => slots.any (·.admits holds arc)).map
            (shape.places holds slots)) := by
  have hanswer : (w.shapeInquiry shape node).answer holds =
      (arcInquiry shape slots (w.arcsOf slots node) >>=
        concludeArcs w.limits.maxSearchSpace f slots).answer holds := by
    rw [shapeInquiry_eq, hc]
    rfl
  rw [hanswer, Inquiry.answer_bind, answer_arcInquiry, w.any_stuck_arcsOf]
  split
  · rfl
  · next hfree =>
    have hplaced : ∀ arc ∈ outgoingArcs w.listing node,
        (shape.places holds slots arc).isEmpty = false := by
      intro arc harc
      rw [Bool.eq_false_iff]
      intro hempty
      exact hfree (List.any_eq_true.2 ⟨arc, harc, hempty⟩)
    rw [w.filter_arcsOf hplaced]
    exact Inquiry.answer_ofExcept holds _

/-- Once it is known what holds at the other ends of arcs, a shape that has an answer holds if and
only if its arcs can be shared out so that its formula holds. -/
theorem Setting.answer_shapeInquiry {w : Setting} {shape : Shape} {node : Term} {b : Bool}
    (h : (w.shapeInquiry shape node).answer holds = .ok b) :
    ∃ f slots, w.schema.compile shape.expression = .ok (f, slots) ∧
      (b = true ↔ ∃ shares, w.Sharing holds shape slots node shares ∧
        (f.evaluate slots (countsOf slots.length (shares.map (·.2)))).holds = true) := by
  cases hc : w.schema.compileShape shape with
  | error failure =>
    rw [shapeInquiry_eq, hc] at h
    cases h
  | ok compiled =>
    obtain ⟨f, slots⟩ := compiled
    refine ⟨f, slots, Schema.compile_of_compileShape hc, ?_⟩
    rw [answer_shapeInquiry_of_compile holds hc] at h
    split at h
    · next hstuck =>
      obtain ⟨arc, harc, hempty⟩ := List.any_eq_true.1 hstuck
      cases h
      refine iff_of_false Bool.false_ne_true ?_
      rintro ⟨shares, hshares, -⟩
      -- The arc without a place goes out, so the sharing has to place it.
      have hmem : arc ∈ shares.map (·.1) := by
        rw [hshares.arcs]
        exact List.mem_append_left _ harc
      obtain ⟨share, hshare, rfl⟩ := List.mem_map.1 hmem
      have hplace := hshares.placed share hshare
      rw [List.isEmpty_iff.1 hempty] at hplace
      cases hplace
    · rw [decideAssignment_iff h, exists_shares_iff]
      constructor
      · rintro ⟨shares, harcs, hplaced, hf⟩
        exact ⟨shares, ⟨harcs, hplaced⟩, hf⟩
      · rintro ⟨shares, hs, hf⟩
        exact ⟨shares, hs.arcs, hs.placed, hf⟩

end ShEx
