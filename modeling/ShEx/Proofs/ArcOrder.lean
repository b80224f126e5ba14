import Mathlib.Data.List.Perm.Basic
import ShEx.Proofs.Correctness

/-!
# Arcs in another order

The inquiry of a shape asks about its arcs one after the other.  Its results in two orders of the
arcs are compared, where questions that are asked in both have results that agree (`AgreeUnless`).

Once all arcs have their options, the order does not matter any more (`decideAssignment_perm`).  But
the inquiry ends at the first outgoing arc that has no place, and at the first failure.  So where
one arc has no place and another one has a value expression that fails, the order decides which of
them is met (`torn_of_options`).  That is the only way to an answer in one order and a failure in
the other (`arcs_agree`).
-/

set_option autoImplicit false

namespace ShEx

open ShEx.Rdf

variable {α β : Type}

/-! ## Two results -/

/-- Two results are the same answer or both failures, unless there is a reason why one is an answer
and the other is a failure. -/
def AgreeUnless (reason : Prop) : Except Failure Bool → Except Failure Bool → Prop
  | .ok b, .ok b' => b = b'
  | .error _, .error _ => True
  | .ok _, .error _ => reason
  | .error _, .ok _ => reason

namespace AgreeUnless

variable {reason : Prop}

/-- A result agrees with itself, whatever the reason is. -/
theorem refl (r : Except Failure Bool) : AgreeUnless reason r r := by
  cases r with
  | ok b => rfl
  | error failure => trivial

/-- Agreement does not tell the two results apart. -/
theorem symm {r r' : Except Failure Bool} (h : AgreeUnless reason r r') :
    AgreeUnless reason r' r := by
  cases r with
  | ok b =>
    cases r' with
    | ok b' => exact Eq.symm h
    | error failure' => exact h
  | error failure =>
    cases r' with
    | ok b' => exact h
    | error failure' => trivial

/-- A reason that is implied serves as well. -/
theorem mono {reason' : Prop} {r r' : Except Failure Bool} (h : AgreeUnless reason r r')
    (hreason : reason → reason') : AgreeUnless reason' r r' := by
  cases r with
  | ok b =>
    cases r' with
    | ok b' => exact h
    | error failure' => exact hreason h
  | error failure =>
    cases r' with
    | ok b' => exact hreason h
    | error failure' => trivial

/-- Where there is a reason, any result may stand beside a failure. -/
theorem of_error {r : Except Failure Bool} {failure : Failure} (h : reason) :
    AgreeUnless reason r (.error failure) := by
  cases r with
  | ok b => exact h
  | error failure' => trivial

end AgreeUnless

/-! ## Inquiries in steps -/

namespace Inquiry

variable {eval eval' : ShapeExpr → Term → Option (Except Failure Bool)}

/-- What an inquiry with a continuation ends with. -/
theorem resolve_bind {q : Inquiry α} {f : α → Inquiry β} : (q >>= f).resolve eval =
    match q.resolve eval with
    | none => none
    | some (.ok a) => (f a).resolve eval
    | some (.error failure) => some (.error failure) := by
  induction q with
  | done a => rfl
  | failed failure => rfl
  | ask e node next ih =>
    show (Inquiry.ask e node fun b => (next b).andThen f).resolve eval = _
    rw [resolve, resolve]
    cases eval e node with
    | none => rfl
    | some result =>
      cases result with
      | ok b => exact ih b
      | error failure => rfl

/-- If two inquiries one after the other have an answer, so has the first one, and the second one
with it. -/
theorem resolve_bind_eq_ok {q : Inquiry α} {f : α → Inquiry β} {b : β}
    (h : (q >>= f).resolve eval = some (.ok b)) :
    ∃ a, q.resolve eval = some (.ok a) ∧ (f a).resolve eval = some (.ok b) := by
  rw [resolve_bind] at h
  split at h
  · cases h
  · next a ha => exact ⟨a, ha, h⟩
  · cases h

/-- An inquiry without questions has its result by whatever function answers. -/
theorem resolve_ofExcept (x : Except Failure α) : (ofExcept x).resolve eval = some x := by
  cases x <;> rfl

/-- An inquiry comes to the questions of its continuation after its own. -/
theorem comesTo_bind {q : Inquiry α} {f : α → Inquiry β} {e : ShapeExpr} {node : Term} :
    (q >>= f).ComesTo (AnswersOf eval) e node ↔ q.ComesTo (AnswersOf eval) e node ∨
      ∃ a, q.resolve eval = some (.ok a) ∧ (f a).ComesTo (AnswersOf eval) e node := by
  induction q with
  | done a =>
    constructor
    · exact fun h => .inr ⟨a, rfl, h⟩
    · rintro (h | ⟨a', ha, h⟩)
      · exact h.elim
      · cases ha
        exact h
  | failed failure =>
    constructor
    · exact fun h => h.elim
    · rintro (h | ⟨a', ha, h⟩)
      · exact h.elim
      · cases ha
  | ask e' node' next ih =>
    show (_ ∨ ∃ b, AnswersOf eval e' node' b ∧ ((next b) >>= f).ComesTo _ e node) ↔ _
    simp only [ComesTo, ih]
    constructor
    · rintro (h | ⟨b, hb, h | ⟨a, ha, h⟩⟩)
      · exact .inl (.inl h)
      · exact .inl (.inr ⟨b, hb, h⟩)
      · refine .inr ⟨a, ?_, h⟩
        rw [resolve, show eval e' node' = some (.ok b) from hb]
        exact ha
    · rintro ((h | ⟨b, hb, h⟩) | ⟨a, ha, h⟩)
      · exact .inl h
      · exact .inr ⟨b, hb, .inl h⟩
      · rw [resolve] at ha
        split at ha
        · cases ha
        · next b hb => exact .inr ⟨b, hb, .inr ⟨a, ha, h⟩⟩
        · cases ha

/-- What the questions before come to stays the same under a relation that holds more. -/
theorem ComesTo.mono {A A' : ShapeExpr → Term → Bool → Prop}
    (h : ∀ e node b, A e node b → A' e node b) {q : Inquiry α} {e : ShapeExpr} {node : Term}
    (hq : q.ComesTo A e node) : q.ComesTo A' e node := by
  induction q with
  | done a => exact hq
  | failed failure => exact hq
  | ask e' node' next ih =>
    rcases hq with hq | ⟨b, hb, hq⟩
    · exact .inl hq
    · exact .inr ⟨b, h _ _ _ hb, ih b hq⟩

/-- If an inquiry ends with a conclusion, all questions that it comes to are answered. -/
theorem ComesTo.answered {q : Inquiry α} {a : α} {e : ShapeExpr} {node : Term}
    (h : q.ComesTo (AnswersOf eval) e node) (hq : q.resolve eval = some (.ok a)) :
    ∃ b, eval e node = some (.ok b) := by
  induction q with
  | done a' => exact h.elim
  | failed failure => exact h.elim
  | ask e' node' next ih =>
    rw [resolve] at hq
    split at hq
    · cases hq
    · next b hb =>
      rcases h with ⟨rfl, rfl⟩ | ⟨b', hb', h⟩
      · exact ⟨b, hb⟩
      · cases hb.symm.trans hb'
        exact ih b h hq
    · cases hq

/-- Two functions agree on the questions that two inquiries both come to. -/
def AgreeOn (reason : Prop)
    (eval eval' : ShapeExpr → Term → Option (Except Failure Bool)) (q q' : Inquiry α) : Prop :=
  ∀ e node r r', q.ComesTo (AnswersOf eval) e node → q'.ComesTo (AnswersOf eval') e node →
    eval e node = some r → eval' e node = some r' → AgreeUnless reason r r'

/-- If two functions agree on the questions of two inquiries, they do so the other way round. -/
theorem AgreeOn.symm {reason : Prop} {q q' : Inquiry α} (h : AgreeOn reason eval eval' q q') :
    AgreeOn reason eval' eval q' q :=
  fun e node r r' hc hc' hr hr' => (h e node r' r hc' hc hr' hr).symm

/-- An inquiry has results that agree if that is so of the questions that it comes to with either of
two functions. -/
theorem resolve_agree {reason : Prop} {q : Inquiry Bool} {r r' : Except Failure Bool}
    (hagree : AgreeOn reason eval eval' q q)
    (hr : q.resolve eval = some r) (hr' : q.resolve eval' = some r') : AgreeUnless reason r r' := by
  induction q with
  | done a =>
    cases hr
    cases hr'
    rfl
  | failed failure =>
    cases hr
    cases hr'
    trivial
  | ask e node next ih =>
    rw [resolve] at hr hr'
    -- Both come to the first question, so they go on with the same answer unless one of them fails.
    have hfirst := hagree e node
    split at hr
    · cases hr
    · next b hb =>
      split at hr'
      · cases hr'
      · next b' hb' =>
        have heq : b = b' := hfirst _ _ (.inl ⟨rfl, rfl⟩) (.inl ⟨rfl, rfl⟩) hb hb'
        subst heq
        refine ih b (fun e' node' r₁ r₁' hc hc' => ?_) hr hr'
        exact hagree e' node' r₁ r₁' (.inr ⟨b, hb, hc⟩) (.inr ⟨b, hb', hc'⟩)
      · next failure' hf' =>
        cases hr'
        exact .of_error (hfirst _ _ (.inl ⟨rfl, rfl⟩) (.inl ⟨rfl, rfl⟩) hb hf')
    · next failure hf =>
      cases hr
      split at hr'
      · cases hr'
      · next b' hb' =>
        exact (AgreeUnless.of_error
          (hfirst _ _ (.inl ⟨rfl, rfl⟩) (.inl ⟨rfl, rfl⟩) hf hb')).symm
      · cases hr'
        trivial

end Inquiry

/-! ## The arcs of a shape -/

/-- What holds by the answers of a partial function. -/
def holdsBy (eval : ShapeExpr → Term → Option (Except Failure Bool)) (e : ShapeExpr) (node : Term) :
    Bool :=
  match eval e node with
  | some (.ok b) => b
  | _ => false

section Arcs

variable {eval eval' : ShapeExpr → Term → Option (Except Failure Bool)} {shape : Shape}
  {slots : List TripleConstraint}

/-- What has an answer holds by it. -/
theorem holdsBy_eq {e : ShapeExpr} {node : Term} {b : Bool} (h : eval e node = some (.ok b)) :
    holdsBy eval e node = b := by
  unfold holdsBy
  rw [h]

/-- An inquiry comes to all value expressions of slots that speak about an arc. -/
def Inquiry.Examines (q : Inquiry α) (eval : ShapeExpr → Term → Option (Except Failure Bool))
    (slots : List TripleConstraint) (arc : Arc) : Prop :=
  ∀ t ∈ slots, t.concerns arc → ∀ v, t.value = some v →
    q.ComesTo (AnswersOf eval) v arc.neighbour

/-- Every slot is gone through, so that no value expression of a slot that speaks about the arc is
left out. -/
theorem slotInquiry_examines {arc : Arc} {i : Nat} {eligible : List Choice}
    (h : (slotInquiry arc i slots).resolve eval = some (.ok eligible)) :
    (slotInquiry arc i slots).Examines eval slots arc := by
  induction slots generalizing i eligible with
  | nil =>
    intro t ht
    cases ht
  | cons t rest ih =>
    intro t' ht' hc v hv
    unfold slotInquiry at h ⊢
    split at h
    · next hconcerns =>
      rw [if_pos hconcerns]
      obtain ⟨admitted, hadmitted, h⟩ := Inquiry.resolve_bind_eq_ok h
      obtain ⟨others, hothers, -⟩ := Inquiry.resolve_bind_eq_ok h
      rcases List.mem_cons.1 ht' with rfl | ht'
      · refine Inquiry.comesTo_bind.2 (.inl ?_)
        unfold valueInquiry
        rw [hv]
        exact .inl ⟨rfl, rfl⟩
      · refine Inquiry.comesTo_bind.2 (.inr ⟨admitted, hadmitted, ?_⟩)
        exact Inquiry.comesTo_bind.2 (.inl (ih hothers t' ht' hc v hv))
    · next hconcerns =>
      rw [if_neg hconcerns]
      rcases List.mem_cons.1 ht' with rfl | ht'
      · exact absurd hc hconcerns
      · exact ih h t' ht' hc v hv

/-- The places of an arc by the slots that it is eligible for. -/
theorem places_of_resolve (shape : Shape) {arc : Arc} {eligible : List Choice}
    (h : (slotInquiry arc 0 slots).resolve eval = some (.ok eligible)) :
    eligible ++ (if !arc.inverse && shape.allowsExtra slots arc.predicate then [.extra] else []) =
      shape.places (holdsBy eval) slots arc := by
  have hanswer := Inquiry.answer_of_resolve (fun _ _ _ _ hb => holdsBy_eq hb) h
  rw [answer_slotInquiry] at hanswer
  cases hanswer
  rfl

/-- What becomes of the arcs of a shape, one after the other. -/
theorem arcInquiry_cons (arc : Arc) (rest : List Arc) : arcInquiry shape slots (arc :: rest) =
    slotInquiry arc 0 slots >>= fun eligible =>
      let places := eligible ++
        if !arc.inverse && shape.allowsExtra slots arc.predicate then [.extra] else []
      if !arc.inverse && places.isEmpty then .done none
      else arcInquiry shape slots rest >>= fun items =>
        .done (if places.isEmpty then items else items.map (places :: ·)) := by
  rw [arcInquiry]
  congr 1
  funext eligible
  cases arc.inverse with
  | true => simp [pure]
  | false =>
    cases shape.allowsExtra slots arc.predicate with
    | true => simp [pure]
    | false =>
      cases eligible with
      | nil => rfl
      | cons c cs => simp [pure]

/-- If options of the arcs are found, all arcs have been examined; if not, one that goes out and has
no place. -/
theorem arcInquiry_examines {arcs : List Arc} {options : Option (List (List Choice))}
    (h : (arcInquiry shape slots arcs).resolve eval = some (.ok options)) :
    (options.isSome ∧ ∀ arc ∈ arcs, (arcInquiry shape slots arcs).Examines eval slots arc) ∨
      (options = none ∧ ∃ arc ∈ arcs, arc.inverse = false ∧
        shape.places (holdsBy eval) slots arc = [] ∧
          (arcInquiry shape slots arcs).Examines eval slots arc) := by
  induction arcs generalizing options with
  | nil =>
    cases h
    refine .inl ⟨rfl, fun arc harc => ?_⟩
    cases harc
  | cons arc rest ih =>
    rw [arcInquiry_cons] at h
    obtain ⟨eligible, heligible, h⟩ := Inquiry.resolve_bind_eq_ok h
    have hplaces := places_of_resolve shape heligible
    dsimp only at h
    rw [hplaces] at h
    have hhead : (arcInquiry shape slots (arc :: rest)).Examines eval slots arc := by
      intro t ht hc v hv
      rw [arcInquiry_cons]
      exact Inquiry.comesTo_bind.2 (.inl (slotInquiry_examines heligible t ht hc v hv))
    -- The walk stops at an arc without a place, or goes on with the rest.
    split at h
    · next hstuck =>
      cases h
      rw [Bool.and_eq_true, Bool.not_eq_true', List.isEmpty_iff] at hstuck
      exact .inr ⟨rfl, arc, List.mem_cons_self, hstuck.1, hstuck.2, hhead⟩
    · next hfree =>
      obtain ⟨items, hitems, h⟩ := Inquiry.resolve_bind_eq_ok h
      cases h
      have htail : ∀ arc', (arcInquiry shape slots rest).Examines eval slots arc' →
          (arcInquiry shape slots (arc :: rest)).Examines eval slots arc' := by
        intro arc' hexamines t ht hc v hv
        rw [arcInquiry_cons]
        refine Inquiry.comesTo_bind.2 (.inr ⟨eligible, heligible, ?_⟩)
        dsimp only
        rw [hplaces, if_neg hfree]
        exact Inquiry.comesTo_bind.2 (.inl (hexamines t ht hc v hv))
      rcases ih hitems with ⟨hsome, hall⟩ | ⟨rfl, arc', harc', hinv, hempty, hexamines⟩
      · refine .inl ⟨?_, fun arc' harc' => ?_⟩
        · split
          · exact hsome
          · rwa [Option.isSome_map]
        · rcases List.mem_cons.1 harc' with rfl | harc'
          · exact hhead
          · exact htail arc' (hall arc' harc')
      · refine .inr ⟨?_, arc', List.mem_cons_of_mem _ harc', hinv, hempty, htail arc' hexamines⟩
        split <;> rfl

/-! ## Arcs in another order -/

/-- Whether places can be chosen for the arcs does not depend on their order: the formula only sees
how many arcs each slot has. -/
theorem exists_choices_perm {f : Formula} {items items' : List (List Choice)}
    (h : items.Perm items') (hexists : ∃ cs, List.Forall₂ (· ∈ ·) cs items ∧
      (f.evaluate slots (countsOf slots.length cs)).holds = true) :
    ∃ cs, List.Forall₂ (· ∈ ·) cs items' ∧
      (f.evaluate slots (countsOf slots.length cs)).holds = true := by
  obtain ⟨cs, hcs, hholds⟩ := hexists
  have hcomp : Relation.Comp (List.Forall₂ (· ∈ ·)) List.Perm cs items' := ⟨items, hcs, h⟩
  rw [List.forall₂_comp_perm_eq_perm_comp_forall₂] at hcomp
  obtain ⟨cs', hperm, hcs'⟩ := hcomp
  have hcounts : countsOf slots.length cs = countsOf slots.length cs' :=
    List.map_congr_left fun i _ => hperm.count_eq (.slot i)
  rw [hcounts] at hholds
  exact ⟨cs', hcs', hholds⟩

/-- Whether a search is refused and what it finds out does not depend on the order of arcs. -/
theorem decideAssignment_perm {limit : Nat} {f : Formula} {items items' : List (List Choice)}
    (h : items.Perm items') :
    decideAssignment limit f slots items = decideAssignment limit f slots items' := by
  have hopen : (openChoices items).Perm (openChoices items') := h.filter _
  have hcomplexity : complexity (openChoices items) = complexity (openChoices items') := by
    rw [complexity_eq, complexity_eq, (hopen.map List.length).prod_eq]
  have hassign : assignable f slots (openChoices items) (forcedCounts slots.length items) =
      assignable f slots (openChoices items') (forcedCounts slots.length items') := by
    rw [Bool.eq_iff_iff, assignable_openChoices_iff, assignable_openChoices_iff]
    exact ⟨exists_choices_perm h, exists_choices_perm h.symm⟩
  unfold decideAssignment
  dsimp only
  rw [hopen.isEmpty_eq, hcomplexity, hassign]

/-- The options of arcs by what holds at their other ends. -/
theorem options_of_resolve {arcs : List Arc} {options : Option (List (List Choice))}
    (h : (arcInquiry shape slots arcs).resolve eval = some (.ok options)) : options =
      if arcs.any fun arc => !arc.inverse && (shape.places (holdsBy eval) slots arc).isEmpty
      then none
      else some ((arcs.filter fun arc => !(shape.places (holdsBy eval) slots arc).isEmpty).map
        (shape.places (holdsBy eval) slots)) := by
  have hanswer := Inquiry.answer_of_resolve (fun _ _ _ _ hb => holdsBy_eq hb) h
  rw [answer_arcInquiry] at hanswer
  exact (Except.ok.inj hanswer).symm

variable {arcs arcs' : List Arc} {reason : Prop}

/-- An arc that is examined in two orders has the same places in both. -/
theorem places_agree
    (hagree : Inquiry.AgreeOn reason eval eval' (arcInquiry shape slots arcs)
      (arcInquiry shape slots arcs'))
    {options options' : Option (List (List Choice))}
    (h : (arcInquiry shape slots arcs).resolve eval = some (.ok options))
    (h' : (arcInquiry shape slots arcs').resolve eval' = some (.ok options')) {arc : Arc}
    (hexamines : (arcInquiry shape slots arcs).Examines eval slots arc)
    (hexamines' : (arcInquiry shape slots arcs').Examines eval' slots arc) :
    shape.places (holdsBy eval) slots arc = shape.places (holdsBy eval') slots arc := by
  refine Shape.places_congr fun t ht => Setting.admits_congr fun hc v hv => ?_
  have hcomes := hexamines t ht hc v hv
  have hcomes' := hexamines' t ht hc v hv
  obtain ⟨b, hb⟩ := hcomes.answered h
  obtain ⟨b', hb'⟩ := hcomes'.answered h'
  rw [holdsBy_eq hb, holdsBy_eq hb']
  exact hagree v arc.neighbour _ _ hcomes hcomes' hb hb'

/-- Options that are found in one order are found in another one. -/
theorem isSome_of_options (hperm : arcs.Perm arcs')
    (hagree : Inquiry.AgreeOn reason eval eval' (arcInquiry shape slots arcs)
      (arcInquiry shape slots arcs'))
    {options options' : Option (List (List Choice))}
    (h : (arcInquiry shape slots arcs).resolve eval = some (.ok options))
    (h' : (arcInquiry shape slots arcs').resolve eval' = some (.ok options'))
    (hsome : options.isSome) : options'.isSome := by
  rcases arcInquiry_examines h' with ⟨hsome', -⟩ | ⟨-, arc, harc, hinv, hempty, hexamines'⟩
  · exact hsome'
  -- The arc without a place was examined in the other order too, and had none there.
  · rcases arcInquiry_examines h with ⟨-, hall⟩ | ⟨rfl, -⟩
    · have harc := hperm.mem_iff.2 harc
      have hplaces := places_agree hagree h h' (hall arc harc) hexamines'
      rw [hempty] at hplaces
      have hstuck : arcs.any (fun arc =>
          !arc.inverse && (shape.places (holdsBy eval) slots arc).isEmpty) = true := by
        refine List.any_eq_true.2 ⟨arc, harc, ?_⟩
        rw [hinv, hplaces]
        rfl
      rw [options_of_resolve h, if_pos hstuck] at hsome
      cases hsome
    · cases hsome

/-- Options that are found in two orders are the same but for their order. -/
theorem options_perm (hperm : arcs.Perm arcs')
    (hagree : Inquiry.AgreeOn reason eval eval' (arcInquiry shape slots arcs)
      (arcInquiry shape slots arcs'))
    {items items' : List (List Choice)}
    (h : (arcInquiry shape slots arcs).resolve eval = some (.ok (some items)))
    (h' : (arcInquiry shape slots arcs').resolve eval' = some (.ok (some items'))) :
    items.Perm items' := by
  rcases arcInquiry_examines h with ⟨-, hall⟩ | ⟨hnone, -⟩
  · rcases arcInquiry_examines h' with ⟨-, hall'⟩ | ⟨hnone', -⟩
    · have hplaces : ∀ arc ∈ arcs',
          shape.places (holdsBy eval) slots arc = shape.places (holdsBy eval') slots arc :=
        fun arc harc =>
          places_agree hagree h h' (hall arc (hperm.mem_iff.2 harc)) (hall' arc harc)
      have hitems := options_of_resolve h
      have hitems' := options_of_resolve h'
      split at hitems
      · cases hitems
      split at hitems'
      · cases hitems'
      cases hitems
      cases hitems'
      refine ((hperm.filter _).map _).trans (.of_eq ?_)
      have hfilter : arcs'.filter (fun arc => !(shape.places (holdsBy eval) slots arc).isEmpty) =
          arcs'.filter fun arc => !(shape.places (holdsBy eval') slots arc).isEmpty :=
        List.filter_congr fun arc harc => by rw [hplaces arc harc]
      rw [hfilter]
      exact List.map_congr_left fun arc harc => hplaces arc (List.mem_of_mem_filter harc)
    · cases hnone'
  · cases hnone

/-! ## Where the order decides -/

/-- An outgoing arc has no place by some findings: the shape does not allow it beside the slots, and
each slot that speaks about it has a value expression that does not hold at the other end. -/
structure Shape.Strands (Y : ShapeExpr → Term → Except Failure Bool → Prop) (shape : Shape)
    (slots : List TripleConstraint) (arc : Arc) : Prop where
  outgoing : arc.inverse = false
  beside : shape.allowsExtra slots arc.predicate = false
  rejected : ∀ t ∈ slots, t.concerns arc → ∃ v, t.value = some v ∧ Y v arc.neighbour (.ok false)

/-- By some findings, a slot that speaks about an arc has a value expression that fails at the other
end. -/
def FailsAlong (Y : ShapeExpr → Term → Except Failure Bool → Prop) (slots : List TripleConstraint)
    (arc : Arc) : Prop :=
  ∃ t ∈ slots, t.concerns arc ∧ ∃ v failure, t.value = some v ∧
    Y v arc.neighbour (.error failure)

variable {Y Y' : ShapeExpr → Term → Except Failure Bool → Prop}

/-- An outgoing arc without a place is stranded if its value expressions were all answered. -/
theorem strands_of_places (hY : ∀ v m r, eval v m = some r → Y v m r) {arc : Arc}
    (hinv : arc.inverse = false) (hempty : shape.places (holdsBy eval) slots arc = [])
    (hanswered : ∀ t ∈ slots, t.concerns arc → ∀ v, t.value = some v →
      ∃ b, eval v arc.neighbour = some (.ok b)) : shape.Strands Y slots arc := by
  have hnone : ∀ c, c ∉ shape.places (holdsBy eval) slots arc := by
    rw [hempty]
    exact fun c => List.not_mem_nil
  refine ⟨hinv, ?_, fun t ht hc => ?_⟩
  · by_contra hbeside
    exact hnone .extra (Shape.mem_places.2 (.inr ⟨rfl, hinv, by simpa using hbeside⟩))
  · have hnot : ¬t.admits (holdsBy eval) arc := by
      intro hadmits
      obtain ⟨i, hi⟩ := List.mem_iff_getElem?.1 ht
      exact hnone (.slot i) (Shape.mem_places.2 (.inl ⟨i, t, hi, hadmits, rfl⟩))
    unfold TripleConstraint.admits at hnot
    rw [hc, Bool.true_and] at hnot
    cases hv : t.value with
    | none =>
      rw [hv] at hnot
      exact absurd rfl hnot
    | some v =>
      obtain ⟨b, hb⟩ := hanswered t ht hc v hv
      rw [hv, Option.all_some, holdsBy_eq hb, Bool.not_eq_true] at hnot
      rw [hnot] at hb
      exact ⟨v, rfl, hY _ _ _ hb⟩

/-- If options are looked for with success in one order and with a failure in another one, there is
an arc without a place beside one with a value expression that fails. -/
theorem torn_of_options (hY : ∀ v m r, eval v m = some r → Y v m r)
    (hY' : ∀ v m r, eval' v m = some r → Y' v m r) (hperm : arcs.Perm arcs')
    (hagree : Inquiry.AgreeOn reason eval eval' (arcInquiry shape slots arcs)
      (arcInquiry shape slots arcs'))
    {options : Option (List (List Choice))} {failure : Failure}
    (h : (arcInquiry shape slots arcs).resolve eval = some (.ok options))
    (h' : (arcInquiry shape slots arcs').resolve eval' = some (.error failure)) :
    reason ∨ ((∃ arc ∈ arcs, shape.Strands Y slots arc) ∧
      ∃ arc ∈ arcs', FailsAlong Y' slots arc) := by
  rcases Inquiry.failure_of_resolve h' with hfails | ⟨v, m, hcomes', hfailure⟩
  · exact (not_fails_arcInquiry hfails).elim
  obtain ⟨arc', harc', t, ht, hc, hv, rfl⟩ := mentions_arcInquiry hcomes'.mentions
  rcases arcInquiry_examines h with ⟨-, hall⟩ | ⟨-, arc, harc, hinv, hempty, hexamines⟩
  · have hcomes := hall arc' (hperm.mem_iff.2 harc') t ht hc v hv
    obtain ⟨b, hb⟩ := hcomes.answered h
    exact .inl (hagree v _ _ _ hcomes hcomes' hb hfailure)
  · have hstrands := strands_of_places hY hinv hempty fun t ht hc v hv =>
      (hexamines t ht hc v hv).answered h
    exact .inr ⟨⟨arc, harc, hstrands⟩, arc', harc', t, ht, hc, v, failure, hv, hY' _ _ _ hfailure⟩

/-- In two orders of its arcs a shape comes to results that agree. -/
theorem arcs_agree {limit : Nat} {f : Formula} (hperm : arcs.Perm arcs')
    (hagree : Inquiry.AgreeOn reason eval eval' (arcInquiry shape slots arcs)
      (arcInquiry shape slots arcs'))
    (htorn : ∀ {options failure},
      (arcInquiry shape slots arcs).resolve eval = some (.ok options) →
        (arcInquiry shape slots arcs').resolve eval' = some (.error failure) → reason)
    (htorn' : ∀ {options failure},
      (arcInquiry shape slots arcs').resolve eval' = some (.ok options) →
        (arcInquiry shape slots arcs).resolve eval = some (.error failure) → reason)
    {r r' : Except Failure Bool}
    (hr : (arcInquiry shape slots arcs >>= concludeArcs limit f slots).resolve eval = some r)
    (hr' : (arcInquiry shape slots arcs' >>= concludeArcs limit f slots).resolve eval' = some r') :
    AgreeUnless reason r r' := by
  -- Both orders find options, or one of them fails and the shape is torn.
  rw [Inquiry.resolve_bind] at hr hr'
  split at hr
  · cases hr
  · next options h =>
    split at hr'
    · cases hr'
    · next options' h' =>
      have hsome := isSome_of_options hperm hagree h h'
      have hsome' := isSome_of_options hperm.symm hagree.symm h' h
      cases options with
      | none =>
        cases options' with
        | none =>
          cases hr
          cases hr'
          rfl
        | some items' => cases hsome' rfl
      | some items =>
        cases options' with
        | none => cases hsome rfl
        | some items' =>
          rw [concludeArcs, Inquiry.resolve_ofExcept] at hr hr'
          cases hr
          cases hr'
          rw [decideAssignment_perm (options_perm hperm hagree h h')]
          exact .refl _
    · next failure' h' =>
      cases hr'
      exact .of_error (htorn h h')
  · next failure h =>
    cases hr
    split at hr'
    · cases hr'
    · next options' h' => exact (AgreeUnless.of_error (htorn' h' h)).symm
    · cases hr'
      trivial

end Arcs

end ShEx
