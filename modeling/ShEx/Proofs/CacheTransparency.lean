import ShEx.Proofs.Acyclic
import ShEx.Proofs.HeadStart

/-!
# Sessions and single requests

What a session answers to a request is compared with what it would answer if the request was its
first.  An answer that was taken up while a declaration was in progress can rest on what stood for
that one, and is held although the declaration turns out not to hold; so it can change a later
answer (`respond_restsOnProgress`).

Nothing else that a session holds can change an answer: it answers as if the request was its first
if and only if it answers the same without its answers to declarations whose unfolding does not end
(`respond_eq_fresh_iff`).  It does if the request leads to none of them (`Undisturbed`).  Among such
requests are all those whose own unfolding ends, so all under a schema without recursion, and all in
a session whose requests were of this kind.  And it does where declarations in progress turn out to
hold (`Setting.Upholds`).
-/

set_option autoImplicit false

namespace ShEx

open ShEx.Rdf

namespace Setting

variable {w : Setting}

/-! ## Requests -/

/-- The constraints of what a request brings have no number, or belong to the schema. -/
def Proper (w : Setting) : Request → Prop
  | .labelled _ _ => True
  | .expression _ e => e.NumberedIn w.schema

/-- If a request puts a question, the unfolding of it ends. -/
def Unfolds (w : Setting) (q : Request) : Prop :=
  ∀ e node, w.question? q = some (e, node) → ∃ n r, w.unfold n e node = some r

/-- What a proper request puts as its question belongs to the schema, or brings constraints without
numbers. -/
theorem Proper.numberedIn {q : Request} (h : w.Proper q) {e : ShapeExpr} {node : Term}
    (hq : w.question? q = some (e, node)) : e.NumberedIn w.schema := by
  cases q with
  | expression node' e' =>
    cases hq
    exact h
  | labelled node' label =>
    unfold question? at hq
    dsimp only at hq
    split at hq
    · cases hq
    · obtain ⟨e', ho, heq⟩ := Option.map_eq_some_iff.1 hq
      cases heq
      cases label with
      | some label =>
        cases ho
        exact nofun
      | none => exact fun c hc => .inr (Schema.mem_constraints.2 (.inr (.inr ⟨e, ho, hc⟩)))

/-- A request leaves a reliable session reliable. -/
theorem Reliable.respond (hw : WellNumbered w.schema.constraints) {s t : Session} {q : Request}
    {r : Except Failure Bool} (hs : w.Reliable s) (hq : w.Proper q)
    (hr : s.respond w q = some (r, t)) : w.Reliable t := by
  rcases Session.respond_cases hr with ⟨e, node, hquestion, hr⟩ | ⟨-, -, rfl⟩
  · exact hr.reliable hw (hq.numberedIn hquestion) hs
  · exact hs

/-- A request ends with as many declarations in progress as it began with. -/
theorem depth_respond {s t : Session} {q : Request} {r : Except Failure Bool}
    (hr : s.respond w q = some (r, t)) : t.depth = s.depth := by
  rcases Session.respond_cases hr with ⟨e, node, -, hr⟩ | ⟨-, -, rfl⟩
  · exact hr.depth_eq
  · rfl

/-- A session is reliable after any requests. -/
theorem reliable_of_reached (hw : WellNumbered w.schema.constraints) {s : Session}
    (h : s.Reached w w.Proper) : w.Reliable s := by
  induction h with
  | initial => exact .initial
  | after _ hq hr ih => exact ih.respond hw hq hr

/-- Between requests no declaration is in progress. -/
theorem depth_of_reached {P : Request → Prop} {s : Session} (h : s.Reached w P) : s.depth = 0 := by
  induction h with
  | initial => rfl
  | after _ _ hr ih => rw [depth_respond hr, ih]

/-! ## Undisturbed requests -/

/-- A question leads to no declaration that a session has an answer to and whose unfolding does not
end. -/
def Undisturbed (w : Setting) (s : Session) (e : ShapeExpr) (node : Term) : Prop :=
  w.Unending e node → ∀ label index d node', w.schema.find? label = some (index, d) →
    Relation.ReflTransGen w.Draws (e, node) (.ref label, node') →
      s.declarations.answer? index node' = none

/-- What unfolds leads to nothing without an end of unfolding, so that no answer can disturb it. -/
theorem undisturbed_of_unfold {n : Nat} {e : ShapeExpr} {node : Term} {r : Except Failure Bool}
    (h : w.unfold n e node = some r) (s : Session) : w.Undisturbed s e node := by
  intro hu
  rw [hu n] at h
  cases h

/-- Under a schema without recursion no question is disturbed. -/
theorem undisturbed_of_acyclic (h : w.schema.Acyclic) (s : Session) (e : ShapeExpr) (node : Term) :
    w.Undisturbed s e node := by
  obtain ⟨n, r, hn⟩ := exists_unfold h e node
  exact undisturbed_of_unfold hn s

/-- Along questions without an end of unfolding, there is none at the end if there is none at the
beginning. -/
theorem unending_of_draws {x y : ShapeExpr × Term} (h : Relation.ReflTransGen w.Draws x y)
    (hu : w.Unending x.1 x.2) : w.Unending y.1 y.2 := by
  induction h with
  | refl => exact hu
  | tail _ hd _ => cases hd <;> assumption

/-- A session holds only answers that unfolding gives after requests whose unfoldings end. -/
theorem unfolds_of_reached (hw : WellNumbered w.schema.constraints) {s : Session}
    (h : s.Reached w fun q => w.Proper q ∧ w.Unfolds q) : w.Adds .initial s := by
  induction h with
  | initial => exact .refl _
  | after hs hq hr ih =>
    rcases Session.respond_cases hr with ⟨e, node, hquestion, hr⟩ | ⟨-, -, rfl⟩
    · obtain ⟨n, r₀, hn⟩ := hq.2 e node hquestion
      have hrel := reliable_of_reached hw (hs.mono fun _ hq => hq.1)
      exact ih.trans (Returns.of_reliable hw hn (hq.1.numberedIn hquestion) hr hrel).1.2
    · exact ih

/-- In a session whose requests had unfoldings that end, no question is disturbed. -/
theorem undisturbed_of_reached (hw : WellNumbered w.schema.constraints) {s : Session}
    (h : s.Reached w fun q => w.Proper q ∧ w.Unfolds q) (e : ShapeExpr) (node : Term) :
    w.Undisturbed s e node := by
  intro hu label index d node' hl hdraws
  cases hb : s.declarations.answer? index node' with
  | none => rfl
  | some b =>
    have hu' : w.Unending (.ref label) node' := unending_of_draws hdraws hu
    rcases unfolds_of_reached hw h label index d node' b hl hb with hb | ⟨n, hn⟩
    · cases hb
    · rw [hu' n] at hn
      cases hn

/-- With regard to what an undisturbed question leads to, a session leads before a fresh one. -/
theorem Undisturbed.leads {s : Session} {e : ShapeExpr} {node : Term}
    (h : w.Undisturbed s e node) (hs : w.Reliable s) (hdepth : s.depth = 0) :
    w.Leads (fun x => w.Unending e node ∧ Relation.ReflTransGen w.Draws (e, node) x) s
      .initial where
  ahead := hs
  behind := .initial
  depth := hdepth
  held _ _ _ _ _ _ hb := nomatch hb
  same label index d node' hl hp _ := h hp.1 label index d node' hl hp.2

/-- An undisturbed question has the result that it has in a fresh session. -/
theorem Undisturbed.returns (hw : WellNumbered w.schema.constraints) {s u : Session} {e : ShapeExpr}
    {node : Term} {r : Except Failure Bool} (h : w.Undisturbed s e node) (hs : w.Reliable s)
    (hdepth : s.depth = 0) (hnum : e.NumberedIn w.schema) (hr : ¬TooDeep r)
    (hfresh : w.Returns e node .initial r u) : ∃ t, w.Returns e node s r t := by
  have hdrawn : ∀ x y, w.Unending e node ∧ Relation.ReflTransGen w.Draws (e, node) x →
      w.Draws x y → w.Unending e node ∧ Relation.ReflTransGen w.Draws (e, node) y := by
    intro x y hx hxy
    exact ⟨hx.1, hx.2.tail hxy⟩
  obtain ⟨t, ht, -⟩ := hfresh.leads hw hdrawn hr hnum (fun hu => ⟨hu, .refl⟩) (h.leads hs hdepth)
  exact ⟨t, ht⟩

/-! ## Requests where progress is upheld -/

/-- Where declarations in progress hold as they are taken to, a session has only such answers. -/
theorem holdsOpen_of_reached (hw : WellNumbered w.schema.constraints)
    {U : ShapeExpr → Term → Option (Except Failure Bool)} (hU : w.Upholds U) {s : Session}
    (h : s.Reached w w.Proper) : w.HoldsOpen s := by
  induction h with
  | initial => exact .initial
  | after hs hq hr ih =>
    rcases Session.respond_cases hr with ⟨e, node, hquestion, hr⟩ | ⟨-, -, rfl⟩
    · exact (hr.upheld hw hU (hq.numberedIn hquestion) (reliable_of_reached hw hs) ih).2
    · exact ih

/-! ## Two declarations that point at each other -/

/-- The shape that asks for one arc `p` to a node of a declaration. -/
def pointing (label : String) : ShapeExpr :=
  .shape (.ofTriple (.to ⟨"p"⟩ (.ref (.iri ⟨label⟩))))

/-- The shape that points to a declaration puts one question on the circle, since one arc leaves the
node. -/
theorem inquiry_pointing (label : String) :
    Setting.mutual.inquiry (pointing label) (.iri ⟨"n"⟩) =
      .ask (.ref (.iri ⟨label⟩)) (.iri ⟨"n"⟩) .done := by
  refine congrArg (Inquiry.ask (.ref (.iri ⟨label⟩)) (.iri ⟨"n"⟩)) (funext fun b => ?_)
  cases b <;> rfl

/-- At a node without arcs the shape that points to a declaration lacks its arc, and no question is
put. -/
theorem unfold_pointing {node : Term} (h : node ≠ .iri ⟨"n"⟩) (label : String) :
    Setting.mutual.unfold 1 (pointing label) node = some (.ok false) := by
  have harcs : outgoingArcs Setting.mutual.listing node = [] := by
    unfold outgoingArcs
    cases hr : node.resource? with
    | none => rfl
    | some r =>
      have hne : Resource.iri ⟨"n"⟩ ≠ r := by
        rintro rfl
        cases node <;> cases hr
        exact h rfl
      have hnone : circle.withSubject r = [] := by
        show List.filter _ [_] = []
        simp [hne]
      exact congrArg (List.map _) hnone
  have hinq : Setting.mutual.inquiry (pointing label) node = .done false := by
    show Setting.mutual.shapeInquiry _ node = _
    unfold shapeInquiry
    show (arcInquiry _ _ (outgoingArcs Setting.mutual.listing node ++ []) >>= _ : Inquiry Bool) = _
    rw [harcs]
    rfl
  rw [unfold_of_compound rfl, hinq]
  rfl

/-- Where two declarations point at each other along a circle, no unfolding ends. -/
theorem unfold_mutual (n : Nat) : Setting.mutual.unfold n (.ref (.iri ⟨"A"⟩)) (.iri ⟨"n"⟩) = none ∧
    Setting.mutual.unfold n (.ref (.iri ⟨"B"⟩)) (.iri ⟨"n"⟩) = none ∧
    Setting.mutual.unfold n (pointing "A") (.iri ⟨"n"⟩) = none ∧
    Setting.mutual.unfold n (pointing "B") (.iri ⟨"n"⟩) = none := by
  induction n with
  | zero => exact ⟨rfl, rfl, rfl, rfl⟩
  | succ n ih =>
    obtain ⟨ha, hb, hpa, hpb⟩ := ih
    refine ⟨hpb, hpa, ?_, ?_⟩
    · rw [unfold_of_compound rfl, inquiry_pointing, Inquiry.resolve, ha]
    · rw [unfold_of_compound rfl, inquiry_pointing, Inquiry.resolve, hb]

/-- The questions that turn in a circle. -/
def Turning (e : ShapeExpr) (node : Term) : Prop :=
  node = .iri ⟨"n"⟩ ∧ (e = .ref (.iri ⟨"A"⟩) ∨ e = .ref (.iri ⟨"B"⟩) ∨ e = pointing "A" ∨
    e = pointing "B")

open scoped Classical in
/-- Two declarations that point at each other along a circle hold if they are taken to. -/
theorem upholds_mutual :
    Setting.mutual.Upholds fun e node => if Turning e node then some (.ok true) else none where
  unending e node r hr n := by
    split at hr
    · next h =>
      obtain ⟨rfl, rfl | rfl | rfl | rfl⟩ := h
      · exact (unfold_mutual n).1
      · exact (unfold_mutual n).2.1
      · exact (unfold_mutual n).2.2.1
      · exact (unfold_mutual n).2.2.2
    · cases hr
  compound e node r hc hr := by
    split at hr
    · next h =>
      obtain ⟨rfl, rfl | rfl | rfl | rfl⟩ := h
      · cases hc
      · cases hc
      · have ha : Turning (.ref (.iri ⟨"A"⟩)) (.iri ⟨"n"⟩) := ⟨rfl, .inl rfl⟩
        refine ⟨0, ?_⟩
        rw [inquiry_pointing, Inquiry.resolve, if_pos ha]
        exact hr
      · have hb : Turning (.ref (.iri ⟨"B"⟩)) (.iri ⟨"n"⟩) := ⟨rfl, .inr (.inl rfl)⟩
        refine ⟨0, ?_⟩
        rw [inquiry_pointing, Inquiry.resolve, if_pos hb]
        exact hr
    · cases hr
  declared label node index d r hl hr := by
    split at hr
    · next h =>
      obtain ⟨rfl, hlabel⟩ := h
      cases hr
      have hd : d.expression = pointing "A" ∨ d.expression = pointing "B" := by
        rcases hlabel with h | h | h | h
        · cases h
          cases hl
          exact .inr rfl
        · cases h
          cases hl
          exact .inl rfl
        · cases h
        · cases h
      exact if_pos ⟨rfl, .inr (.inr hd)⟩
    · cases hr
  progress label node hu := by
    obtain ⟨index, d, hl, -, hd⟩ := hu.known
    have hmem : label = .iri ⟨"A"⟩ ∨ label = .iri ⟨"B"⟩ := by
      have hdecl := (Schema.mem_of_find? hl).1
      rw [← (Schema.label_of_find? hl).1]
      rcases List.mem_cons.1 hdecl with rfl | hdecl
      · exact .inl rfl
      · rw [List.mem_singleton.1 hdecl]
        exact .inr rfl
    have hnode : node = .iri ⟨"n"⟩ := by
      by_contra hne
      rcases hmem with rfl | rfl
      · cases hl
        cases (unfold_pointing hne "B").symm.trans (hd 1)
      · cases hl
        cases (unfold_pointing hne "A").symm.trans (hd 1)
    subst hnode
    rcases hmem with rfl | rfl
    · exact if_pos ⟨rfl, .inl rfl⟩
    · exact if_pos ⟨rfl, .inr (.inl rfl)⟩

/-- Two declarations that refer to each other, the first of which asks for an arc `q` as well, and
two nodes that are arranged like them, but without that arc. -/
def reciprocal : Setting where
  schema :=
    (Schema.empty.addShape
      ⟨.iri ⟨"A"⟩, false, .shape ⟨false, [], some (.eachOf ⟨[.triple (.to ⟨"p"⟩ (.ref (.iri ⟨"B"⟩))),
        .triple ⟨⟨"q"⟩, false, none, .one, []⟩], none, []⟩), [], [], []⟩⟩).addShape
        ⟨.iri ⟨"B"⟩, false, .shape (.ofTriple (.to ⟨"r"⟩ (.ref (.iri ⟨"A"⟩))))⟩
  graph := .ofList [⟨.iri ⟨"a"⟩, ⟨"p"⟩, .iri ⟨"b"⟩⟩, ⟨.iri ⟨"b"⟩, ⟨"r"⟩, .iri ⟨"a"⟩⟩]
  listing := Graph.asInserted _
  limits := .standard

end Setting

namespace Session

/-- Requests do not change the answer to a later one if that is undisturbed, or if declarations in
progress hold as they are taken to. -/
theorem respond_eq_of_undisturbed {w : Setting} (hw : WellNumbered w.schema.constraints)
    {s t u : Session} (hs : s.Reached w w.Proper) {q : Request} (hq : w.Proper q) {b c : Bool}
    (hb : s.respond w q = some (.ok b, t)) (hc : initial.respond w q = some (.ok c, u))
    (hsafe : ∀ e node, w.question? q = some (e, node) → w.Undisturbed s e node ∨
      ∃ U, w.Upholds U ∧ (w.Unending e node → ∃ r, U e node = some r)) : b = c := by
  have hrel := Setting.reliable_of_reached hw hs
  rw [respond_eq_some_iff] at hb hc
  cases hquestion : w.question? q with
  | none =>
    rw [hquestion] at hb hc
    exact Except.ok.inj (hb.1.trans hc.1.symm)
  | some question =>
    obtain ⟨e, node⟩ := question
    rw [hquestion] at hb hc
    have he := hq.numberedIn hquestion
    have hundisturbed : w.Undisturbed s e node → b = c := by
      intro hun
      obtain ⟨v, hv⟩ := hun.returns hw hrel (Setting.depth_of_reached hs) he (not_tooDeep_ok c) hc
      exact Except.ok.inj (hb.unique hv).1
    rcases hsafe e node hquestion with hun | ⟨U, hU, hdefined⟩
    · exact hundisturbed hun
    · rcases Setting.unending_or_unfolds (w := w) e node with hu | ⟨n, r, hn⟩
      · obtain ⟨r, hr⟩ := hdefined hu
        have hopen := Setting.holdsOpen_of_reached hw hU hs
        have hb' := (hb.upheld hw hU he hrel hopen).1 r hr
        have hc' := (hc.upheld hw hU he .initial .initial).1 r hr
        exact Except.ok.inj (hb'.eq_of_ok.symm.trans hc'.eq_of_ok)
      · exact hundisturbed (Setting.undisturbed_of_unfold hn s)

/-- A session that forgets its answers to declarations without an end of unfolding comes to the
result of a fresh one. -/
theorem respond_withoutOpen_of_reliable {w : Setting} (hw : WellNumbered w.schema.constraints)
    {s u : Session} (hs : w.Reliable s) (hdepth : s.depth = 0) {q : Request} (hq : w.Proper q)
    {r : Except Failure Bool} (hr : ¬TooDeep r) (h : initial.respond w q = some (r, u)) :
    ∃ v, (s.withoutOpen w).respond w q = some (r, v) := by
  simp only [respond_eq_some_iff] at h ⊢
  cases hquestion : w.question? q with
  | none =>
    rw [hquestion] at h
    exact ⟨_, h.1, rfl⟩
  | some question =>
    obtain ⟨e, node⟩ := question
    rw [hquestion] at h
    exact hs.returns_withoutOpen hw hdepth (hq.numberedIn hquestion) hr h

/-- A session that forgets its answers to declarations without an end of unfolding answers what a
fresh one does. -/
theorem respond_withoutOpen {w : Setting} (hw : WellNumbered w.schema.constraints) {s u : Session}
    (hs : s.Reached w w.Proper) {q : Request} (hq : w.Proper q) {c : Bool}
    (hc : initial.respond w q = some (.ok c, u)) :
    ∃ v, (s.withoutOpen w).respond w q = some (.ok c, v) :=
  respond_withoutOpen_of_reliable hw (Setting.reliable_of_reached hw hs)
    (Setting.depth_of_reached hs) hq (not_tooDeep_ok c) hc

/-- What the requests before one have left changes its answer only by the answers to declarations
whose unfolding does not end: the answer is that of a fresh session if and only if it is the same
without them.  It is if the request leads to none of them, or if declarations in progress hold as
they are taken to.  Requests may have failed before; what counts is that both this request and the
same one in a fresh session give an answer. -/
theorem respond_eq_fresh_iff {w : Setting} (hbuilt : w.schema.Built) {s t u : Session}
    (hs : s.Reached w w.Proper) {q : Request} (hq : w.Proper q) {b c : Bool}
    (hb : s.respond w q = some (.ok b, t)) (hc : initial.respond w q = some (.ok c, u)) :
    (b = c ↔ ∃ v, (s.withoutOpen w).respond w q = some (.ok b, v)) ∧
      ((∀ e node, w.question? q = some (e, node) → w.Undisturbed s e node ∨
        ∃ U, w.Upholds U ∧ (w.Unending e node → ∃ r, U e node = some r)) → b = c) := by
  have hw := hbuilt.wellNumbered
  obtain ⟨v, hv⟩ := respond_withoutOpen hw hs hq hc
  refine ⟨⟨?_, ?_⟩, respond_eq_of_undisturbed hw hs hq hb hc⟩
  · rintro rfl
    exact ⟨v, hv⟩
  · rintro ⟨v', hv'⟩
    cases hv.symm.trans hv'
    rfl

/-- A request about a declaration in a circle that holds as it is taken to; then a request about one
that does not hold, in a session that has an answer which rests on it. -/
theorem respond_eq_fresh_iff_afterCircle :
    (∃ s t u : Session, s.Reached .mutual Setting.mutual.Proper ∧
      s.respond .mutual (.labelled (.iri ⟨"n"⟩) (some (.iri ⟨"B"⟩))) = some (.ok true, t) ∧
      initial.respond .mutual (.labelled (.iri ⟨"n"⟩) (some (.iri ⟨"B"⟩))) = some (.ok true, u) ∧
      ∃ v, (s.withoutOpen .mutual).respond .mutual
        (.labelled (.iri ⟨"n"⟩) (some (.iri ⟨"B"⟩))) = some (.ok true, v)) ∧
    ∃ s t u : Session, s.Reached .reciprocal Setting.reciprocal.Proper ∧
      s.respond .reciprocal (.labelled (.iri ⟨"b"⟩) (some (.iri ⟨"B"⟩))) = some (.ok true, t) ∧
      initial.respond .reciprocal (.labelled (.iri ⟨"b"⟩) (some (.iri ⟨"B"⟩))) =
        some (.ok false, u) ∧
      ¬∃ v, (s.withoutOpen .reciprocal).respond .reciprocal
        (.labelled (.iri ⟨"b"⟩) (some (.iri ⟨"B"⟩))) = some (.ok true, v) := by
  constructor
  · have hs : Reached .mutual Setting.mutual.Proper _ :=
      .after .initial (q := .labelled (.iri ⟨"n"⟩) (some (.iri ⟨"A"⟩))) trivial rfl
    obtain ⟨hiff, hsafe⟩ := respond_eq_fresh_iff ((Schema.Built.empty.addShape _).addShape _) hs
      (q := .labelled (.iri ⟨"n"⟩) (some (.iri ⟨"B"⟩))) trivial rfl rfl
    refine ⟨_, _, _, hs, rfl, rfl, hiff.1 (hsafe fun e node hq => ?_)⟩
    cases hq
    exact .inr ⟨_, Setting.upholds_mutual, fun hu => ⟨_, Setting.upholds_mutual.progress _ _ hu⟩⟩
  · have hs : Reached .reciprocal Setting.reciprocal.Proper _ :=
      .after .initial (q := .labelled (.iri ⟨"a"⟩) (some (.iri ⟨"A"⟩))) trivial rfl
    obtain ⟨hiff, -⟩ := respond_eq_fresh_iff ((Schema.Built.empty.addShape _).addShape _) hs
      (q := .labelled (.iri ⟨"b"⟩) (some (.iri ⟨"B"⟩))) trivial rfl rfl
    exact ⟨_, _, _, hs, rfl, rfl, fun hv => Bool.false_ne_true (hiff.2 hv).symm⟩

/-- A request that changes the answer to a later one.  While the first declaration is in progress at
`a`, the second one is answered at `b` as if it held there; it does not, but the answer is kept. -/
theorem respond_restsOnProgress : ∃ s t u : Session, Setting.reciprocal.schema.Built ∧
    initial.respond .reciprocal (.labelled (.iri ⟨"a"⟩) (some (.iri ⟨"A"⟩))) =
      some (.ok false, s) ∧
    s.respond .reciprocal (.labelled (.iri ⟨"b"⟩) (some (.iri ⟨"B"⟩))) = some (.ok true, t) ∧
    initial.respond .reciprocal (.labelled (.iri ⟨"b"⟩) (some (.iri ⟨"B"⟩))) =
      some (.ok false, u) :=
  ⟨_, _, _, (Schema.Built.empty.addShape _).addShape _, rfl, rfl, rfl⟩

end Session

end ShEx
