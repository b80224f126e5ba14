import ShEx.Proofs.CacheTransparency
import ShEx.Proofs.Failures

/-!
# Sessions answer what nodes conform to

Under a schema without recursion and without unsupported parts, each request has one meaning
(`Setting.Means`).  A session answers it with this meaning, whatever it was asked before and whether
or not it gave answers then, or it does not answer it for an excuse (`respond_conforms`).

Unfolding is between the two: where it gives an answer, that is what the node conforms to
(`conforms_of_unfold`), and a session gives what unfolding does.
-/

set_option autoImplicit false

namespace ShEx

open ShEx.Rdf

variable {α : Type}

/-! ## From unfolding to meaning -/

/-- The conclusion of an inquiry whose questions are answered as it is known is what is known to
follow. -/
theorem Inquiry.answer_of_resolve {eval : ShapeExpr → Term → Option (Except Failure Bool)}
    {holds : ShapeExpr → Term → Bool} {q : Inquiry α} {a : α}
    (hq : ∀ e node b, q.Mentions e node → eval e node = some (.ok b) → holds e node = b)
    (h : q.resolve eval = some (.ok a)) : q.answer holds = .ok a := by
  induction q with
  | done a' =>
    cases h
    rfl
  | failed failure => cases h
  | ask e node next ih =>
    rw [resolve] at h
    cases he : eval e node with
    | none =>
      rw [he] at h
      cases h
    | some result =>
      rw [he] at h
      cases result with
      | error failure => cases h
      | ok b =>
        rw [answer, hq e node b (.inl ⟨rfl, rfl⟩) he]
        exact ih b (fun e' node' b' hm => hq e' node' b' (.inr ⟨b, hm⟩)) h

/-- An inquiry that asks about operands up to the first answer `c` concludes `c` if there is one. -/
theorem resolve_upTo {eval : ShapeExpr → Term → Option (Except Failure Bool)} {node : Term}
    {q : List ShapeExpr → Inquiry Bool} {c : Bool} (hnil : q [] = .done !c)
    (hcons : ∀ e rest, q (e :: rest) = .ask e node fun b => if b = c then .done c else q rest)
    {operands : List ShapeExpr} {b : Bool} (h : (q operands).resolve eval = some (.ok b)) :
    (b = c ∧ ∃ e ∈ operands, eval e node = some (.ok c)) ∨
      (b = !c ∧ ∀ e ∈ operands, eval e node = some (.ok !c)) := by
  induction operands with
  | nil =>
    rw [hnil] at h
    cases h
    exact .inr ⟨rfl, nofun⟩
  | cons e rest ih =>
    rw [hcons, Inquiry.resolve] at h
    split at h
    · cases h
    · next b' he =>
      split at h
      · next hb' =>
        cases h
        rw [hb'] at he
        exact .inl ⟨rfl, e, List.mem_cons_self, he⟩
      · next hb' =>
        rw [Bool.eq_not_of_ne hb'] at he
        rcases ih h with ⟨hb, e', hmem, he'⟩ | ⟨hb, hall⟩
        · exact .inl ⟨hb, e', List.mem_cons_of_mem _ hmem, he'⟩
        · refine .inr ⟨hb, fun e' hmem => ?_⟩
          rcases List.mem_cons.1 hmem with rfl | hmem
          · exact he
          · exact hall e' hmem
    · cases h

/-- A disjunction that is answered `true` has an operand that is, and one that is answered `false`
has none; operands behind the one that settles it need no answer. -/
theorem resolve_anyInquiry {eval : ShapeExpr → Term → Option (Except Failure Bool)} {node : Term}
    {operands : List ShapeExpr} {b : Bool}
    (h : (anyInquiry node operands).resolve eval = some (.ok b)) :
    (b = true ∧ ∃ e ∈ operands, eval e node = some (.ok true)) ∨
      (b = false ∧ ∀ e ∈ operands, eval e node = some (.ok false)) := by
  refine resolve_upTo (c := true) rfl (fun e rest => ?_) h
  refine congrArg (Inquiry.ask e node) (funext fun b => ?_)
  cases b <;> rfl

/-- A conjunction that is answered `false` has an operand that is, and one that is answered `true`
has none; operands behind the one that settles it need no answer. -/
theorem resolve_allInquiry {eval : ShapeExpr → Term → Option (Except Failure Bool)} {node : Term}
    {operands : List ShapeExpr} {b : Bool}
    (h : (allInquiry node operands).resolve eval = some (.ok b)) :
    (b = false ∧ ∃ e ∈ operands, eval e node = some (.ok false)) ∨
      (b = true ∧ ∀ e ∈ operands, eval e node = some (.ok true)) := by
  refine resolve_upTo (c := false) rfl (fun e rest => ?_) h
  refine congrArg (Inquiry.ask e node) (funext fun b => ?_)
  cases b <;> rfl

namespace Setting

variable {w : Setting}

/-- Where unfolding gives an answer, it is what the node conforms to. -/
theorem conforms_of_unfold (hacyclic : w.schema.Acyclic) {all : List ShapeExpr}
    (hall : w.schema.Closed all) (hplain : ∀ p ∈ all, p.Plain w.limits.maxRegexLength) {n : Nat}
    {e : ShapeExpr} {node : Term} {b : Bool} (h : w.unfold n e node = some (.ok b))
    (he : e ∈ all) : w.Conforms e node b := by
  -- The induction is on the depth; every kind of expression has a constructor for each answer.
  induction n generalizing e node b with
  | zero => cases h
  | succ n ih =>
    have hchild : ∀ {c : ShapeExpr} {b : Bool}, c ∈ e.children →
        w.unfold n c node = some (.ok b) → w.Conforms c node b :=
      fun hc h => ih h (hall.embeds e _ (.child hc) he)
    cases e with
    | or operands =>
      rw [unfold_of_compound rfl] at h
      rcases resolve_anyInquiry h with ⟨rfl, e, hmem, htrue⟩ | ⟨rfl, hfalse⟩
      · exact .or_true hmem (hchild hmem htrue)
      · exact .or_false fun e hmem => hchild hmem (hfalse e hmem)
    | and operands =>
      rw [unfold_of_compound rfl] at h
      rcases resolve_allInquiry h with ⟨rfl, e, hmem, hfalse⟩ | ⟨rfl, htrue⟩
      · exact .and_false hmem (hchild hmem hfalse)
      · exact .and_true fun e hmem => hchild hmem (htrue e hmem)
    | not operand =>
      rw [unfold_of_compound rfl] at h
      have h : (Inquiry.ask operand node fun b => .done !b).resolve (w.unfold n) =
          some (.ok b) := h
      rw [Inquiry.resolve] at h
      split at h
      · cases h
      · next c hc =>
        cases h
        exact .not (hchild (List.mem_singleton.2 rfl) hc)
      · cases h
    | node c => exact .constraint (Option.some.inj h)
    | shape shape =>
      rw [unfold_of_compound rfl] at h
      have hanswer : (w.shapeInquiry shape node).answer w.conforming = .ok b := by
        refine Inquiry.answer_of_resolve (fun v m c hm hc => ?_) h
        have hm : (w.inquiry (.shape shape) node).Mentions v m := hm
        exact (ih hc (hall.embeds _ v (embeds_of_mentions rfl hm).1 he)).conforming_eq
      obtain ⟨f, slots, hcomp, hiff⟩ := answer_shapeInquiry hanswer
      have hf := Schema.expandsTo_of_compile hcomp
      refine .shape hf (fun arc _ t ht _ v hv => conforms_conforming ?_) hiff
      exact exists_conforms hacyclic hall hplain (hall.embeds _ v (hf.embeds ht hv) he) _
    | external =>
      rw [unfold_of_compound rfl] at h
      cases h
    | ref label =>
      cases hl : w.schema.find? label with
      | none =>
        rw [unfold, hl] at h
        cases h
        exact .unknown hl
      | some entry =>
        obtain ⟨index, d⟩ := entry
        rw [unfold_of_known hl] at h
        split at h
        · cases h
        · exact .known hl (ih h (hall.declared d (Schema.mem_of_find? hl).1))

/-- Under a schema without recursion every evaluation returns. -/
theorem exists_returns (h : w.schema.Acyclic) (e : ShapeExpr) (node : Term) (s : Session) :
    ∃ r t, w.Returns e node s r t := by
  have hback : ¬w.ComesBack ⟨e, node, s⟩ := not_comesBack h.not_valuesUse _
  obtain ⟨r, t, hr⟩ := exists_validateExpr_of_not_comesBack hback
  exact ⟨r, t, Session.validateExpr_eq_some_iff.1 hr⟩

/-- What an evaluation returns is what the node conforms to, or an excuse. -/
theorem Returns.conforms (hw : WellNumbered w.schema.constraints) (hacyclic : w.schema.Acyclic)
    (hsupported : w.schema.Supported w.limits.maxRegexLength) {all : List ShapeExpr}
    (hall : w.schema.Closed all) (hplain : ∀ p ∈ all, p.Plain w.limits.maxRegexLength)
    {e : ShapeExpr} (hmem : e ∈ all) (he : e.NumberedIn w.schema) {node : Term} {s t : Session}
    {r : Except Failure Bool} (h : w.Returns e node s r t) (hs : w.Reliable s) :
    (∃ b, r = .ok b ∧ w.Conforms e node b) ∨ ∃ failure, r = .error failure ∧ w.Excuse failure := by
  obtain ⟨n, r₀, hn⟩ := exists_unfold hacyclic e node
  obtain ⟨⟨hres, -⟩, -⟩ := Returns.of_reliable hw hn he h hs
  rcases hres with rfl | ⟨depth, rfl⟩
  · cases r with
    | ok b => exact .inl ⟨b, rfl, conforms_of_unfold hacyclic hall hplain hn hmem⟩
    | error failure =>
      exact .inr ⟨failure, rfl, excuse_of_unfold hacyclic hsupported hall hplain hn hmem⟩
  · exact .inr ⟨_, rfl, .tooDeep depth⟩

/-! ## Requests -/

/-- The meaning of a request: what the node conforms to, and `false` if no question is put. -/
def Means (w : Setting) (q : Request) (b : Bool) : Prop :=
  match w.question? q with
  | some (e, node) => w.Conforms e node b
  | none => b = false

/-- A request brings nothing that is not supported, and no constraint with a number of its own. -/
def Admits (w : Setting) : Request → Prop
  | .labelled _ _ => True
  | .expression _ e => e.Supported w.limits.maxRegexLength ∧ e.NumberedIn w.schema

/-- A request that brings no constraint with a number of its own is proper. -/
theorem Admits.proper {q : Request} (h : w.Admits q) : w.Proper q := by
  cases q with
  | labelled node label => trivial
  | expression node e => exact h.2

/-- The question of a request has no unsupported parts. -/
theorem Admits.supported (hs : w.schema.Supported w.limits.maxRegexLength) {q : Request}
    (h : w.Admits q) {e : ShapeExpr} {node : Term} (hq : w.question? q = some (e, node)) :
    e.Supported w.limits.maxRegexLength := by
  cases q with
  | expression node' e' =>
    cases hq
    exact h.1
  | labelled node' label =>
    unfold question? at hq
    dsimp only at hq
    split at hq
    · cases hq
    · obtain ⟨e', ho, heq⟩ := Option.map_eq_some_iff.1 hq
      cases heq
      cases label with
      | some label =>
        cases ho
        intro p hp
        rw [ShapeExpr.parts_eq] at hp
        cases List.mem_singleton.1 hp
        trivial
      | none =>
        have ho : w.schema.start = some e := ho
        refine fun p hp => hs.expressions p (List.mem_append_right _ ?_)
        rw [ho]
        exact hp

/-- A request that puts no question has the answer `false`. -/
theorem standing_eq (hs : w.schema.Supported w.limits.maxRegexLength) :
    w.standing = .ok false := by
  unfold standing refusal?
  rw [hs.imports, hs.startActs]
  rfl

/-! ## Two layers of declarations -/

/-- A declaration that asks for an arc `p` to a node of another one, which is about IRIs. -/
def layered : Setting where
  schema :=
    (Schema.empty.addShape
      ⟨.iri ⟨"A"⟩, false, .shape (.ofTriple (.to ⟨"p"⟩ (.ref (.iri ⟨"B"⟩))))⟩).addShape
        ⟨.iri ⟨"B"⟩, false, .node ⟨some .iri, none, [], [], [], none⟩⟩
  graph := circle
  listing := circle.asInserted
  limits := .standard

/-- The one reference of this schema goes from the first declaration to the second one. -/
theorem layered_acyclic : layered.schema.Acyclic := by
  have hstep : ∀ r r', layered.schema.RefersTo r r' →
      r ≠ .shape (.iri ⟨"B"⟩) ∧ r' = .shape (.iri ⟨"B"⟩) := by
    intro r r' h
    cases h with
    | tripleExpr hl _ => cases hl
    | @shape label index d _ hl hr =>
      have hd := (Schema.mem_of_find? hl).1
      rcases List.mem_cons.1 hd with rfl | hd
      · refine ⟨?_, List.mem_singleton.1 hr⟩
        intro hb
        exact absurd ((Schema.label_of_find? hl).1.trans (Reference.shape.inj hb)) (by decide)
      · rw [List.mem_singleton.1 hd] at hr
        cases hr
  intro r h
  obtain ⟨r₁, hfirst, -⟩ := Relation.TransGen.head'_iff.1 h
  obtain ⟨r₂, -, hlast⟩ := Relation.TransGen.tail'_iff.1 h
  exact (hstep r r₁ hfirst).1 (hstep r₂ r hlast).2

/-- Nothing in this schema is unsupported, neither in the declarations nor in the value
expression. -/
theorem layered_supported : layered.schema.Supported layered.limits.maxRegexLength where
  imports := rfl
  startActs := rfl
  concrete := by
    intro d hd
    rcases List.mem_cons.1 hd with rfl | hd
    · rfl
    · rw [List.mem_singleton.1 hd]
  expressions := by
    have hexpressions : layered.schema.expressions =
        [.shape (.ofTriple (.to ⟨"p"⟩ (.ref (.iri ⟨"B"⟩)))), .ref (.iri ⟨"B"⟩),
          .node ⟨some .iri, none, [], [], [], some 0⟩] := by
      show ShapeExpr.parts _ ++ (ShapeExpr.parts _ ++ []) ++ [] ++ [] = _
      simp [ShapeExpr.parts_eq, ShapeExpr.children, Shape.triples, Shape.ofTriple,
        TripleConstraint.to, TripleExpr.triples]
      rfl
    rw [hexpressions]
    intro e he
    simp only [List.mem_cons, List.not_mem_nil, or_false] at he
    rcases he with rfl | rfl | rfl
    · refine ⟨rfl, rfl, rfl, fun te hte => ?_⟩
      cases hte
      exact .triple rfl
    · trivial
    · intro p hp
      cases hp
  tripleExpressions := by
    intro label te hte
    cases hte

end Setting

namespace Session

/-- Under a schema without recursion and without unsupported parts, in a session that was asked for
nothing else, each request has one meaning.  The request is answered with its meaning unless there
is an excuse. -/
theorem respond_conforms {w : Setting} (hbuilt : w.schema.Built)
    (hsupported : w.schema.Supported w.limits.maxRegexLength) (hacyclic : w.schema.Acyclic)
    {s : Session} (hs : s.Reached w w.Admits) {q : Request} (hq : w.Admits q) :
    ∃ b, (∀ b', w.Means q b' ↔ b' = b) ∧ ∃ r t, s.respond w q = some (r, t) ∧
      (r = .ok b ∨ ∃ failure, r = .error failure ∧ w.Excuse failure) := by
  have hw := hbuilt.wellNumbered
  have hrel := Setting.reliable_of_reached hw (hs.mono fun _ hq => hq.proper)
  cases hquestion : w.question? q with
  | none =>
    refine ⟨false, fun b' => ?_, .ok false, s, ?_, .inl rfl⟩
    · unfold Setting.Means
      rw [hquestion]
    · rw [respond_eq_some_iff, hquestion]
      exact ⟨(Setting.standing_eq hsupported).symm, rfl⟩
  | some question =>
    obtain ⟨e, node⟩ := question
    have hsup := hq.supported hsupported hquestion
    have hall := w.schema.closed_parts e
    have hmem : e ∈ e.parts ++ w.schema.expressions := List.mem_append_left _ e.mem_parts_self
    have hplain : ∀ p ∈ e.parts ++ w.schema.expressions, p.Plain w.limits.maxRegexLength :=
      fun p hp => (List.mem_append.1 hp).elim (hsup p) (hsupported.expressions p)
    obtain ⟨b, hb⟩ := Setting.exists_conforms hacyclic hall hplain hmem node
    refine ⟨b, fun b' => ?_, ?_⟩
    · unfold Setting.Means
      rw [hquestion]
      constructor
      · exact fun hb' => hb'.unique hb
      · rintro rfl
        exact hb
    · obtain ⟨r, t, hr⟩ := Setting.exists_returns hacyclic e node s
      refine ⟨r, t, ?_, ?_⟩
      · rw [respond_eq_some_iff, hquestion]
        exact hr
      · have he := hq.proper.numberedIn hquestion
        rcases hr.conforms hw hacyclic hsupported hall hplain hmem he hrel with ⟨c, rfl, hc⟩ | hf
        · exact .inl (congrArg Except.ok (hc.unique hb))
        · exact .inr hf

/-- A request about a declaration after one about the declaration that it refers to. -/
theorem respond_conforms_layered :
    ∃ s : Session, s.Reached .layered Setting.layered.Admits ∧
      ∃ b, (∀ b', Setting.layered.Means (.labelled (.iri ⟨"n"⟩) (some (.iri ⟨"A"⟩))) b' ↔ b' = b) ∧
        ∃ r t, s.respond .layered (.labelled (.iri ⟨"n"⟩) (some (.iri ⟨"A"⟩))) = some (r, t) ∧
          (r = .ok b ∨ ∃ failure, r = .error failure ∧ Setting.layered.Excuse failure) := by
  have hs : Reached .layered Setting.layered.Admits _ :=
    .after .initial (q := .labelled (.iri ⟨"n"⟩) (some (.iri ⟨"B"⟩))) trivial rfl
  have hbuilt : Setting.layered.schema.Built := (Schema.Built.empty.addShape _).addShape _
  exact ⟨_, hs,
    respond_conforms hbuilt Setting.layered_supported Setting.layered_acyclic hs trivial⟩

end Session

end ShEx
