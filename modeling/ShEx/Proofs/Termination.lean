import ShEx.Proofs.NestingBound

/-!
# Which requests are answered

A request is answered with the nesting that `validate` allows, unless its evaluation comes back to a
question, and then no nesting is enough (`validate_returns_iff`).  So what follows about the answers
of a session is said of evaluations that return, whatever their nesting (`validate_eq_some_iff`,
`validateExpr_eq_some_iff`).

A declaration in progress answers for itself, but nothing answers for a labelled triple expression
whose value expressions use its own label (`ValuesUse`).  Where no label is used so, no evaluation
comes back to a question (`not_comesBack`).
-/

set_option autoImplicit false

namespace ShEx

open ShEx.Rdf

namespace Setting

variable {w : Setting}

/-! ## Requests -/

/-- The expression that a request is about: a reference to the declaration with its label, or the
start expression. -/
def opening (w : Setting) : Option Label → Option ShapeExpr
  | some label => some (.ref label)
  | none => w.schema.start

/-- What of a schema is not supported for any request. -/
def refusal? (w : Setting) : Option Feature :=
  if !w.schema.imports.isEmpty then some .imports
  else if !w.schema.startActs.isEmpty then some .semanticActions
  else none

/-- The responses to a request, and the states behind them. -/
def Responds (w : Setting) (node : Term) (label : Option Label) (s : Session)
    (r : Except Failure Bool) (t : Session) : Prop :=
  match w.refusal? with
  | some f => r = .error (.notImplemented f) ∧ t = s
  | none =>
    match w.opening label with
    | none => r = .ok false ∧ t = s
    | some e => w.Returns e node s r t

/-- There is one response only. -/
theorem Responds.unique {node : Term} {label : Option Label} {s t t' : Session}
    {r r' : Except Failure Bool} (h : w.Responds node label s r t)
    (h' : w.Responds node label s r' t') : r = r' ∧ t = t' := by
  unfold Responds at h h'
  cases hf : w.refusal? with
  | some f =>
    rw [hf] at h h'
    exact ⟨h.1.trans h'.1.symm, h.2.trans h'.2.symm⟩
  | none =>
    rw [hf] at h h'
    cases ho : w.opening label with
    | none =>
      rw [ho] at h h'
      exact ⟨h.1.trans h'.1.symm, h.2.trans h'.2.symm⟩
    | some e =>
      rw [ho] at h h'
      exact Returns.unique h h'

/-- A request state by state. -/
theorem ask_apply (n : Nat) (node : Term) (label : Option Label) (s : Session) :
    w.ask n node label s =
      match w.refusal? with
      | some f => some (.error (.notImplemented f), s)
      | none =>
        match label with
        | some l => w.evaluate (n + 1) (.ref l) node s
        | none =>
          match w.schema.start with
          | some e => w.evaluate n e node s
          | none => some (.ok false, s) := by
  unfold ask refusal? Evaluation.rejectIf
  cases w.schema.imports.isEmpty with
  | false => rfl
  | true =>
    cases w.schema.startActs.isEmpty with
    | false => rfl
    | true =>
      cases label with
      | some l => rfl
      | none => cases w.schema.start <;> rfl

/-- A request that is answered with any nesting responds. -/
theorem responds_of_ask {n : Nat} {node : Term} {label : Option Label} {s t : Session}
    {r : Except Failure Bool} (h : w.ask n node label s = some (r, t)) :
    w.Responds node label s r t := by
  rw [ask_apply] at h
  unfold Responds
  cases hf : w.refusal? with
  | some f =>
    rw [hf] at h
    cases h
    exact ⟨rfl, rfl⟩
  | none =>
    rw [hf] at h
    cases label with
    | some l => exact ⟨n + 1, h⟩
    | none =>
      show match w.schema.start with
        | none => r = .ok false ∧ t = s
        | some e => w.Returns e node s r t
      cases hs : w.schema.start with
      | some e =>
        rw [hs] at h
        exact ⟨n, h⟩
      | none =>
        rw [hs] at h
        cases h
        exact ⟨rfl, rfl⟩

/-- A request is answered with the nesting that `validate` allows unless its evaluation comes back
to a question. -/
theorem exists_ask_of_not_comesBack {node : Term} {label : Option Label} {s : Session}
    (h : w.refusal? = none → ∀ e, w.opening label = some e → ¬w.ComesBack ⟨e, node, s⟩) :
    ∃ r t, w.ask (w.nestingBound 0) node label s = some (r, t) := by
  have hlen : w.schema.expressions.length ≤ w.schema.expressionCount + 0 :=
    (Schema.length_expressions w.schema).le
  rw [ask_apply]
  cases hf : w.refusal? with
  | some f => exact ⟨_, _, rfl⟩
  | none =>
    cases label with
    | some l =>
      cases hn : w.evaluate (w.nestingBound 0 + 1) (.ref l) node s with
      | some result => exact ⟨result.1, result.2, hn⟩
      | none =>
        -- A label costs one level, so the bound is applied to what is declared under it.
        obtain ⟨q, ha, hnone⟩ := exists_asks_of_none (q := ⟨.ref l, node, s⟩) hn
        have hq : ¬w.ComesBack q := fun ⟨q', hqq, hloop⟩ => h hf _ rfl ⟨q', .head ha hqq, hloop⟩
        cases ha with
        | compound hc _ => cases hc
        | declaration he =>
          have hmem := Schema.declared_mem_expressions (Schema.mem_of_find? he.known).1
          obtain ⟨r, t, hsome⟩ :=
            exists_evaluate_of_closed w.schema.closed_expressions hlen hmem hq
          rw [hnone] at hsome
          cases hsome
    | none =>
      cases hs : w.schema.start with
      | none => exact ⟨_, _, rfl⟩
      | some e =>
        have hmem : e ∈ w.schema.expressions := Schema.start_mem_expressions hs
        exact exists_evaluate_of_closed w.schema.closed_expressions hlen hmem (h hf e hs)

/-- A request whose evaluation comes back to a question is not answered, whatever nesting it is
given. -/
theorem ask_eq_none_of_comesBack {node : Term} {label : Option Label} {s : Session} {e : ShapeExpr}
    (hf : w.refusal? = none) (ho : w.opening label = some e) (h : w.ComesBack ⟨e, node, s⟩)
    (n : Nat) : w.ask n node label s = none := by
  cases hn : w.ask n node label s with
  | none => rfl
  | some result =>
    have hr := responds_of_ask hn
    unfold Responds at hr
    rw [hf, ho] at hr
    obtain ⟨m, hm⟩ := hr
    have hnone := evaluate_eq_none_of_comesBack h m
    rw [show w.evaluate m e node s = none from hnone] at hm
    cases hm

/-- A question about an expression from outside is answered with the nesting that `validateExpr`
allows unless its evaluation comes back to a question. -/
theorem exists_validateExpr_of_not_comesBack {e : ShapeExpr} {node : Term} {s : Session}
    (h : ¬w.ComesBack ⟨e, node, s⟩) : ∃ r t, s.validateExpr w e node = some (r, t) := by
  have hlen : (e.parts ++ w.schema.expressions).length ≤ w.schema.expressionCount + e.size := by
    rw [List.length_append, e.length_parts, Schema.length_expressions, Nat.add_comm]
  exact exists_evaluate_of_closed (w.schema.closed_parts e) hlen
    (List.mem_append_left _ e.mem_parts_self) h

end Setting

namespace Session

variable {w : Setting} {s t : Session} {node : Term} {r : Except Failure Bool}

/-- The nesting that `validate` allows is enough for every response. -/
theorem validate_eq_some_iff {label : Option Label} :
    s.validate w node label = some (r, t) ↔ w.Responds node label s r t := by
  constructor
  · exact Setting.responds_of_ask
  · intro h
    have hret : ∃ r t, s.validate w node label = some (r, t) := by
      refine Setting.exists_ask_of_not_comesBack fun hf e ho hback => ?_
      unfold Setting.Responds at h
      rw [hf, ho] at h
      obtain ⟨n, hn⟩ := h
      have hnone := Setting.evaluate_eq_none_of_comesBack hback n
      rw [show w.evaluate n e node s = none from hnone] at hn
      cases hn
    obtain ⟨r', t', hret⟩ := hret
    obtain ⟨rfl, rfl⟩ := h.unique (Setting.responds_of_ask hret)
    exact hret

/-- The nesting that `validateExpr` allows is enough for every evaluation that returns. -/
theorem validateExpr_eq_some_iff {e : ShapeExpr} :
    s.validateExpr w e node = some (r, t) ↔ w.Returns e node s r t := by
  constructor
  · exact fun h => ⟨_, h⟩
  · rintro ⟨n, hn⟩
    have hback : ¬w.ComesBack ⟨e, node, s⟩ := by
      intro hback
      have hnone := Setting.evaluate_eq_none_of_comesBack hback n
      rw [show w.evaluate n e node s = none from hnone] at hn
      cases hn
    obtain ⟨r', t', h⟩ := Setting.exists_validateExpr_of_not_comesBack hback
    obtain ⟨rfl, rfl⟩ := Setting.Returns.unique ⟨n, hn⟩ ⟨_, h⟩
    exact h

end Session

/-! ## Runs of requests -/

/-- What a session can be asked: a declaration by its label or the start expression, or an
expression from outside. -/
inductive Request where
  | labelled (node : Term) (label : Option Label)
  | expression (node : Term) (e : ShapeExpr)

/-- The response to a request and the state behind it; nothing if the evaluation does not end. -/
def Session.respond (s : Session) (w : Setting) : Request →
    Option (Except Failure Bool × Session)
  | .labelled node label => s.validate w node label
  | .expression node e => s.validateExpr w e node

/-- The states that a session comes to by requests of a kind, whatever the responses are. -/
inductive Session.Reached (w : Setting) (allowed : Request → Prop) : Session → Prop
  | initial : Reached w allowed .initial
  | after {s t : Session} {q : Request} {r : Except Failure Bool} (h : Reached w allowed s)
      (hq : allowed q) (hr : s.respond w q = some (r, t)) : Reached w allowed t

/-- What is reached by requests of a kind is reached by requests of a wider kind. -/
theorem Session.Reached.mono {w : Setting} {P Q : Request → Prop} (hPQ : ∀ q, P q → Q q)
    {s : Session} (h : s.Reached w P) : s.Reached w Q := by
  induction h with
  | initial => exact .initial
  | after _ hq hr ih => exact .after ih (hPQ _ hq) hr

/-- The question that a request puts to the evaluation, if it puts one. -/
def Setting.question? (w : Setting) : Request → Option (ShapeExpr × Term)
  | .labelled node label =>
    match w.refusal? with
    | some _ => none
    | none => (w.opening label).map fun e => (e, node)
  | .expression node e => some (e, node)

/-- The response to a request that puts no question. -/
def Setting.standing (w : Setting) : Except Failure Bool :=
  match w.refusal? with
  | some f => .error (.notImplemented f)
  | none => .ok false

/-- A request is answered by the evaluation of its question, and without one at once. -/
theorem Session.respond_eq_some_iff {w : Setting} {s t : Session} {q : Request}
    {r : Except Failure Bool} : s.respond w q = some (r, t) ↔
      match w.question? q with
      | some (e, node) => w.Returns e node s r t
      | none => r = w.standing ∧ t = s := by
  cases q with
  | expression node e => exact validateExpr_eq_some_iff
  | labelled node label =>
    refine validate_eq_some_iff.trans ?_
    unfold Setting.Responds Setting.question? Setting.standing
    cases w.refusal? with
    | some f => exact Iff.rfl
    | none =>
      dsimp only
      cases w.opening label <;> exact Iff.rfl

/-- The response to a request is the result of its question, or stands without one and leaves the
session as it is. -/
theorem Session.respond_cases {w : Setting} {s t : Session} {q : Request} {r : Except Failure Bool}
    (h : s.respond w q = some (r, t)) :
    (∃ e node, w.question? q = some (e, node) ∧ w.Returns e node s r t) ∨
      w.question? q = none ∧ r = w.standing ∧ t = s := by
  rw [Session.respond_eq_some_iff] at h
  cases hq : w.question? q with
  | some question =>
    rw [hq] at h
    exact .inl ⟨question.1, question.2, rfl, h⟩
  | none =>
    rw [hq] at h
    exact .inr ⟨rfl, h⟩

/-! ## Labels that value expressions use -/

namespace Schema

/-- A shape in an expression refers to a label of a triple expression, possibly through other
labels. -/
def Uses (s : Schema) (e : ShapeExpr) (label : Label) : Prop :=
  ∃ shape te te₁, .shape shape ∈ e.parts ∧ shape.expression = some te ∧ s.LeadsTo te te₁ ∧
    label ∈ te₁.labels

/-- An expression stands in the value expressions of the triple expression with a label. -/
def Values (s : Schema) (label : Label) (e : ShapeExpr) : Prop :=
  ∃ te, s.tripleExpression? label = some te ∧ e ∈ valueParts te.triples

/-- The value expressions of the triple expression with a label use another label, with no reference
to a declaration in between. -/
def ValuesUse (s : Schema) (label label' : Label) : Prop :=
  ∃ e, s.Values label e ∧ s.Uses e label'

/-- An expression that another one embeds is a smaller part of it, or stands in the value
expressions of a label that it uses. -/
theorem Embeds.cases {s : Schema} {e c : ShapeExpr} (h : s.Embeds e c) :
    c ∈ e.children ∨ ∃ label, s.Uses e label ∧ s.Values label c := by
  cases h with
  | child hc => exact .inl hc
  | @expanded shape te te₁ te' label t v hte hlead hl hlabel ht hv =>
    refine .inr ⟨label, ⟨shape, te, te₁, ShapeExpr.mem_parts_self _, hte, hlead, hl⟩, te', hlabel,
      ?_⟩
    exact List.mem_flatMap.2 ⟨c, List.mem_filterMap.2 ⟨t, ht, hv⟩, c.mem_parts_self⟩

/-- What stands in a part stands in the expression. -/
theorem Uses.of_part {s : Schema} {e p : ShapeExpr} {label : Label} (hp : p ∈ e.parts)
    (h : s.Uses p label) : s.Uses e label := by
  obtain ⟨shape, te, te₁, hmem, hrest⟩ := h
  exact ⟨shape, te, te₁, ShapeExpr.parts_subset hp hmem, hrest⟩

/-- What is directly inside an expression stands where that one does. -/
theorem Values.child {s : Schema} {e c : ShapeExpr} {label : Label} (h : s.Values label e)
    (hc : c ∈ e.children) : s.Values label c := by
  obtain ⟨te, hlabel, he⟩ := h
  obtain ⟨v, hv, he⟩ := List.mem_flatMap.1 he
  exact ⟨te, hlabel, List.mem_flatMap.2 ⟨v, hv, ShapeExpr.children_mem_parts he hc⟩⟩

/-- Where an evaluation comes to with no new declaration: down the expression it begins with, or
into the value expressions of a label, the first one used by that expression and each further one
by the value expressions of the one before. -/
theorem parts_or_values {s : Schema} {e c : ShapeExpr} (h : Relation.TransGen s.Embeds e c) :
    (c ∈ e.parts ∧ sizeOf c < sizeOf e) ∨ ∃ label label', s.Uses e label ∧
      Relation.ReflTransGen s.ValuesUse label label' ∧ s.Values label' c := by
  induction h with
  | single h =>
    rcases h.cases with hc | ⟨label, hu, hv⟩
    · exact .inl ⟨ShapeExpr.children_mem_parts e.mem_parts_self hc, ShapeExpr.sizeOf_child_lt hc⟩
    · exact .inr ⟨label, label, hu, .refl, hv⟩
  | tail _ h ih =>
    rcases ih with ⟨hp, hlt⟩ | ⟨label, label', hu, hll, hv⟩
    · rcases h.cases with hc | ⟨label, hu, hv⟩
      · exact .inl ⟨ShapeExpr.children_mem_parts hp hc,
          Nat.lt_trans (ShapeExpr.sizeOf_child_lt hc) hlt⟩
      · exact .inr ⟨label, label, hu.of_part hp, .refl, hv⟩
    · rcases h.cases with hc | ⟨label'', hu', hv'⟩
      · exact .inr ⟨label, label', hu, hll, hv.child hc⟩
      · exact .inr ⟨label, label'', hu, hll.tail ⟨_, hv, hu'⟩, hv'⟩

/-- An expression that can come back to itself with no new declaration stands in the value
expressions of a label that these value expressions use again. -/
theorem exists_valuesUse_cycle {s : Schema} {e : ShapeExpr} (h : Relation.TransGen s.Embeds e e) :
    ∃ label, Relation.TransGen s.ValuesUse label label := by
  rcases parts_or_values h with ⟨-, hlt⟩ | ⟨label, label', hu, hll, hv⟩
  · exact absurd hlt (Nat.lt_irrefl _)
  · exact ⟨label', .head' ⟨e, hv, hu⟩ hll⟩

end Schema

namespace Setting

variable {w : Setting}

/-- Where no value expressions use their own label, no evaluation comes back to a question. -/
theorem not_comesBack (h : ∀ label, ¬Relation.TransGen w.schema.ValuesUse label label)
    (q : Question) : ¬w.ComesBack q := by
  rintro ⟨q', -, hloop⟩
  -- No declaration begins on the way from a question to itself.
  have key : ∀ {a b : Question}, Relation.TransGen w.Asks a b → b.state.depth ≤ a.state.depth →
      Relation.TransGen w.schema.Embeds a.expression b.expression := by
    have hstep : ∀ {a b : Question}, w.Asks a b → b.state.depth ≤ a.state.depth →
        w.schema.Embeds a.expression b.expression := by
      intro a b ha hle
      cases ha with
      | compound hc hq => exact (embeds_of_mentions hc hq.mentions).1
      | declaration _ => exact absurd hle (Nat.not_succ_le_self _)
    intro a b hab
    induction hab with
    | single ha => exact fun hle => .single (hstep ha hle)
    | tail hab ha ih =>
      intro hle
      have hab' := (keeps_of_reflTransGen hab.to_reflTransGen).2
      exact (ih (ha.keeps.2.trans hle)).tail (hstep ha (hle.trans hab'))
  obtain ⟨label, hcycle⟩ := Schema.exists_valuesUse_cycle (key hloop (Nat.le_refl _))
  exact h label hcycle

end Setting

/-! ## Which requests are answered -/

/-- The shape whose triple expression is the one with a label. -/
def Shape.ofLabel (label : Label) : Shape := ⟨false, [], some (.ref label), [], [], []⟩

/-- The triple constraint that asks for one arc with a predicate to a node of an expression. -/
def TripleConstraint.to (predicate : Iri) (value : ShapeExpr) : TripleConstraint :=
  ⟨predicate, false, some value, .one, []⟩

/-- The shape of one triple constraint. -/
def Shape.ofTriple (t : TripleConstraint) : Shape := ⟨false, [], some (.triple t), [], [], []⟩

/-- The graph of one arc that leads back to its node. -/
def circle : Graph := .ofList [⟨.iri ⟨"n"⟩, ⟨"p"⟩, .iri ⟨"n"⟩⟩]

/-- A label whose triple expression asks for the shape with its own arcs, and a declaration of that
shape. -/
def Setting.selfUsing : Setting where
  schema :=
    (Schema.empty.addTripleExpression (.iri ⟨"T"⟩)
      (.triple (.to ⟨"p"⟩ (.shape (.ofLabel (.iri ⟨"T"⟩)))))).addShape
        ⟨.iri ⟨"A"⟩, false, .shape (.ofLabel (.iri ⟨"T"⟩))⟩
  graph := circle
  listing := circle.asInserted
  limits := .standard

/-- Two declarations that ask for each other. -/
def Setting.mutual : Setting where
  schema :=
    (Schema.empty.addShape
      ⟨.iri ⟨"A"⟩, false, .shape (.ofTriple (.to ⟨"p"⟩ (.ref (.iri ⟨"B"⟩))))⟩).addShape
        ⟨.iri ⟨"B"⟩, false, .shape (.ofTriple (.to ⟨"p"⟩ (.ref (.iri ⟨"A"⟩))))⟩
  graph := circle
  listing := circle.asInserted
  limits := .standard

namespace Session

/-- A request is answered, with a nesting that only the schema and the graph bound, if and only if
its evaluation does not come back to a question; where it does, no nesting is enough.  Declarations
may refer to each other as they like: it is enough that no labelled triple expression is used by its
own value expressions. -/
theorem validate_returns_iff (w : Setting) (s : Session) (node : Term) (label : Option Label) :
    ((∃ r t, s.validate w node label = some (r, t)) ↔
      (w.refusal? = none → ∀ e, w.opening label = some e → ¬w.ComesBack ⟨e, node, s⟩)) ∧
    ((∃ n r t, w.ask n node label s = some (r, t)) →
      ∃ r t, s.validate w node label = some (r, t)) ∧
    ((∀ l, ¬Relation.TransGen w.schema.ValuesUse l l) →
      ∃ r t, s.validate w node label = some (r, t)) := by
  have hnever : ∀ n r t, w.ask n node label s = some (r, t) →
      w.refusal? = none → ∀ e, w.opening label = some e → ¬w.ComesBack ⟨e, node, s⟩ := by
    intro n r t h hf e ho hback
    rw [Setting.ask_eq_none_of_comesBack hf ho hback] at h
    cases h
  refine ⟨⟨?_, Setting.exists_ask_of_not_comesBack⟩, ?_, ?_⟩
  · rintro ⟨r, t, h⟩
    exact hnever _ r t h
  · rintro ⟨n, r, t, h⟩
    exact Setting.exists_ask_of_not_comesBack (hnever n r t h)
  · intro h
    exact Setting.exists_ask_of_not_comesBack fun _ _ _ => Setting.not_comesBack h _

/-- Two declarations that ask for each other and a graph that turns in a circle. -/
theorem validate_mutual_returns : (∀ l, ¬Relation.TransGen Setting.mutual.schema.ValuesUse l l) ∧
    ∃ r t, Session.initial.validate .mutual (.iri ⟨"n"⟩) (some (.iri ⟨"A"⟩)) = some (r, t) := by
  have h : ∀ l, ¬Relation.TransGen Setting.mutual.schema.ValuesUse l l := by
    intro l hl
    obtain ⟨l', ⟨e, ⟨te, hte, -⟩, -⟩, -⟩ := Relation.TransGen.head'_iff.1 hl
    cases hte
  exact ⟨h, (validate_returns_iff _ _ _ _).2.2 h⟩

/-- A labelled triple expression that its own value expression uses: on an arc from a node to itself
the evaluation comes back to the shape that it begins with, and no nesting is enough. -/
theorem validate_selfUsing : Session.initial.validate .selfUsing (.iri ⟨"n"⟩) (some (.iri ⟨"A"⟩)) =
      none ∧
    ∀ n, Setting.selfUsing.ask n (.iri ⟨"n"⟩) (some (.iri ⟨"A"⟩)) .initial = none := by
  have hback : Setting.selfUsing.ComesBack ⟨.ref (.iri ⟨"A"⟩), .iri ⟨"n"⟩, .initial⟩ := by
    refine ⟨_, .single (.declaration ⟨rfl, rfl, rfl, ?_⟩), .single (.compound rfl ?_)⟩
    · decide
    · exact .inl ⟨rfl, rfl, rfl⟩
  have hnone : ∀ n, Setting.selfUsing.ask n (.iri ⟨"n"⟩) (some (.iri ⟨"A"⟩)) .initial = none :=
    Setting.ask_eq_none_of_comesBack rfl rfl hback
  exact ⟨hnone _, hnone⟩

end Session

end ShEx
