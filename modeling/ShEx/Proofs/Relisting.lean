import ShEx.Proofs.Anew
import ShEx.Proofs.ArcOrder

/-!
# Graphs in another order

A graph is a set of triples, and the order in which its arcs are met is not part of it.  Two
sessions without history that are asked the same in two orders (`Setting.relisted`) do not come to
different answers.  One can come to an answer and the other to a failure, if both come to a shape
that is torn between an arc without a place and an arc with a value expression that fails
(`Setting.Clash`), or if one of them is too deep in recursion (`respond_relisted`).  Sessions that
give an answer again that they would not find anew are left aside.
-/

set_option autoImplicit false

namespace ShEx

open ShEx.Rdf

/-! ## Two orders of one graph -/

namespace Setting

/-- The setting with its arcs in another order. -/
def relisted (w : Setting) (listing : w.graph.Listing) : Setting := { w with listing := listing }

/-- While some declarations are in progress, a shape comes in one setting to an outgoing arc that
has no place, and in another one to an arc with a value expression that fails. -/
def Torn (w w' : Setting) (begun : List (Nat × Term)) (shape : Shape) (node : Term) : Prop :=
  ∃ f slots, w.schema.compile shape.expression = .ok (f, slots) ∧
    (∃ arc ∈ w.arcsOf slots node, shape.Strands (w.Yields begun) slots arc) ∧
      ∃ arc ∈ w'.arcsOf slots node, FailsAlong (w'.Yields begun) slots arc

/-- The evaluations of a question in two settings both come to a shape that is torn between them. -/
inductive Clash (w w' : Setting) : List (Nat × Term) → ShapeExpr → Term → Prop
  | torn {begun : List (Nat × Term)} {shape : Shape} {node : Term}
      (h : Torn w w' begun shape node ∨ Torn w' w begun shape node) :
      Clash w w' begun (.shape shape) node
  | asked {begun : List (Nat × Term)} {e e' : ShapeExpr} {node node' : Term} (hc : e.isCompound)
      (h : (w.inquiry e node).ComesTo (fun c m b => w.Yields begun c m (.ok b)) e' node')
      (h' : (w'.inquiry e node).ComesTo (fun c m b => w'.Yields begun c m (.ok b)) e' node')
      (hclash : Clash w w' begun e' node') : Clash w w' begun e node
  | declared {begun : List (Nat × Term)} {label : Label} {index : Nat} {d : Declaration}
      {node : Term} (hl : w.schema.find? label = some (index, d)) (hbegun : (index, node) ∉ begun)
      (hd : d.isAbstract = false)
      (hclash : Clash w w' ((index, node) :: begun) d.expression node) :
      Clash w w' begun (.ref label) node

variable {w : Setting}

/-- In another order a shape looks at the same arcs. -/
theorem arcsOf_perm (l l' : w.graph.Listing) (slots : List TripleConstraint) (node : Term) :
    ((w.relisted l).arcsOf slots node).Perm ((w.relisted l').arcsOf slots node) := by
  have hout : (outgoingArcs l node).Perm (outgoingArcs l' node) := by
    unfold outgoingArcs
    split
    · exact .nil
    · exact ((l.outgoing_perm _).trans (l'.outgoing_perm _).symm).map _
  have hin : (incomingArcs l node).Perm (incomingArcs l' node) :=
    ((l.incoming_perm node).trans (l'.incoming_perm node).symm).map _
  unfold arcsOf
  refine hout.append ?_
  split
  · exact hin
  · exact .nil

/-- A shape that is evaluated anew in two orders of the arcs comes to results that agree, unless it
is torn between them. -/
theorem shape_agree {l l' : w.graph.Listing} {n n' : Nat} {begun : List (Nat × Term)}
    {shape : Shape} {node : Term} {reason : Prop} {r r' : Except Failure Bool}
    (hquestions : Inquiry.AgreeOn reason ((w.relisted l).anew n begun)
      ((w.relisted l').anew n' begun) ((w.relisted l).inquiry (.shape shape) node)
      ((w.relisted l').inquiry (.shape shape) node))
    (htorn : Torn (w.relisted l) (w.relisted l') begun shape node ∨
      Torn (w.relisted l') (w.relisted l) begun shape node → reason)
    (h : ((w.relisted l).inquiry (.shape shape) node).resolve ((w.relisted l).anew n begun) =
      some r)
    (h' : ((w.relisted l').inquiry (.shape shape) node).resolve ((w.relisted l').anew n' begun) =
      some r') : AgreeUnless reason r r' := by
  have hstages : ∀ l, (w.relisted l).inquiry (.shape shape) node =
      Inquiry.ofExcept (w.schema.compileShape shape) >>= fun compiled =>
        arcInquiry shape compiled.2 ((w.relisted l).arcsOf compiled.2 node) >>=
          concludeArcs w.limits.maxSearchSpace compiled.1 compiled.2 :=
    fun l => shapeInquiry_eq (w.relisted l) shape node
  -- The order matters to the arcs only, so compiling fails in both orders or in none.
  cases hcompile : w.schema.compileShape shape with
  | error failure =>
    rw [hcompile] at hstages
    rw [hstages] at h h'
    cases h
    cases h'
    trivial
  | ok compiled =>
    obtain ⟨f, slots⟩ := compiled
    rw [hcompile] at hstages
    have harcs : ∀ l, (w.relisted l).inquiry (.shape shape) node =
        arcInquiry shape slots ((w.relisted l).arcsOf slots node) >>=
          concludeArcs w.limits.maxSearchSpace f slots := hstages
    have hcompile := Schema.compile_of_compileShape hcompile
    rw [harcs] at h h'
    rw [harcs l, harcs l'] at hquestions
    have hagree : Inquiry.AgreeOn reason ((w.relisted l).anew n begun)
        ((w.relisted l').anew n' begun)
        (arcInquiry shape slots ((w.relisted l).arcsOf slots node))
        (arcInquiry shape slots ((w.relisted l').arcsOf slots node)) :=
      fun c m r r' hcomes hcomes' => hquestions c m r r'
        (Inquiry.comesTo_bind.2 (.inl hcomes)) (Inquiry.comesTo_bind.2 (.inl hcomes'))
    have hperm := arcsOf_perm l l' slots node
    have hY : ∀ v m r, (w.relisted l).anew n begun v m = some r →
        (w.relisted l).Yields begun v m r := fun v m r hr => ⟨n, hr⟩
    have hY' : ∀ v m r, (w.relisted l').anew n' begun v m = some r →
        (w.relisted l').Yields begun v m r := fun v m r hr => ⟨n', hr⟩
    refine arcs_agree hperm hagree (fun hok herror => ?_) (fun hok herror => ?_) h h'
    · rcases torn_of_options hY hY' hperm hagree hok herror with hreason | hstuck
      · exact hreason
      · exact htorn (.inl ⟨f, slots, hcompile, hstuck⟩)
    · rcases torn_of_options hY' hY hperm.symm hagree.symm hok herror with hreason | hstuck
      · exact hreason
      · exact htorn (.inr ⟨f, slots, hcompile, hstuck⟩)

/-- What is found anew in two orders of the arcs agrees, unless the evaluations both come to a shape
that is torn between them. -/
theorem yields_agree {l l' : w.graph.Listing} {begun : List (Nat × Term)} {e : ShapeExpr}
    {node : Term} {r r' : Except Failure Bool} (h : (w.relisted l).Yields begun e node r)
    (h' : (w.relisted l').Yields begun e node r') :
    AgreeUnless (Clash (w.relisted l) (w.relisted l') begun e node) r r' := by
  obtain ⟨n, hn⟩ := h
  obtain ⟨n', hn'⟩ := h'
  -- Only a shape puts its questions in another order on the other side.
  induction n generalizing n' begun e node r r' with
  | zero => cases hn
  | succ n ih =>
    cases n' with
    | zero => cases hn'
    | succ n' =>
      by_cases hc : e.isCompound
      · rw [anew_of_compound hc] at hn hn'
        have hquestions : Inquiry.AgreeOn (Clash (w.relisted l) (w.relisted l') begun e node)
            ((w.relisted l).anew n begun) ((w.relisted l').anew n' begun)
            ((w.relisted l).inquiry e node) ((w.relisted l').inquiry e node) := by
          intro c m r r' hcomes hcomes' hr hr'
          refine (ih hr n' hr').mono fun hclash => ?_
          exact .asked hc (hcomes.mono fun _ _ _ hb => ⟨n, hb⟩)
            (hcomes'.mono fun _ _ _ hb => ⟨n', hb⟩) hclash
        cases e with
        | shape shape => exact shape_agree hquestions .torn hn hn'
        | node c => cases hc
        | ref label => cases hc
        | _ => exact Inquiry.resolve_agree hquestions hn hn'
      · cases e with
        | node c =>
          cases hn
          cases hn'
          exact .refl _
        | ref label =>
          cases hl : w.schema.find? label with
          | none =>
            rw [anew_of_unknown (w := w.relisted l) hl] at hn
            rw [anew_of_unknown (w := w.relisted l') hl] at hn'
            cases hn
            cases hn'
            rfl
          | some entry =>
            obtain ⟨index, d⟩ := entry
            rw [anew_of_known (w := w.relisted l) hl] at hn
            rw [anew_of_known (w := w.relisted l') hl] at hn'
            split at hn
            · next hbegun =>
              rw [if_pos hbegun] at hn'
              cases hn
              cases hn'
              rfl
            · next hbegun =>
              rw [if_neg hbegun] at hn'
              split at hn
              · next hd =>
                rw [if_pos hd] at hn'
                cases hn
                cases hn'
                trivial
              · next hd =>
                rw [if_neg hd] at hn'
                refine (ih hn n' hn').mono fun hclash => ?_
                exact .declared hl hbegun (by simpa using hd) hclash
        | _ => exact absurd rfl hc

/-- A question in two orders of the arcs, put to sessions without history that are not stale. -/
theorem returns_agree (hw : WellNumbered w.schema.constraints) {l l' : w.graph.Listing}
    {e : ShapeExpr} {node : Term} {r r' : Except Failure Bool} {t t' : Session}
    (hnum : e.NumberedIn w.schema) (hfresh : ¬(w.relisted l).Stale ⟨e, node, .initial⟩)
    (hfresh' : ¬(w.relisted l').Stale ⟨e, node, .initial⟩)
    (h : (w.relisted l).Returns e node .initial r t)
    (h' : (w.relisted l').Returns e node .initial r' t') :
    AgreeUnless (TooDeep r ∨ TooDeep r' ∨ Clash (w.relisted l) (w.relisted l') [] e node) r r' := by
  have hyields := Returns.yields (w := w.relisted l) hw hfresh h .start
    (Session.sound_initial _) hnum
  have hyields' := Returns.yields (w := w.relisted l') hw hfresh' h' .start
    (Session.sound_initial _) hnum
  rcases hyields with hdeep | hyields
  · obtain ⟨depth, rfl⟩ := hdeep
    exact (AgreeUnless.of_error (.inl ⟨depth, rfl⟩)).symm
  rcases hyields' with hdeep' | hyields'
  · obtain ⟨depth', rfl⟩ := hdeep'
    exact .of_error (.inr (.inl ⟨depth', rfl⟩))
  exact (yields_agree hyields hyields').mono fun hclash => .inr (.inr hclash)

end Setting

/-! ## Requests in two orders -/

/-- The order in which the triples were inserted last. -/
def Rdf.Graph.backwards (g : Graph) : g.Listing where
  outgoing s := (g.withSubject s).reverse
  incoming o := (g.withObject o).reverse
  along p := (g.withPredicate p).reverse
  outgoing_perm _ := List.reverse_perm _
  incoming_perm _ := List.reverse_perm _
  along_perm _ := List.reverse_perm _

/-- The request about the declaration with a name at a node with a name. -/
def Request.named (node label : String) : Request := .labelled (.iri ⟨node⟩) (some (.iri ⟨label⟩))

namespace Setting

/-- A declaration that asks for arcs to nodes of its own, and a node with arcs to two others, one of
which leads to the other. -/
def descending (limits : Limits) : Setting where
  schema := Schema.empty.addShape ⟨.iri ⟨"A"⟩, false, .shape (.ofTriple
    ⟨⟨"p"⟩, false, some (.ref (.iri ⟨"A"⟩)), .zeroOrMore, []⟩)⟩
  graph := .ofList [⟨.iri ⟨"n"⟩, ⟨"p"⟩, .iri ⟨"x"⟩⟩, ⟨.iri ⟨"n"⟩, ⟨"p"⟩, .iri ⟨"y"⟩⟩,
    ⟨.iri ⟨"x"⟩, ⟨"p"⟩, .iri ⟨"y"⟩⟩]
  listing := Graph.asInserted _
  limits := limits

/-- A declaration whose value expression fails at IRIs and does not hold elsewhere, and a node with
an arc to a blank node and one to an IRI. -/
def divided : Setting where
  schema := Schema.empty.addShape ⟨.iri ⟨"A"⟩, false, .shape (.ofTriple
    (.to ⟨"p"⟩ (.and [.node ⟨some .iri, none, [], [], [], none⟩, .external])))⟩
  graph := .ofList [⟨.iri ⟨"n"⟩, ⟨"p"⟩, .blank ⟨"b"⟩⟩, ⟨.iri ⟨"n"⟩, ⟨"p"⟩, .iri ⟨"x"⟩⟩]
  listing := Graph.asInserted _
  limits := .standard

/-- To the two declarations that refer to each other comes one that asks for an arc to a node of
each, and a node with arcs to both nodes. -/
def revisited : Setting where
  schema := reciprocal.schema.addShape ⟨.iri ⟨"R"⟩, false, .shape ⟨false, [⟨"k"⟩],
    some (.eachOf ⟨[.triple ⟨⟨"k"⟩, false, some (.ref (.iri ⟨"A"⟩)), .zeroOrMore, []⟩,
      .triple (.to ⟨"k"⟩ (.ref (.iri ⟨"B"⟩)))], none, []⟩), [], [], []⟩⟩
  graph := .ofList [⟨.iri ⟨"n"⟩, ⟨"k"⟩, .iri ⟨"a"⟩⟩, ⟨.iri ⟨"n"⟩, ⟨"k"⟩, .iri ⟨"b"⟩⟩,
    ⟨.iri ⟨"a"⟩, ⟨"p"⟩, .iri ⟨"b"⟩⟩, ⟨.iri ⟨"b"⟩, ⟨"r"⟩, .iri ⟨"a"⟩⟩]
  listing := Graph.asInserted _
  limits := .standard

end Setting

namespace Session

/-- Where no label uses itself, every request is responded to. -/
theorem exists_respond {w : Setting} (h : ∀ a, ¬Relation.TransGen w.schema.ValuesUse a a)
    (s : Session) (q : Request) : ∃ r t, s.respond w q = some (r, t) := by
  cases q with
  | labelled node label =>
    exact Setting.exists_ask_of_not_comesBack fun _ e _ => Setting.not_comesBack h ⟨e, node, s⟩
  | expression node e =>
    exact Setting.exists_validateExpr_of_not_comesBack (Setting.not_comesBack h ⟨e, node, s⟩)

/-- Two sessions without history are asked the same about one graph, its arcs in two orders.  Both
give the same answer or both fail, unless one is too deep in recursion, or both come to a shape
where an arc has no place and a value expression fails at the end of another one.  A session that is
stale is left aside; under a schema without recursion none is.  Both return where no value
expressions use their own label. -/
theorem respond_relisted {w : Setting} (hbuilt : w.schema.Built) (l l' : w.graph.Listing)
    {q : Request} (hq : w.Proper q) :
    ((∀ a, ¬Relation.TransGen w.schema.ValuesUse a a) →
      ∃ r t r' t', initial.respond (w.relisted l) q = some (r, t) ∧
        initial.respond (w.relisted l') q = some (r', t')) ∧
    ∀ r t r' t', initial.respond (w.relisted l) q = some (r, t) →
      initial.respond (w.relisted l') q = some (r', t') →
      (w.schema.Acyclic ∨ ∀ e node, w.question? q = some (e, node) →
        ¬(w.relisted l).Stale ⟨e, node, initial⟩ ∧ ¬(w.relisted l').Stale ⟨e, node, initial⟩) →
      AgreeUnless (TooDeep r ∨ TooDeep r' ∨ ∃ e node, w.question? q = some (e, node) ∧
        Setting.Clash (w.relisted l) (w.relisted l') [] e node) r r' := by
  have hw := hbuilt.wellNumbered
  refine ⟨fun hends => ?_, fun r t r' t' h h' hfresh => ?_⟩
  · obtain ⟨r, t, h⟩ := exists_respond (w := w.relisted l) hends initial q
    obtain ⟨r', t', h'⟩ := exists_respond (w := w.relisted l') hends initial q
    exact ⟨r, t, r', t', h, h'⟩
  · rw [respond_eq_some_iff] at h h'
    cases hquestion : w.question? q with
    | none =>
      rw [show (w.relisted l).question? q = none from hquestion] at h
      rw [show (w.relisted l').question? q = none from hquestion] at h'
      rw [h.1, h'.1]
      exact .refl w.standing
    | some question =>
      obtain ⟨e, node⟩ := question
      rw [show (w.relisted l).question? q = some (e, node) from hquestion] at h
      rw [show (w.relisted l').question? q = some (e, node) from hquestion] at h'
      have hnum := hq.numberedIn hquestion
      have hnot : ¬(w.relisted l).Stale ⟨e, node, initial⟩ ∧
          ¬(w.relisted l').Stale ⟨e, node, initial⟩ := by
        rcases hfresh with hacyclic | hfresh
        · exact ⟨Setting.not_stale_of_acyclic (w := w.relisted l) hw hacyclic hnum node,
            Setting.not_stale_of_acyclic (w := w.relisted l') hw hacyclic hnum node⟩
        · exact hfresh e node hquestion
      refine (Setting.returns_agree hw hnum hnot.1 hnot.2 h h').mono ?_
      rintro (hdeep | hdeep | hclash)
      · exact .inl hdeep
      · exact .inr (.inl hdeep)
      · exact .inr (.inr ⟨e, node, rfl, hclash⟩)

/-- Under a schema with recursion, a node whose arcs lead to nodes of the same declaration. -/
theorem respond_relisted_descending : ∃ r t r' t',
    initial.respond (.relisted (.descending .standard) (Graph.asInserted _)) (.named "n" "A") =
      some (r, t) ∧
    initial.respond (.relisted (.descending .standard) (Graph.backwards _)) (.named "n" "A") =
      some (r', t') ∧
    AgreeUnless (TooDeep r ∨ TooDeep r' ∨ ∃ e node,
      (Setting.descending .standard).question? (.named "n" "A") = some (e, node) ∧
      Setting.Clash (.relisted (.descending .standard) (Graph.asInserted _))
        (.relisted (.descending .standard) (Graph.backwards _)) [] e node) r r' := by
  have hbuilt : (Setting.descending .standard).schema.Built := Schema.Built.empty.addShape _
  have hends : ∀ a, ¬Relation.TransGen (Setting.descending .standard).schema.ValuesUse a a := by
    intro a ha
    obtain ⟨a', ⟨e, ⟨te, hte, -⟩, -⟩, -⟩ := Relation.TransGen.head'_iff.1 ha
    cases hte
  have hfresh : ∀ l, (Setting.relisted (.descending .standard) l).unfold 9 (.ref (.iri ⟨"A"⟩))
      (.iri ⟨"n"⟩) = some (.ok true) →
      ¬(Setting.relisted (.descending .standard) l).Stale
        ⟨.ref (.iri ⟨"A"⟩), .iri ⟨"n"⟩, initial⟩ :=
    fun l hl => Setting.not_stale_initial (w := .relisted _ l) hbuilt.wellNumbered hl nofun
  obtain ⟨hreturns, hagree⟩ := respond_relisted hbuilt (Graph.asInserted _) (Graph.backwards _)
    (q := .named "n" "A") trivial
  obtain ⟨r, t, r', t', h, h'⟩ := hreturns hends
  refine ⟨r, t, r', t', h, h', hagree r t r' t' h h' (.inr fun e node hq => ?_)⟩
  cases hq
  exact ⟨hfresh _ rfl, hfresh _ rfl⟩

/-- Three pairs of sessions without history that differ in the order of arcs.  An arc has no place
and another one has a value expression that fails; a declaration is reached before there are too
many in progress, or after; an answer is given again that rests on a declaration in progress, or is
found first. -/
theorem respond_divided :
    (Setting.divided.schema.Built ∧ ∃ t failure t',
      initial.respond (.relisted .divided (Graph.asInserted _)) (.named "n" "A") =
        some (.ok false, t) ∧
      initial.respond (.relisted .divided (Graph.backwards _)) (.named "n" "A") =
        some (.error failure, t')) ∧
    ((Setting.descending ⟨2, 1024, 1000⟩).schema.Built ∧ ∃ t depth t',
      initial.respond (.relisted (.descending ⟨2, 1024, 1000⟩) (Graph.backwards _))
        (.named "n" "A") = some (.ok true, t) ∧
      initial.respond (.relisted (.descending ⟨2, 1024, 1000⟩) (Graph.asInserted _))
        (.named "n" "A") = some (.error (.recursionTooDeep depth), t')) ∧
    Setting.revisited.schema.Built ∧ ∃ t t',
      initial.respond (.relisted .revisited (Graph.asInserted _)) (.named "n" "R") =
        some (.ok true, t) ∧
      initial.respond (.relisted .revisited (Graph.backwards _)) (.named "n" "R") =
        some (.ok false, t') := by
  refine ⟨⟨Schema.Built.empty.addShape _, _, _, _, rfl, rfl⟩,
    ⟨Schema.Built.empty.addShape _, _, _, _, rfl, rfl⟩, ?_, _, _, rfl, rfl⟩
  exact ((Schema.Built.empty.addShape _).addShape _).addShape _

end Session

end ShEx
