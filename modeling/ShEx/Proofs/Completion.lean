import ShEx.Proofs.Redeclaration
import ShEx.Proofs.Relisting
import ShEx.Proofs.Typing

/-!
# Declarations that were missing

A label that a schema does not know holds nowhere. When its declaration is added later
(`Schema.completed`), a reference to it may come to hold; so what rests on the reference below an
even number of negations may come to hold as well, and what rests on it below an odd number may
cease to (`Schema.Stands`). The value expression of an inverse triple constraint counts in both
ways: the arcs that it admits have to go somewhere.

A node that is accepted without the declarations is not rejected with them if no missing label
stands below an odd number of negations (`respond_completed`). One step of this compares the answers
of an expression by those of what it is made of (`Setting.answer_imp`), a run compares the
evaluations anew (`Setting.anew_completed`). Sessions that give an answer again that they would not
find anew are left aside.
-/

set_option autoImplicit false

namespace ShEx

open ShEx.Rdf

/-! ## More declarations -/

namespace Schema

/-- The schema with some more declarations. -/
def completed (s : Schema) (ds : List Declaration) : Schema := ds.foldl addShape s

/-- A schema has all that another one has, and possibly more declarations behind. -/
structure Extends (s s' : Schema) : Prop where
  tripleExpressions : s'.tripleExpressions = s.tripleExpressions
  start : s'.start = s.start
  imports : s'.imports = s.imports
  startActs : s'.startActs = s.startActs
  declarations : ∃ more, s'.declarations = s.declarations ++ more

variable {s s' : Schema}

/-- A declaration of a label that is not known goes behind those there are, and may have been added
to more declarations already. -/
theorem Extends.addShape (h : s.Extends s') {d : Declaration} (hd : s.find? d.label = none) :
    s.Extends (s'.addShape d) where
  tripleExpressions := h.tripleExpressions
  start := h.start
  imports := h.imports
  startActs := h.startActs
  declarations := by
    obtain ⟨more, hmore⟩ := h.declarations
    refine ⟨placed ⟨d.label, d.isAbstract, (d.expression.numbered s'.nextConstraint).1⟩ more, ?_⟩
    show placed _ s'.declarations = _
    rw [hmore]
    exact placed_append (find?_eq_none_iff.1 hd)

/-- Declarations of labels that are not known leave what there is as it is. -/
theorem extends_completed {ds : List Declaration} (hnew : ∀ d ∈ ds, s.find? d.label = none) :
    s.Extends (s.completed ds) := by
  have key : ∀ s', s.Extends s' → s.Extends (s'.completed ds) := by
    induction ds with
    | nil => exact fun _ h => h
    | cons d rest ih =>
      intro s' h
      exact ih (fun d' hd' => hnew d' (List.mem_cons_of_mem _ hd')) _
        (h.addShape (hnew d List.mem_cons_self))
  exact key s ⟨rfl, rfl, rfl, rfl, [], (List.append_nil _).symm⟩

/-- A label that is known stands for the same declaration among more of them. -/
theorem Extends.find? (h : s.Extends s') {label : Label} {entry : Nat × Declaration}
    (hl : s.find? label = some entry) : s'.find? label = some entry := by
  obtain ⟨more, hmore⟩ := h.declarations
  obtain ⟨index, d⟩ := entry
  obtain ⟨hindex, hd⟩ := find?_eq_some_iff.1 hl
  refine find?_eq_some_iff.2 ⟨?_, ?_⟩
  · rw [declarationIndex?_eq] at hindex ⊢
    rw [hmore, List.map_append]
    exact (List.prefix_append _ _).findIdx?_eq_some hindex
  · obtain ⟨hlt, -⟩ := List.getElem?_eq_some_iff.1 hd
    rw [declaration?, hmore, List.getElem?_append_left hlt]
    exact hd

/-- A label that is not added stays unknown. -/
theorem find?_completed_eq_none {ds : List Declaration} {label : Label}
    (hl : s.find? label = none) (hds : ∀ d ∈ ds, d.label ≠ label) :
    (s.completed ds).find? label = none := by
  induction ds generalizing s with
  | nil => exact hl
  | cons d rest ih =>
    refine ih (find?_eq_none_iff.2 fun d' hd' => ?_)
      fun d' hd' => hds d' (List.mem_cons_of_mem _ hd')
    rcases mem_placed hd' with rfl | hd'
    · exact hds d List.mem_cons_self
    · exact find?_eq_none_iff.1 hl d' hd'

/-- Adding declarations is one way of building a schema. -/
theorem Built.completed (h : s.Built) (ds : List Declaration) : (s.completed ds).Built :=
  h.foldl .addShape ds

/-- The constraints of a schema keep their numbers when declarations are added behind. -/
theorem Extends.constraints (h : s.Extends s') {c : NodeConstraint} (hc : c ∈ s.constraints) :
    c ∈ s'.constraints := by
  obtain ⟨more, hmore⟩ := h.declarations
  rw [mem_constraints] at hc ⊢
  rw [h.tripleExpressions, h.start, hmore]
  refine hc.imp_left ?_
  rintro ⟨d, hd, hc⟩
  exact ⟨d, List.mem_append_left _ hd, hc⟩

/-- What reaches itself in part of a schema does so in the whole of it. -/
theorem Extends.acyclic (h : s.Extends s') (hacyclic : s'.Acyclic) : s.Acyclic := by
  intro r hr
  have hstep : ∀ a b, s.RefersTo a b → s'.RefersTo a b := by
    intro a b hab
    cases hab with
    | shape hl hr => exact .shape (h.find? hl) hr
    | tripleExpr hl hr =>
      refine .tripleExpr ?_ hr
      rwa [tripleExpression?, h.tripleExpressions]
  exact hacyclic r (Relation.TransGen.mono hstep r r hr)

/-- Triple expressions are compiled as before. -/
theorem Extends.compile (h : s.Extends s') (te : Option TripleExpr) :
    s'.compile te = s.compile te := by
  have hlookup : ∀ label, s'.tripleExpression? label = s.tripleExpression? label := by
    intro label
    rw [tripleExpression?, h.tripleExpressions, tripleExpression?]
  have hfollow : ∀ n te, s'.follow? n te = s.follow? n te := by
    intro n
    induction n with
    | zero => exact fun _ => rfl
    | succ n ih =>
      intro te
      cases te with
      | ref label =>
        simp only [follow?, hlookup, ih]
      | _ => rfl
  have hresolve : ∀ te, s'.resolveTriple? te = s.resolveTriple? te := by
    intro te
    rw [resolveTriple?, h.tripleExpressions, hfollow, resolveTriple?]
  have hcompile : ∀ n expanding te slots,
      s'.compileTriple n expanding te slots = s.compileTriple n expanding te slots := by
    intro n
    induction n with
    | zero => exact fun _ _ _ => rfl
    | succ n ih =>
      intro expanding te slots
      simp only [compileTriple, hresolve, hlookup, ih]
  cases te with
  | none => rfl
  | some te => simp only [Schema.compile, h.tripleExpressions, hcompile]

end Schema

namespace Setting

/-- The setting with some more declarations in its schema. -/
def completed (w : Setting) (ds : List Declaration) : Setting :=
  { w with schema := w.schema.completed ds }

variable {w : Setting} {ds : List Declaration}

/-- A request puts the same question, since neither what the schema refuses nor its start expression
has changed. -/
theorem question?_completed (hnew : ∀ d ∈ ds, w.schema.find? d.label = none) (q : Request) :
    (w.completed ds).question? q = w.question? q := by
  have hext := Schema.extends_completed hnew
  have hrefusal : (w.completed ds).refusal? = w.refusal? := by
    unfold refusal? completed
    dsimp only
    rw [hext.imports, hext.startActs]
  have hopening : ∀ label, (w.completed ds).opening label = w.opening label := by
    intro label
    cases label with
    | some label => rfl
    | none => exact hext.start
  cases q with
  | expression node e => rfl
  | labelled node label => simp only [question?, hrefusal, hopening]

/-- Inquiries put their questions as before: labels are looked up only where these questions are
answered. -/
theorem inquiry_completed (hnew : ∀ d ∈ ds, w.schema.find? d.label = none) (e : ShapeExpr)
    (node : Term) : (w.completed ds).inquiry e node = w.inquiry e node := by
  cases e with
  | shape shape =>
    have hcompile : (w.completed ds).schema.compileShape shape = w.schema.compileShape shape := by
      unfold Schema.compileShape
      rw [show (w.completed ds).schema.compile shape.expression = _ from
        (Schema.extends_completed hnew).compile shape.expression]
    show (w.completed ds).shapeInquiry shape node = w.shapeInquiry shape node
    rw [shapeInquiry_eq, shapeInquiry_eq, hcompile]
    rfl
  | _ => rfl

/-- A proper request stays one, because numbers of constraints stay. -/
theorem Proper.completed {q : Request} (hq : w.Proper q)
    (hnew : ∀ d ∈ ds, w.schema.find? d.label = none) : (w.completed ds).Proper q := by
  cases q with
  | labelled node label => trivial
  | expression node e =>
    exact fun c hc => (hq c hc).imp_right (Schema.extends_completed hnew).constraints

end Setting

/-! ## What an answer rests on -/

namespace Schema

/-- What the answer of a compound expression rests on: an expression that works for it, or against
it (`false`). -/
inductive Below (s : Schema) : ShapeExpr → Bool → ShapeExpr → Prop
  | or {operands : List ShapeExpr} {e : ShapeExpr} (h : e ∈ operands) :
      Below s (.or operands) true e
  | and {operands : List ShapeExpr} {e : ShapeExpr} (h : e ∈ operands) :
      Below s (.and operands) true e
  | not {operand : ShapeExpr} : Below s (.not operand) false operand
  | value {shape : Shape} {f : Formula} {slots : List TripleConstraint} {t : TripleConstraint}
      {v : ShapeExpr} (hc : s.compile shape.expression = .ok (f, slots)) (ht : t ∈ slots)
      (hv : t.value = some v) : Below s (.shape shape) true v
  | inverse {shape : Shape} {f : Formula} {slots : List TripleConstraint} {t : TripleConstraint}
      {v : ShapeExpr} (hc : s.compile shape.expression = .ok (f, slots)) (ht : t ∈ slots)
      (hv : t.value = some v) (hinverse : t.inverse = true) : Below s (.shape shape) false v

/-- The expressions that the answer of a first one rests on, with the declarations that are referred
to; `false` if it is below an odd number of negations. -/
inductive Stands (s : Schema) (e₀ : ShapeExpr) : Bool → ShapeExpr → Prop
  | start : Stands s e₀ true e₀
  | within {sign sign' : Bool} {e c : ShapeExpr} (h : Stands s e₀ sign e) (hc : s.Below e sign' c) :
      Stands s e₀ (sign == sign') c
  | declared {sign : Bool} {label : Label} {index : Nat} {d : Declaration}
      (h : Stands s e₀ sign (.ref label)) (hl : s.find? label = some (index, d)) :
      Stands s e₀ sign d.expression

/-- What the answer of a compound expression rests on is an operand of it, or a value expression of
one of its slots. -/
theorem Below.embeds {s : Schema} {e c : ShapeExpr} {sign : Bool} (h : s.Below e sign c) :
    s.Embeds e c := by
  cases h with
  | or h => exact .child h
  | and h => exact .child h
  | not => exact .child (List.mem_singleton.2 rfl)
  | value hc ht hv => exact (expandsTo_of_compile hc).embeds ht hv
  | inverse hc ht hv _ => exact (expandsTo_of_compile hc).embeds ht hv

/-- In a schema without negation and without inverse triple constraints, nothing works against what
is asked for. -/
theorem Positive.stands {s : Schema} (h : s.Positive) {label : Label} {sign : Bool} {e : ShapeExpr}
    (hs : s.Stands (.ref label) sign e) :
    sign = true ∧ (e ∈ s.expressions ∨ ∃ label', e = .ref label') := by
  induction hs with
  | start => exact ⟨rfl, .inr ⟨label, rfl⟩⟩
  | @within sign sign' e c _ hc ih =>
    obtain ⟨rfl, hmem | ⟨label', rfl⟩⟩ := ih
    · have hsign : sign' = true := by
        cases hc with
        | not => cases h.expressions _ hmem
        | inverse hc ht _ hinverse =>
          rw [h.slots hmem (expandsTo_of_compile hc) _ ht] at hinverse
          cases hinverse
        | _ => rfl
      rw [hsign]
      exact ⟨rfl, .inl (s.closed_expressions.embeds e c hc.embeds hmem)⟩
    · cases hc
  | declared _ hl ih =>
    exact ⟨ih.1, .inl (declared_mem_expressions (mem_of_find? hl).1)⟩

end Schema

namespace Setting

variable {w : Setting} {e : ShapeExpr} {node : Term}

/-- A compound expression that holds still does if what works for it still holds where it did, and
what works against it held where it does. -/
theorem answer_imp (hc : e.isCompound) {holds holds' : ShapeExpr → Term → Bool}
    (hfor : ∀ c, w.schema.Below e true c → ∀ m, holds c m = true → holds' c m = true)
    (hagainst : ∀ c, w.schema.Below e false c → ∀ m, holds' c m = true → holds c m = true)
    {b : Bool} (h : (w.inquiry e node).answer holds = .ok true)
    (h' : (w.inquiry e node).answer holds' = .ok b) : b = true := by
  cases e with
  | or operands =>
    rw [inquiry, Inquiry.answer_anyInquiry] at h h'
    obtain ⟨c, hmem, htrue⟩ := List.any_eq_true.1 (Except.ok.inj h)
    rw [← Except.ok.inj h']
    exact List.any_eq_true.2 ⟨c, hmem, hfor c (.or hmem) node htrue⟩
  | and operands =>
    rw [inquiry, Inquiry.answer_allInquiry] at h h'
    have htrue := List.all_eq_true.1 (Except.ok.inj h)
    rw [← Except.ok.inj h']
    exact List.all_eq_true.2 fun c hmem => hfor c (.and hmem) node (htrue c hmem)
  | not operand =>
    have h : (!holds operand node) = true := Except.ok.inj h
    have h' : (!holds' operand node) = b := Except.ok.inj h'
    have himp := hagainst operand .not node
    rw [← h']
    cases hholds : holds' operand node with
    | false => rfl
    | true =>
      rw [himp hholds] at h
      cases h
  | shape shape =>
    obtain ⟨f, slots, hcompile, hiff⟩ := answer_shapeInquiry h
    obtain ⟨f', slots', hcompile', hiff'⟩ := answer_shapeInquiry h'
    cases hcompile.symm.trans hcompile'
    obtain ⟨shares, hs, hcounts⟩ := hiff.1 rfl
    refine hiff'.2 ⟨shares, hs.mono (fun t ht arc => ?_) (fun t ht hinverse arc => ?_), hcounts⟩
    · exact TripleConstraint.admits_mono fun v hv => hfor v (.value hcompile ht hv) _
    · exact TripleConstraint.admits_mono fun v hv => hagainst v (.inverse hcompile ht hv hinverse) _
  | external => cases h
  | node c => cases hc
  | ref label => cases hc

end Setting

/-! ## Two evaluations -/

section AtMost

variable {eval eval' : ShapeExpr → Term → Option (Except Failure Bool)}

/-- Where two functions both have an answer, what holds by the first one holds by the second one. -/
def AtMost (eval eval' : ShapeExpr → Term → Option (Except Failure Bool)) (e : ShapeExpr)
    (node : Term) : Prop :=
  ∀ b, eval e node = some (.ok true) → eval' e node = some (.ok b) → b = true

/-- What holds by the first function, and where it has no answer by the second one. -/
def holdsFirstBy (eval eval' : ShapeExpr → Term → Option (Except Failure Bool)) (e : ShapeExpr)
    (node : Term) : Bool :=
  match eval e node with
  | some (.ok b) => b
  | _ => holdsBy eval' e node

variable (eval') in
/-- Where the first function has an answer, the second one is not asked. -/
theorem holdsFirstBy_eq {e : ShapeExpr} {node : Term} {b : Bool} (h : eval e node = some (.ok b)) :
    holdsFirstBy eval eval' e node = b := by
  rw [holdsFirstBy, h]

/-- What holds by the first function, as far as it has an answer, holds by the second one and then
by the first. -/
theorem AtMost.holdsFirstBy {e : ShapeExpr} {node : Term} (h : AtMost eval eval' e node)
    (htrue : holdsFirstBy eval eval' e node = true) : holdsFirstBy eval' eval e node = true := by
  -- They differ only where both functions have an answer.
  unfold ShEx.holdsFirstBy holdsBy at htrue ⊢
  rcases he : eval e node with _ | failure | b <;> rcases he' : eval' e node with _ | failure' | b'
  all_goals
    rw [he, he'] at htrue
    first
      | exact htrue
      | cases htrue
  exact h b' he he'

/-- A compound expression holds by one of two functions if it does by the other, and both resolve
it. -/
theorem Setting.resolve_imp {w : Setting} {e : ShapeExpr} {node : Term} (hc : e.isCompound)
    (hfor : ∀ c, w.schema.Below e true c → ∀ m, AtMost eval eval' c m)
    (hagainst : ∀ c, w.schema.Below e false c → ∀ m, AtMost eval' eval c m) {b : Bool}
    (h : (w.inquiry e node).resolve eval = some (.ok true))
    (h' : (w.inquiry e node).resolve eval' = some (.ok b)) : b = true := by
  have hanswer := Inquiry.answer_of_resolve (fun _ _ _ _ hb => holdsFirstBy_eq eval' hb) h
  have hanswer' := Inquiry.answer_of_resolve (fun _ _ _ _ hb => holdsFirstBy_eq eval hb) h'
  exact answer_imp hc (fun c hb m => (hfor c hb m).holdsFirstBy)
    (fun c hb m => (hagainst c hb m).holdsFirstBy) hanswer hanswer'

end AtMost

namespace Setting

variable {w : Setting} {ds : List Declaration}

/-- What an expression is found to be anew goes up with more declarations where it stands below an
even number of negations, and down where below an odd one. -/
def ShiftsWith (w : Setting) (ds : List Declaration) (e₀ : ShapeExpr) (n : Nat)
    (begun : List (Nat × Term)) (e : ShapeExpr) (node : Term) : Prop :=
  (w.schema.Stands e₀ true e →
      AtMost (w.anew n begun) ((w.completed ds).anew n begun) e node) ∧
    (w.schema.Stands e₀ false e →
      AtMost ((w.completed ds).anew n begun) (w.anew n begun) e node)

/-- A compound expression shifts with what its answer rests on: in the same direction with what
works for it, and against what works against it. -/
theorem shiftsWith_compound (hnew : ∀ d ∈ ds, w.schema.find? d.label = none) {e₀ : ShapeExpr}
    {n : Nat} {begun : List (Nat × Term)} {e : ShapeExpr} (hc : e.isCompound)
    (ih : ∀ c m, w.ShiftsWith ds e₀ n begun c m) (node : Term) :
    w.ShiftsWith ds e₀ (n + 1) begun e node := by
  have hup : ∀ sign c, w.schema.Stands e₀ sign e → w.schema.Below e sign c → ∀ m,
      AtMost (w.anew n begun) ((w.completed ds).anew n begun) c m := by
    intro sign c hs hb m
    have hs' := hs.within hb
    rw [beq_self_eq_true] at hs'
    exact (ih c m).1 hs'
  have hdown : ∀ sign c, w.schema.Stands e₀ sign e → w.schema.Below e (!sign) c → ∀ m,
      AtMost ((w.completed ds).anew n begun) (w.anew n begun) c m := by
    intro sign c hs hb m
    have hs' := hs.within hb
    rw [Bool.beq_not_self] at hs'
    exact (ih c m).2 hs'
  unfold ShiftsWith AtMost
  simp only [anew_of_compound hc, inquiry_completed hnew]
  constructor
  · intro hs b h h'
    exact resolve_imp hc (fun c => hup true c hs) (fun c => hdown true c hs) h h'
  · intro hs b h h'
    exact resolve_imp hc (fun c => hdown false c hs) (fun c => hup false c hs) h h'

/-- A reference shifts with what is declared under it.  The labels of the further declarations are
answered false without them, and stand below even numbers of negations only. -/
theorem shiftsWith_ref (hnew : ∀ d ∈ ds, w.schema.find? d.label = none) {e₀ : ShapeExpr}
    (hds : ∀ d ∈ ds, ¬w.schema.Stands e₀ false (.ref d.label)) {n : Nat}
    (ih : ∀ begun e node, w.ShiftsWith ds e₀ n begun e node) (begun : List (Nat × Term))
    (label : Label) (node : Term) : w.ShiftsWith ds e₀ (n + 1) begun (.ref label) node := by
  unfold ShiftsWith AtMost
  cases hl : w.schema.find? label with
  | none =>
    rw [anew_of_unknown hl]
    constructor
    · intro _ b h
      cases h
    · intro hs b h
      have hl' : (w.completed ds).schema.find? label = none := by
        apply Schema.find?_completed_eq_none hl
        intro d hd heq
        rw [← heq] at hs
        exact hds d hd hs
      rw [anew_of_unknown hl'] at h
      cases h
  | some entry =>
    obtain ⟨index, d⟩ := entry
    have hl' : (w.completed ds).schema.find? label = some (index, d) :=
      (Schema.extends_completed hnew).find? hl
    rw [anew_of_known hl, anew_of_known hl']
    by_cases hbegun : (index, node) ∈ begun
    · rw [if_pos hbegun, if_pos hbegun]
      constructor <;>
      · intro _ b _ h'
        cases h'
        rfl
    rw [if_neg hbegun, if_neg hbegun]
    by_cases hd : d.isAbstract
    · rw [if_pos hd, if_pos hd]
      constructor <;>
      · intro _ b h
        cases h
    rw [if_neg hd, if_neg hd]
    have hbody := ih ((index, node) :: begun) d.expression node
    exact ⟨fun hs => hbody.1 (hs.declared hl), fun hs => hbody.2 (hs.declared hl)⟩

/-- What an expression is found to be anew without some declarations, and with them: the answers go
up where it stands below an even number of negations, and down elsewhere. -/
theorem anew_completed (hnew : ∀ d ∈ ds, w.schema.find? d.label = none) {e₀ : ShapeExpr}
    (hds : ∀ d ∈ ds, ¬w.schema.Stands e₀ false (.ref d.label)) (n : Nat)
    (begun : List (Nat × Term)) (e : ShapeExpr) (node : Term) :
    w.ShiftsWith ds e₀ n begun e node := by
  -- The induction is on the depth, for both signs at once, since a negation changes the sign.
  induction n generalizing begun e node with
  | zero =>
    constructor <;>
    · intro _ b h
      cases h
  | succ n ih =>
    by_cases hc : e.isCompound
    · exact shiftsWith_compound hnew hc (ih begun) node
    · cases e with
      | node c =>
        have heq : (w.completed ds).anew (n + 1) begun (.node c) node =
            w.anew (n + 1) begun (.node c) node := rfl
        unfold ShiftsWith AtMost
        rw [heq]
        constructor <;>
        · intro _ b h h'
          rw [h] at h'
          cases h'
          rfl
      | ref label => exact shiftsWith_ref hnew hds ih begun label node
      | _ => exact absurd rfl hc

/-- What a question without history is answered with, and what with some declarations more. -/
theorem returns_completed (hbuilt : w.schema.Built)
    (hnew : ∀ d ∈ ds, w.schema.find? d.label = none) {e : ShapeExpr} {node : Term}
    (hnum : e.NumberedIn w.schema) (hds : ∀ d ∈ ds, ¬w.schema.Stands e false (.ref d.label))
    (hfresh : ¬w.Stale ⟨e, node, .initial⟩) (hfresh' : ¬(w.completed ds).Stale ⟨e, node, .initial⟩)
    {b : Bool} {t u : Session} (h : w.Returns e node .initial (.ok true) t)
    (h' : (w.completed ds).Returns e node .initial (.ok b) u) : b = true := by
  have hext := Schema.extends_completed hnew
  have hnum' : e.NumberedIn (w.completed ds).schema :=
    fun c hc => (hnum c hc).imp_right hext.constraints
  have hyields := h.yields hbuilt.wellNumbered hfresh .start (Session.sound_initial w) hnum
  have hyields' := h'.yields (hbuilt.completed ds).wellNumbered hfresh' .start
    (Session.sound_initial _) hnum'
  obtain ⟨depth, hdeep⟩ | ⟨m, hm⟩ := hyields
  · cases hdeep
  obtain ⟨depth, hdeep⟩ | ⟨n, hn⟩ := hyields'
  · cases hdeep
  have hle := (anew_completed hnew hds (max m n) [] e node).1 .start
  exact hle b (anew_mono (Nat.le_max_left m n) hm) (anew_mono (Nat.le_max_right m n) hn)

end Setting

/-! ## Examples of missing declarations -/

/-- A declaration that holds everywhere. -/
def Declaration.anywhere (label : String) : Declaration :=
  ⟨.iri ⟨label⟩, false, .shape ⟨false, [], none, [], [], []⟩⟩

namespace Setting

/-- A declaration `A` on the circle. -/
def declaring (e : ShapeExpr) : Setting where
  schema := Schema.empty.addShape ⟨.iri ⟨"A"⟩, false, e⟩
  graph := circle
  listing := circle.asInserted
  limits := .standard

/-- A declaration `A` that asks for arcs `p` to nodes of its own and for arcs `q` to nodes of `B`,
which is missing; further arcs `q` are allowed. -/
def lacking : Setting where
  schema := Schema.empty.addShape ⟨.iri ⟨"A"⟩, false, .shape ⟨false, [⟨"q"⟩], some (.eachOf
    ⟨[.triple ⟨⟨"p"⟩, false, some (.ref (.iri ⟨"A"⟩)), .zeroOrMore, []⟩,
      .triple ⟨⟨"q"⟩, false, some (.ref (.iri ⟨"B"⟩)), .zeroOrMore, []⟩], none, []⟩), [], [], []⟩⟩
  graph := .ofList [⟨.iri ⟨"n"⟩, ⟨"p"⟩, .iri ⟨"m"⟩⟩, ⟨.iri ⟨"n"⟩, ⟨"q"⟩, .iri ⟨"m"⟩⟩,
    ⟨.iri ⟨"m"⟩, ⟨"p"⟩, .iri ⟨"k"⟩⟩]
  listing := Graph.asInserted _
  limits := .standard

/-- To the two declarations that refer to each other come one that asks for the second one as the
first does, and one of what holds where any of the three does; it asks for the second one beforehand
if `U` holds, which is missing. -/
def preceded : Setting where
  schema := (reciprocal.schema.addShape ⟨.iri ⟨"C"⟩, false, pointing "B"⟩).addShape
    ⟨.iri ⟨"L"⟩, false, .or [.and [.ref (.iri ⟨"U"⟩), pointing "B", .or []],
      .ref (.iri ⟨"A"⟩), .ref (.iri ⟨"C"⟩)]⟩
  graph := reciprocal.graph
  listing := reciprocal.listing
  limits := .standard

end Setting

/-! ## Requests -/

namespace Session

/-- Declarations of labels that a schema does not know are added. What a session without history
accepts before, one accepts after, or it does not answer: if no such label stands below an odd
number of negations, where the value expression of an inverse triple constraint counts in both ways.
Sessions that are stale are left aside; under a schema without recursion none is. -/
theorem respond_completed {w : Setting} (hbuilt : w.schema.Built) {ds : List Declaration}
    (hnew : ∀ d ∈ ds, w.schema.find? d.label = none) {q : Request} (hq : w.Proper q)
    (hds : ∀ e node, w.question? q = some (e, node) →
      ∀ d ∈ ds, ¬w.schema.Stands e false (.ref d.label))
    (hfresh : (w.completed ds).schema.Acyclic ∨ ∀ e node, w.question? q = some (e, node) →
      ¬w.Stale ⟨e, node, initial⟩ ∧ ¬(w.completed ds).Stale ⟨e, node, initial⟩)
    {b : Bool} {t u : Session} (h : initial.respond w q = some (.ok true, t))
    (h' : initial.respond (w.completed ds) q = some (.ok b, u)) : b = true := by
  have hext := Schema.extends_completed hnew
  rw [respond_eq_some_iff] at h h'
  rw [Setting.question?_completed hnew] at h'
  cases hquestion : w.question? q with
  | none =>
    rw [hquestion] at h
    have hstanding : w.standing ≠ .ok true := by
      unfold Setting.standing
      split <;> nofun
    exact absurd h.1.symm hstanding
  | some question =>
    obtain ⟨e, node⟩ := question
    rw [hquestion] at h h'
    have hnum := hq.numberedIn hquestion
    have hnot : ¬w.Stale ⟨e, node, initial⟩ ∧ ¬(w.completed ds).Stale ⟨e, node, initial⟩ := by
      rcases hfresh with hacyclic | hfresh
      · have hnum' := (hq.completed hnew).numberedIn
          ((Setting.question?_completed hnew q).trans hquestion)
        exact ⟨Setting.not_stale_of_acyclic hbuilt.wellNumbered (hext.acyclic hacyclic) hnum node,
          Setting.not_stale_of_acyclic (hbuilt.completed ds).wellNumbered hacyclic hnum' node⟩
      · exact hfresh e node hquestion
    exact Setting.returns_completed hbuilt hnew hnum (hds e node hquestion) hnot.1 hnot.2 h h'

/-- A declaration that refers to itself and to a missing one is accepted before and after. -/
theorem respond_completed_lacking : ∃ t b u, Setting.lacking.schema.Built ∧
    (∀ sign e, Setting.lacking.schema.Stands (.ref (.iri ⟨"A"⟩)) sign e → sign = true) ∧
    initial.respond .lacking (.named "n" "A") = some (.ok true, t) ∧
    initial.respond (.completed .lacking [⟨.iri ⟨"B"⟩, false, Setting.pointing "A"⟩])
      (.named "n" "A") = some (.ok b, u) ∧ b = true := by
  have hbuilt : Setting.lacking.schema.Built := Schema.Built.empty.addShape _
  have hpos : Setting.lacking.schema.Positive := Schema.positive_of_flat rfl rfl rfl
  have hnew : ∀ d ∈ [(⟨.iri ⟨"B"⟩, false, Setting.pointing "A"⟩ : Declaration)],
      Setting.lacking.schema.find? d.label = none := by
    intro d hd
    rw [List.mem_singleton.1 hd]
    rfl
  refine ⟨_, _, _, hbuilt, fun sign e hs => (hpos.stands hs).1, rfl, rfl,
    respond_completed hbuilt hnew (q := .named "n" "A") trivial ?_ (.inr ?_) rfl rfl⟩
  · intro e node hquestion d _ hs
    cases hquestion
    cases (hpos.stands hs).1
  · intro e node hquestion
    cases hquestion
    constructor
    · exact Setting.not_stale_initial hbuilt.wellNumbered (n := 9) (r := .ok true) rfl nofun
    · exact Setting.not_stale_initial (hbuilt.completed _).wellNumbered (n := 9) (r := .ok true)
        rfl nofun

/-- Three declarations that hold as long as one is missing: a negation of it, no incoming arcs from
where it holds, and one that rests on an answer that is found while another declaration is in
progress, and found before if the missing one holds. -/
theorem respond_completed_denied :
    (∃ t u, initial.respond (.declaring (.not (.ref (.iri ⟨"U"⟩)))) (.named "n" "A") =
        some (.ok true, t) ∧
      initial.respond (.completed (.declaring (.not (.ref (.iri ⟨"U"⟩)))) [.anywhere "U"])
        (.named "n" "A") = some (.ok false, u)) ∧
    (∃ t u, initial.respond (.declaring (.shape (.ofTriple
        ⟨⟨"p"⟩, true, some (.ref (.iri ⟨"U"⟩)), .exactly 0, []⟩))) (.named "n" "A") =
        some (.ok true, t) ∧
      initial.respond (.completed (.declaring (.shape (.ofTriple
        ⟨⟨"p"⟩, true, some (.ref (.iri ⟨"U"⟩)), .exactly 0, []⟩))) [.anywhere "U"])
        (.named "n" "A") = some (.ok false, u)) ∧
    ∃ t u, initial.respond .preceded (.named "a" "L") = some (.ok true, t) ∧
      initial.respond (.completed .preceded [.anywhere "U"]) (.named "a" "L") =
        some (.ok false, u) :=
  ⟨⟨_, _, rfl, rfl⟩, ⟨_, _, rfl, rfl⟩, _, _, rfl, rfl⟩

end Session

end ShEx
