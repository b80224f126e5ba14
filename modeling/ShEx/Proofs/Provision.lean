import ShEx.Proofs.Unfolding

/-!
# What an unfolding needs

The unfolding of a question needs other ones (`Setting.Needs`): a compound expression those that its
inquiry comes to, a reference that of its declaration.  A session provides for a question
(`Setting.Provides`) if it holds an answer to every declaration that is needed for it.

Where unfolding ends, an evaluation takes up answers only to declarations that its question needs,
and the session provides for all of them; if there is an answer, it provides for the question
(`ReturnsUpTo.provides`).  So what a session holds is complete, also after failures: a declaration
that fails is not needed by any that was settled before.
-/

set_option autoImplicit false

namespace ShEx

open ShEx.Rdf

variable {α : Type}

/-- The questions that an inquiry comes to if those before have certain answers. -/
def Inquiry.ComesTo (A : ShapeExpr → Term → Bool → Prop) : Inquiry α → ShapeExpr → Term → Prop
  | .done _, _, _ => False
  | .failed _, _, _ => False
  | .ask e node next, e', node' =>
    (e' = e ∧ node' = node) ∨ ∃ b, A e node b ∧ (next b).ComesTo A e' node'

namespace Setting

variable (w : Setting)

/-! ## Questions that unfolding comes to -/

/-- The unfolding of a question needs that of another one. -/
inductive Needs : ShapeExpr × Term → ShapeExpr × Term → Prop
  | compound {e e' : ShapeExpr} {node node' : Term} (h : e.isCompound)
      (hq : (w.inquiry e node).ComesTo (fun e node b => ∃ n, w.unfold n e node = some (.ok b))
        e' node') : Needs (e, node) (e', node')
  | declaration {label : Label} {node : Term} {index : Nat} {d : Declaration}
      (hl : w.schema.find? label = some (index, d)) (hd : d.isAbstract = false) :
      Needs (.ref label, node) (d.expression, node)

/-- A session holds an answer to every declaration that is needed for a question. -/
def Provides (s : Session) (x : ShapeExpr × Term) : Prop :=
  ∀ label index d node, w.schema.find? label = some (index, d) →
    Relation.ReflTransGen w.Needs x (.ref label, node) →
      ∃ b, s.declarations.answer? index node = some b

/-- A session provides for the declarations that it holds answers to, as far as their unfoldings are
of at most some depth. -/
def ProvidesUpTo (n : Nat) (s : Session) : Prop :=
  ∀ label index d node b r, w.schema.find? label = some (index, d) →
    s.declarations.answer? index node = some b → w.unfold n (.ref label) node = some r →
      w.Provides s (.ref label, node)

/-- A later state holds an answer to every declaration that an earlier one has an answer to, though
maybe not the same. -/
def HeldIn (s t : Session) : Prop :=
  ∀ label index d node b, w.schema.find? label = some (index, d) →
    s.declarations.answer? index node = some b → ∃ b', t.declarations.answer? index node = some b'

/-- The declarations that a later state holds an answer to and an earlier one does not are among
some questions, and the later state provides for them. -/
def Gains (Q : ShapeExpr × Term → Prop) (s t : Session) : Prop :=
  ∀ label index d node b, w.schema.find? label = some (index, d) →
    t.declarations.answer? index node = some b →
      (∃ b', s.declarations.answer? index node = some b') ∨
        Q (.ref label, node) ∧ w.Provides t (.ref label, node)

/-- An evaluation of a question with an unfolding of some depth, from a state that agrees with such
unfoldings. -/
structure ReturnsUpTo (n : Nat) (e : ShapeExpr) (node : Term) (s : Session)
    (r : Except Failure Bool) (t : Session) : Prop where
  returns : w.Returns e node s r t
  numbered : e.NumberedIn w.schema
  sound : s.Sound w
  agrees : w.AgreesUpTo n s
  unfolds : ∃ r₀, w.unfold n e node = some r₀

variable {w} {P Q : ShapeExpr × Term → Prop}

/-- Where an inquiry is concluded by a partial function, the function answers every question that
the inquiry comes to. -/
theorem exists_eval_of_comesTo {A : ShapeExpr → Term → Bool → Prop}
    {eval : ShapeExpr → Term → Option (Except Failure Bool)} {q : Inquiry α} {r : Except Failure α}
    (hA : ∀ e node b r, A e node b → eval e node = some r → r = .ok b)
    (hr : q.resolve eval = some r) {e : ShapeExpr} {node : Term} (h : q.ComesTo A e node) :
    ∃ r', eval e node = some r' := by
  induction q with
  | done a => exact h.elim
  | failed failure => exact h.elim
  | ask e₁ node₁ next ih =>
    rw [Inquiry.resolve] at hr
    cases he : eval e₁ node₁ with
    | none =>
      rw [he] at hr
      cases hr
    | some r₁ =>
      rcases h with ⟨rfl, rfl⟩ | ⟨b, hb, h⟩
      · exact ⟨r₁, he⟩
      · rw [he, hA e₁ node₁ b r₁ hb he] at hr
        exact ih b hr h

/-- What is needed unfolds if the question does. -/
theorem exists_unfold_of_needs {n : Nat} {x y : ShapeExpr × Term} (h : w.Needs x y)
    {r : Except Failure Bool} (hx : w.unfold n x.1 x.2 = some r) :
    ∃ r', w.unfold n y.1 y.2 = some r' := by
  cases n with
  | zero => cases hx
  | succ n =>
    have hy : ∃ r', w.unfold n y.1 y.2 = some r' := by
      cases h with
      | compound hc hq =>
        rw [unfold_of_compound hc] at hx
        refine exists_eval_of_comesTo (fun e node b r hb hr => ?_) hx hq
        obtain ⟨m, hm⟩ := hb
        exact unfold_unique hr hm
      | declaration hl hd =>
        rw [unfold_of_known hl, hd, if_neg Bool.false_ne_true] at hx
        exact ⟨r, hx⟩
    obtain ⟨r', hr'⟩ := hy
    exact ⟨r', unfold_mono (Nat.le_succ n) hr'⟩

/-- What is needed after several steps unfolds if the question does. -/
theorem exists_unfold_of_reflTransGen {n : Nat} {x y : ShapeExpr × Term}
    (h : Relation.ReflTransGen w.Needs x y) {r : Except Failure Bool}
    (hx : w.unfold n x.1 x.2 = some r) : ∃ r', w.unfold n y.1 y.2 = some r' := by
  induction h with
  | refl => exact ⟨r, hx⟩
  | tail _ hy ih =>
    obtain ⟨r', hr'⟩ := ih
    exact exists_unfold_of_needs hy hr'

/-! ## States that provide for what they hold -/

/-- A state that grows loses no answers. -/
theorem HeldIn.of_within {s t : Session} (h : s.Within t) : w.HeldIn s t :=
  fun _ index _ node b _ hb => ⟨b, h.declarations index node b hb⟩

/-- Holding an answer loses none to other declarations. -/
theorem HeldIn.hold {s t : Session} (index : Nat) (node : Term) (b : Bool)
    (h : t.declarations = s.declarations.hold index node b) : w.HeldIn s t := by
  intro label i d m b' hl hb'
  rw [h, Answers.answer?_hold]
  split
  · exact ⟨b, rfl⟩
  · exact ⟨b', hb'⟩

/-- What is provided for stays so as long as no answer is lost. -/
theorem Provides.mono {s t : Session} {x : ShapeExpr × Term} (h : w.Provides s x)
    (ht : w.HeldIn s t) : w.Provides t x := by
  intro label index d node hl hx
  obtain ⟨b, hb⟩ := h label index d node hl hx
  exact ht label index d node b hl hb

/-- Ending with a declaration, a session provides for it if it does for what stands there. -/
theorem Provides.settle {s : Session} {label : Label} {index : Nat} {d : Declaration} {node : Term}
    {b : Bool} (h : w.Provides s (d.expression, node))
    (hl : w.schema.find? label = some (index, d)) :
    w.Provides (s.settle index node b) (.ref label, node) := by
  intro label' index' d' node' hl' hx
  rcases Relation.ReflTransGen.cases_head hx with heq | ⟨y, hy, hx⟩
  · cases heq
    rw [hl] at hl'
    cases hl'
    refine ⟨b, ?_⟩
    rw [Session.answer?_settle, if_pos ⟨rfl, rfl⟩]
  · cases hy with
    | compound hc _ => cases hc
    | declaration hl₁ _ =>
      rw [hl] at hl₁
      cases hl₁
      exact h.mono (.hold index node b rfl) label' index' d' node' hl' hx

/-- A question that needs no other one and asks about no declaration is provided for. -/
theorem Provides.of_leaf {s : Session} {x : ShapeExpr × Term} (hx : ∀ y, ¬w.Needs x y)
    (hr : ∀ label node, x = (.ref label, node) → w.schema.find? label = none) :
    w.Provides s x := by
  intro label index d node hl h
  rcases Relation.ReflTransGen.cases_head h with heq | ⟨y, hy, -⟩
  · rw [hr label node heq] at hl
    cases hl
  · exact absurd hy (hx y)

/-- Providing for unfoldings of some depth is providing for less deep ones. -/
theorem ProvidesUpTo.mono {m n : Nat} (hle : m ≤ n) {s : Session} (h : w.ProvidesUpTo n s) :
    w.ProvidesUpTo m s :=
  fun label index d node b r hl hb hr => h label index d node b r hl hb (unfold_mono hle hr)

/-- Holding an answer to a declaration with a longer unfolding is no obligation. -/
theorem ProvidesUpTo.hold {n : Nat} {label : Label} {index : Nat} {d : Declaration} {node : Term}
    {s t : Session} {b : Bool} (h : w.ProvidesUpTo n s)
    (hl : w.schema.find? label = some (index, d)) (hn : w.unfold n (.ref label) node = none)
    (ht : t.declarations = s.declarations.hold index node b) : w.ProvidesUpTo n t := by
  intro label' index' d' node' b' r hl' hb hr
  rw [ht] at hb
  rcases Answers.answer?_hold_cases hb with ⟨⟨rfl, rfl⟩, -⟩ | ⟨-, hb⟩
  · rw [← Schema.label_unique hl hl', hn] at hr
    cases hr
  · exact (h label' index' d' node' b' r hl' hb hr).mono (.hold index node b ht)

/-- Nothing is lost if an answer is forgotten to a declaration that is not needed. -/
theorem Provides.forget {s t : Session} {x : ShapeExpr × Term} {label : Label} {index : Nat}
    {d : Declaration} {node : Term} (h : w.Provides s x)
    (hl : w.schema.find? label = some (index, d))
    (hx : ¬Relation.ReflTransGen w.Needs x (.ref label, node))
    (ht : t.declarations = s.declarations.forget index node) : w.Provides t x := by
  intro label' index' d' node' hl' hx'
  rw [ht, Answers.answer?_forget, if_neg]
  · exact h label' index' d' node' hl' hx'
  · rintro ⟨rfl, rfl⟩
    rw [Schema.label_unique hl hl'] at hx
    exact hx hx'

/-- Forgetting a declaration with a longer unfolding loses nothing that shorter unfoldings need. -/
theorem ProvidesUpTo.forget {n : Nat} {label : Label} {index : Nat} {d : Declaration} {node : Term}
    {s t : Session} (h : w.ProvidesUpTo n s) (hl : w.schema.find? label = some (index, d))
    (hn : w.unfold n (.ref label) node = none)
    (ht : t.declarations = s.declarations.forget index node) : w.ProvidesUpTo n t := by
  intro label' index' d' node' b r hl' hb hr
  rw [ht] at hb
  have hb := (Answers.answer?_forget_cases hb).2
  refine (h label' index' d' node' b r hl' hb hr).forget hl (fun hx => ?_) ht
  obtain ⟨r', hr'⟩ := exists_unfold_of_reflTransGen hx hr
  have hr' : w.unfold n (.ref label) node = some r' := hr'
  rw [hn] at hr'
  cases hr'

/-! ## New answers -/

/-- Where declarations have not changed, nothing is gained. -/
theorem Gains.of_eq {s t : Session} (h : t.declarations = s.declarations) : w.Gains Q s t := by
  intro label index d node b _ hb
  rw [h] at hb
  exact .inl ⟨b, hb⟩

/-- What is gained among some questions is gained among more of them. -/
theorem Gains.mono {s t : Session} (h : w.Gains P s t) (hPQ : ∀ x, P x → Q x) : w.Gains Q s t :=
  fun label index d node b hl hb => (h label index d node b hl hb).imp id (.imp (hPQ _) id)

/-- What the first of two evaluations gains is still provided for behind the second one. -/
theorem Gains.trans {s t u : Session} (h : w.Gains Q s t) (h' : w.Gains Q t u)
    (hu : w.HeldIn t u) : w.Gains Q s u := by
  intro label index d node b hl hb
  rcases h' label index d node b hl hb with ⟨b', hb'⟩ | hnew
  · exact (h label index d node b' hl hb').imp id (.imp id fun hp => hp.mono hu)
  · exact .inr hnew

/-- If a session provides for what it gains too, it provides for all that it holds. -/
theorem ProvidesUpTo.gains {n : Nat} {s t : Session} (h : w.ProvidesUpTo n s)
    (hgains : w.Gains Q s t) (ht : w.HeldIn s t) : w.ProvidesUpTo n t := by
  intro label index d node b r hl hb hr
  rcases hgains label index d node b hl hb with ⟨b', hb'⟩ | ⟨-, hp⟩
  · exact (h label index d node b' r hl hb' hr).mono ht
  · exact hp

/-- A declaration that ends is gained with what its expression gained, and is provided for. -/
theorem Gains.settle {s t : Session} {label : Label} {index : Nat} {d : Declaration} {node : Term}
    {b : Bool} (h : w.Gains P (s.enter index node) t)
    (hl : w.schema.find? label = some (index, d)) (hPQ : ∀ x, P x → Q x)
    (hself : Q (.ref label, node)) (hp : w.Provides t (d.expression, node)) :
    w.Gains Q s (t.settle index node b) := by
  intro label' index' d' node' b' hl' hb
  rcases Answers.answer?_hold_cases hb with ⟨⟨rfl, rfl⟩, -⟩ | ⟨hne, hb⟩
  · rw [← Schema.label_unique hl hl']
    exact .inr ⟨hself, hp.settle hl⟩
  · rcases h label' index' d' node' b' hl' hb with ⟨b₁, hb₁⟩ | ⟨hx, hp⟩
    · rw [Session.answer?_enter, if_neg hne] at hb₁
      exact .inl ⟨b₁, hb₁⟩
    · exact .inr ⟨hPQ _ hx, hp.mono (.hold index node b rfl)⟩

/-- A declaration that fails is lost again; nothing else that was gained needs it. -/
theorem Gains.abandon {s t : Session} {label : Label} {index : Nat} {d : Declaration} {node : Term}
    (h : w.Gains P (s.enter index node) t) (hl : w.schema.find? label = some (index, d))
    (hPQ : ∀ x, P x → Q x ∧ ¬Relation.ReflTransGen w.Needs x (.ref label, node)) :
    w.Gains Q s (t.abandon index node) := by
  intro label' index' d' node' b' hl' hb
  obtain ⟨hne, hb⟩ := Answers.answer?_forget_cases hb
  rcases h label' index' d' node' b' hl' hb with ⟨b₁, hb₁⟩ | ⟨hx, hp⟩
  · rw [Session.answer?_enter, if_neg hne] at hb₁
    exact .inl ⟨b₁, hb₁⟩
  · exact .inr ⟨(hPQ _ hx).1, hp.forget hl (hPQ _ hx).2 rfl⟩

/-! ## Evaluations where unfolding ends -/

namespace ReturnsUpTo

variable {n : Nat} {e : ShapeExpr} {node : Term} {s t : Session} {r : Except Failure Bool}

/-- An evaluation loses no answers. -/
theorem heldIn (h : w.ReturnsUpTo n e node s r t) : w.HeldIn s t := .of_within h.returns.within

/-- A result is the one that unfolding gives, unless it is too deep in recursion. -/
theorem unfold_eq_of_not_tooDeep (hw : WellNumbered w.schema.constraints)
    (h : w.ReturnsUpTo n e node s r t) (hr : ¬TooDeep r) : w.unfold n e node = some r := by
  obtain ⟨r₀, hr₀⟩ := h.unfolds
  rw [hr₀, (Returns.of_unfold hw n hr₀ h.numbered h.returns h.sound h.agrees).1.eq hr]

/-- An answer is the one that unfolding gives. -/
theorem unfold_eq (hw : WellNumbered w.schema.constraints) {b : Bool}
    (h : w.ReturnsUpTo n e node s (.ok b) t) : w.unfold n e node = some (.ok b) :=
  h.unfold_eq_of_not_tooDeep hw (not_tooDeep_ok b)

/-- An evaluation leaves a state that agrees with unfoldings again. -/
theorem agrees_after (hw : WellNumbered w.schema.constraints) (h : w.ReturnsUpTo n e node s r t) :
    t.Sound w ∧ w.AgreesUpTo n t := by
  obtain ⟨r₀, hr₀⟩ := h.unfolds
  have hmatches := Returns.of_unfold hw n hr₀ h.numbered h.returns h.sound h.agrees
  exact ⟨h.returns.sound hw h.numbered h.sound, h.agrees.adds hmatches.2⟩

/-- Where the unfolding of an inquiry ends, the unfoldings of its questions do. -/
theorem of_follows (hw : WellNumbered w.schema.constraints) {q : Inquiry α}
    {r r₀ : Except Failure α} (hq : ∀ e node, q.Mentions e node → e.NumberedIn w.schema)
    (h : q.Follows w.Returns s r t) (hr₀ : q.resolve (w.unfold n) = some r₀) (hs : s.Sound w)
    (ha : w.AgreesUpTo n s) : q.Follows (w.ReturnsUpTo n) s r t := by
  induction q generalizing s with
  | done a => exact h
  | failed failure => exact h
  | ask e node next ih =>
    rw [Inquiry.resolve] at hr₀
    cases he : w.unfold n e node with
    | none =>
      rw [he] at hr₀
      cases hr₀
    | some r₁ =>
      rw [he] at hr₀
      have hnum := hq e node (.inl ⟨rfl, rfl⟩)
      rcases h with ⟨b, u, hb, hrest⟩ | ⟨failure, hf, rfl⟩
      · have hb : w.ReturnsUpTo n e node s (.ok b) u := ⟨hb, hnum, hs, ha, r₁, he⟩
        cases he.symm.trans (hb.unfold_eq hw)
        obtain ⟨hu, hau⟩ := hb.agrees_after hw
        exact .inl ⟨b, u, hb, ih b (fun e' node' hm => hq e' node' (.inr ⟨b, hm⟩)) hrest hr₀ hu hau⟩
      · exact .inr ⟨failure, ⟨hf, hnum, hs, ha, r₁, he⟩, rfl⟩

/-- The questions of a compound expression have unfoldings of a depth less. -/
theorem follows (hw : WellNumbered w.schema.constraints) (hc : e.isCompound)
    (h : w.ReturnsUpTo (n + 1) e node s r t) :
    (w.inquiry e node).Follows (w.ReturnsUpTo n) s r t := by
  obtain ⟨r₀, hr₀⟩ := h.unfolds
  rw [unfold_of_compound hc] at hr₀
  have hnum : ∀ e' node', (w.inquiry e node).Mentions e' node' → e'.NumberedIn w.schema :=
    fun e' node' hm => h.numbered.mentions hc hm
  cases returns_iff.1 h.returns with
  | compound _ hq => exact of_follows hw hnum hq hr₀ h.sound (h.agrees.mono (Nat.le_succ n))
  | _ => cases hc

/-- The unfolding of a declaration in progress is longer than that of what it stands for. -/
theorem exists_body {label : Label} {index : Nat} {d : Declaration} {u : Session}
    {r' : Except Failure Bool} (h : w.ReturnsUpTo n (.ref label) node s r t)
    (hent : w.Enters label node s index d)
    (hr : w.Returns d.expression node (s.enter index node) r' u) :
    ∃ k < n, w.unfold k (.ref label) node = none ∧
      w.ReturnsUpTo k d.expression node (s.enter index node) r' u := by
  obtain ⟨r₀, hr₀⟩ := h.unfolds
  obtain ⟨k, hk, hshort, hnone⟩ := exists_shortest_unfold hr₀
  rw [unfold_of_known hent.known, hent.concrete, if_neg Bool.false_ne_true] at hshort
  exact ⟨k, hk, hnone, hr, ShapeExpr.numberedIn_of_find? hent.known, h.sound.enter index node,
    (h.agrees.mono hk.le).hold hent.known hnone rfl, r₀, hshort⟩

/-- An inquiry takes up answers to what it comes to, and the session provides for that. -/
theorem follows_provides (hw : WellNumbered w.schema.constraints) {q : Inquiry α}
    {r : Except Failure α}
    (hR : ∀ e node s r t, w.ReturnsUpTo n e node s r t → w.ProvidesUpTo n s →
      w.Gains (Relation.ReflTransGen w.Needs (e, node)) s t ∧
        ∀ b, r = .ok b → w.Provides t (e, node))
    (h : q.Follows (w.ReturnsUpTo n) s r t) (hs : w.ProvidesUpTo n s) :
    w.Gains (fun y => ∃ e node,
      q.ComesTo (fun e node b => ∃ n, w.unfold n e node = some (.ok b)) e node ∧
        Relation.ReflTransGen w.Needs (e, node) y) s t ∧
      ∀ a, r = .ok a → ∀ e node,
        q.ComesTo (fun e node b => ∃ n, w.unfold n e node = some (.ok b)) e node →
          w.Provides t (e, node) := by
  induction q generalizing s with
  | done a =>
    obtain ⟨-, rfl⟩ := h
    exact ⟨.of_eq rfl, fun _ _ _ _ hc => hc.elim⟩
  | failed failure =>
    obtain ⟨-, rfl⟩ := h
    exact ⟨.of_eq rfl, fun _ _ _ _ hc => hc.elim⟩
  | ask e node next ih =>
    rcases h with ⟨b, u, hb, hrest⟩ | ⟨failure, hf, rfl⟩
    · obtain ⟨hgains, hprovides⟩ := hR _ _ _ _ _ hb hs
      obtain ⟨hgains', hprovides'⟩ := ih b hrest (hs.gains hgains hb.heldIn)
      have hunfold := hb.unfold_eq hw
      have hheld : w.HeldIn u t :=
        .of_within (follows_keeps (fun _ _ _ _ _ h => h.returns.keeps) hrest).1
      refine ⟨.trans (hgains.mono fun y hy => ?_) (hgains'.mono fun y hy => ?_) hheld, ?_⟩
      · exact ⟨e, node, .inl ⟨rfl, rfl⟩, hy⟩
      · obtain ⟨e', node', hc, hy⟩ := hy
        exact ⟨e', node', .inr ⟨b, ⟨n, hunfold⟩, hc⟩, hy⟩
      · rintro a rfl e' node' (⟨rfl, rfl⟩ | ⟨b', ⟨m, hm⟩, hc⟩)
        · exact (hprovides b rfl).mono hheld
        · cases unfold_unique hunfold hm
          exact hprovides' a rfl e' node' hc
    · obtain ⟨hgains, -⟩ := hR _ _ _ _ _ hf hs
      exact ⟨hgains.mono fun y hy => ⟨e, node, .inl ⟨rfl, rfl⟩, hy⟩, fun a ha => by cases ha⟩

/-- Where unfolding ends, an evaluation takes up answers to what its question needs, and the session
provides for them, and for the question if it has an answer. -/
theorem provides (hw : WellNumbered w.schema.constraints) (h : w.ReturnsUpTo n e node s r t)
    (hs : w.ProvidesUpTo n s) : w.Gains (Relation.ReflTransGen w.Needs (e, node)) s t ∧
      ∀ b, r = .ok b → w.Provides t (e, node) := by
  -- The induction is on the depth of unfolding, which is smaller for the body of a declaration.
  induction n using Nat.strong_induction_on generalizing e node s t r with
  | _ n ih =>
    cases n with
    | zero =>
      obtain ⟨r₀, hr₀⟩ := h.unfolds
      cases hr₀
    | succ n =>
      cases returns_iff.1 h.returns with
      | compound hc _ =>
        obtain ⟨hgains, hprovides⟩ := follows_provides hw
          (fun _ _ _ _ _ h hs => ih n (Nat.lt_succ_self n) h hs) (h.follows hw hc)
          (hs.mono (Nat.le_succ n))
        refine ⟨hgains.mono fun y hy => ?_, fun b hb => ?_⟩
        · obtain ⟨e', node', hq, hy⟩ := hy
          exact .head (.compound hc hq) hy
        · intro label index d node' hl hx
          rcases Relation.ReflTransGen.cases_head hx with heq | ⟨y, hy, hx⟩
          · cases heq
            cases hc
          · cases hy with
            | compound _ hq => exact hprovides b hb _ _ hq label index d node' hl hx
            | declaration _ _ => cases hc
      | constraint hcon =>
        obtain ⟨-, -, heq⟩ :=
          evaluateConstraint_sound hw (h.numbered _ (List.mem_singleton.2 rfl)) h.sound hcon
        refine ⟨.of_eq heq, fun b _ => .of_leaf (fun y hy => ?_) fun _ _ hx => by cases hx⟩
        cases hy with
        | compound hc _ => cases hc
      | unknown hl =>
        refine ⟨.of_eq rfl, fun b _ => .of_leaf (fun y hy => ?_) fun label _ hx => ?_⟩
        · cases hy with
          | compound hc _ => cases hc
          | declaration hl' _ =>
            rw [hl] at hl'
            cases hl'
        · cases hx
          exact hl
      | held hl hb =>
        obtain ⟨r₀, hr₀⟩ := h.unfolds
        exact ⟨.of_eq rfl, fun _ _ => hs _ _ _ _ _ _ hl hb hr₀⟩
      | refused _ _ _ => exact ⟨.of_eq rfl, nofun⟩
      | tooDeep _ _ _ _ => exact ⟨.of_eq rfl, nofun⟩
      | settled hent hr =>
        obtain ⟨k, hk, hnone, hbody⟩ := h.exists_body hent hr
        obtain ⟨hgains, hprovides⟩ := ih k hk hbody ((hs.mono hk.le).hold hent.known hnone rfl)
        refine ⟨hgains.settle hent.known (fun x hx => ?_) .refl (hprovides _ rfl), fun b _ => ?_⟩
        · exact .head (.declaration hent.known hent.concrete) hx
        · exact (hprovides _ rfl).settle hent.known
      | @abandoned label _ _ u index d f hent hr =>
        obtain ⟨k, hk, hnone, hbody⟩ := h.exists_body hent hr
        obtain ⟨hgains, -⟩ := ih k hk hbody ((hs.mono hk.le).hold hent.known hnone rfl)
        refine ⟨hgains.abandon hent.known fun x hx => ⟨?_, fun hback => ?_⟩, nofun⟩
        · exact .head (.declaration hent.known hent.concrete) hx
        · -- What the body needs has shorter unfoldings than the declaration itself.
          obtain ⟨r₀, hr₀⟩ := hbody.unfolds
          obtain ⟨r₁, hr₁⟩ := exists_unfold_of_reflTransGen (hx.trans hback) hr₀
          have hr₁ : w.unfold k (.ref label) node = some r₁ := hr₁
          rw [hnone] at hr₁
          cases hr₁

end ReturnsUpTo

end Setting

end ShEx
