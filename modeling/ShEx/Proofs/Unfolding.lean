import ShEx.Proofs.Conservation
import ShEx.Proofs.Numbering

/-!
# Answers by unfolding alone

`Setting.unfold` evaluates an expression as a session does, in the same order and up to the same
failures, but keeps nothing and counts nothing: a reference is its declaration, each time anew.  On
expressions that lead back to themselves it does not end.

Where unfolding ends, it is what a session answers, unless the session is too deep in recursion
(`Returns.of_unfold`).  It is enough that the answers which the session holds agree with unfolding
as far as that is as short as the question at hand (`AgreesUpTo`): what stands for a declaration in
progress is asked for by no shorter unfolding than its own.  And the session takes up no other
answer than those that unfolding gives (`Adds`).
-/

set_option autoImplicit false

namespace ShEx

open ShEx.Rdf

variable {α : Type}

/-- The conclusion of an inquiry whose questions are answered by a partial function. -/
def Inquiry.resolve (eval : ShapeExpr → Term → Option (Except Failure Bool)) :
    Inquiry α → Option (Except Failure α)
  | .done a => some (.ok a)
  | .failed failure => some (.error failure)
  | .ask e node next =>
    match eval e node with
    | none => none
    | some (.ok b) => (next b).resolve eval
    | some (.error failure) => some (.error failure)

/-- An inquiry that is resolved by a partial function is resolved by every extension of it, in the
same way. -/
theorem Inquiry.resolve_mono {eval eval' : ShapeExpr → Term → Option (Except Failure Bool)}
    (h : ∀ e node r, eval e node = some r → eval' e node = some r) {q : Inquiry α}
    {r : Except Failure α} (hq : q.resolve eval = some r) : q.resolve eval' = some r := by
  induction q with
  | done a => exact hq
  | failed failure => exact hq
  | ask e node next ih =>
    rw [resolve] at hq ⊢
    cases he : eval e node with
    | none =>
      rw [he] at hq
      cases hq
    | some result =>
      rw [he] at hq
      rw [h e node result he]
      cases result with
      | ok b => exact ih b hq
      | error failure => exact hq

/-- A result is that there are too many declarations in progress. -/
def TooDeep (r : Except Failure α) : Prop := ∃ depth, r = .error (.recursionTooDeep depth)

/-- An evaluation ends with a result, or too deep in recursion. -/
def EndsWith (r₀ r : Except Failure α) : Prop :=
  r = r₀ ∨ ∃ depth, r = .error (.recursionTooDeep depth)

/-- An evaluation that ends with an answer does not end too deep. -/
theorem EndsWith.eq_of_ok {r₀ : Except Failure α} {a : α} (h : EndsWith r₀ (.ok a)) :
    r₀ = .ok a := by
  rcases h with h | ⟨depth, h⟩
  · exact h.symm
  · cases h

/-- An evaluation that does not end too deep ends with the result that it may end with. -/
theorem EndsWith.eq {r₀ r : Except Failure α} (h : EndsWith r₀ r) (hr : ¬TooDeep r) : r₀ = r :=
  (h.resolve_right hr).symm

/-- An answer is not the report of too deep a recursion. -/
theorem not_tooDeep_ok (a : α) : ¬TooDeep (.ok a) := nofun

/-- If its questions end with the answers of a partial function, an inquiry ends with the conclusion
from them. -/
theorem Inquiry.Follows.endsWith {R : Answering} {I : Session → Prop}
    {eval : ShapeExpr → Term → Option (Except Failure Bool)} {q : Inquiry α} {s t : Session}
    {r₀ r : Except Failure α} (h : q.Follows R s r t)
    (hR : ∀ e node r₁, q.Mentions e node → eval e node = some r₁ → ∀ u v r, R e node u r v → I u →
      EndsWith r₁ r ∧ I v) (hr₀ : q.resolve eval = some r₀) (hs : I s) : EndsWith r₀ r ∧ I t := by
  induction q generalizing s with
  | done a =>
    obtain ⟨rfl, rfl⟩ := h
    cases hr₀
    exact ⟨.inl rfl, hs⟩
  | failed failure =>
    obtain ⟨rfl, rfl⟩ := h
    cases hr₀
    exact ⟨.inl rfl, hs⟩
  | ask e node next ih =>
    rw [resolve] at hr₀
    cases he : eval e node with
    | none =>
      rw [he] at hr₀
      cases hr₀
    | some result =>
      rw [he] at hr₀
      have hask := hR e node result (.inl ⟨rfl, rfl⟩) he
      rcases h with ⟨b, u, hb, hrest⟩ | ⟨failure, hf, rfl⟩
      · obtain ⟨hres, hu⟩ := hask _ _ _ hb hs
        rw [hres.eq_of_ok] at hr₀
        exact ih b hrest (fun e' node' r₁ hm => hR e' node' r₁ (.inr ⟨b, hm⟩)) hr₀ hu
      · obtain ⟨hres, hu⟩ := hask _ _ _ hf hs
        refine ⟨?_, hu⟩
        rcases hres with hres | ⟨depth, hres⟩
        · cases hres
          cases hr₀
          exact .inl rfl
        · cases hres
          exact .inr ⟨depth, rfl⟩

/-- The constraints of what an expression embeds have no number either, or belong to the schema. -/
theorem ShapeExpr.NumberedIn.embeds {s : Schema} {e c : ShapeExpr} (h : e.NumberedIn s)
    (hc : s.Embeds e c) : c.NumberedIn s := by
  cases hc with
  | child hc => exact fun x hx => h x (ShapeExpr.child_constraints hc hx)
  | expanded _ _ _ hlabel ht hv =>
    have hentry := Schema.mem_of_tripleExpression? hlabel
    exact fun x hx => .inr (Schema.mem_constraints.2 (.inr (.inl
      ⟨_, hentry, TripleExpr.value_constraints ht hv hx⟩)))

/-- The constraints inside a compound expression of a schema are numbered, and so are those of all
that it asks about. -/
theorem ShapeExpr.NumberedIn.mentions {w : Setting} {e e' : ShapeExpr} {node node' : Term}
    (h : e.NumberedIn w.schema) (hc : e.isCompound) (hm : (w.inquiry e node).Mentions e' node') :
    e'.NumberedIn w.schema :=
  h.embeds (Setting.embeds_of_mentions hc hm).1

/-- The constraints inside a declaration are constraints of the schema. -/
theorem ShapeExpr.numberedIn_of_declared {s : Schema} {d : Declaration} (h : d ∈ s.declarations) :
    d.expression.NumberedIn s :=
  fun _ hx => .inr (Schema.mem_constraints.2 (.inl ⟨d, h, hx⟩))

/-- The constraints inside what a label stands for are constraints of the schema. -/
theorem ShapeExpr.numberedIn_of_find? {s : Schema} {label : Label} {index : Nat} {d : Declaration}
    (h : s.find? label = some (index, d)) : d.expression.NumberedIn s :=
  numberedIn_of_declared (Schema.mem_of_find? h).1

/-- A number of a declaration belongs to one label. -/
theorem Schema.label_of_find? {s : Schema} {label : Label} {index : Nat} {d : Declaration}
    (h : s.find? label = some (index, d)) : d.label = label ∧ s.declaration? index = some d := by
  obtain ⟨hindex, hd⟩ := find?_eq_some_iff.1 h
  have hlabel := label_of_declarationIndex? hindex
  rw [hd, Option.map_some] at hlabel
  exact ⟨Option.some.inj hlabel, hd⟩

/-- Two labels of the same number are the same. -/
theorem Schema.label_unique {s : Schema} {label label' : Label} {index : Nat} {d d' : Declaration}
    (h : s.find? label = some (index, d)) (h' : s.find? label' = some (index, d')) :
    label = label' := by
  obtain ⟨h1, h2⟩ := label_of_find? h
  obtain ⟨h3, h4⟩ := label_of_find? h'
  rw [h2] at h4
  cases h4
  exact h1.symm.trans h3

namespace Setting

variable (w : Setting)

/-- Does an expression hold at a node?  References are unfolded at most so deep. -/
def unfold : Nat → ShapeExpr → Term → Option (Except Failure Bool)
  | 0, _, _ => none
  | _ + 1, .node c, node => some (w.constraintAnswer c node)
  | n + 1, .ref label, node =>
    match w.schema.find? label with
    | none => some (.ok false)
    | some (_, d) =>
      if d.isAbstract then some (.error (.notImplemented .abstractShapes))
      else unfold n d.expression node
  | n + 1, e, node => (w.inquiry e node).resolve (unfold n)

variable {w}

/-- A compound expression is unfolded by the unfoldings of what it asks about. -/
theorem unfold_of_compound {n : Nat} {e : ShapeExpr} {node : Term} (h : e.isCompound) :
    w.unfold (n + 1) e node = (w.inquiry e node).resolve (w.unfold n) := by
  cases e with
  | node c => cases h
  | ref label => cases h
  | _ => rfl

/-- A reference is unfolded by unfolding what is declared, unless that is abstract. -/
theorem unfold_of_known {n : Nat} {label : Label} {node : Term} {index : Nat} {d : Declaration}
    (h : w.schema.find? label = some (index, d)) : w.unfold (n + 1) (.ref label) node =
      if d.isAbstract then some (.error (.notImplemented .abstractShapes))
      else w.unfold n d.expression node := by
  rw [unfold, h]

/-- Unfolding deeper does not change an answer. -/
theorem unfold_mono {m n : Nat} (hle : m ≤ n) {e : ShapeExpr} {node : Term}
    {r : Except Failure Bool} (h : w.unfold m e node = some r) : w.unfold n e node = some r := by
  induction m generalizing n e node r with
  | zero => cases h
  | succ m ih =>
    obtain ⟨n, rfl⟩ : ∃ k, n = k + 1 := ⟨n - 1, by omega⟩
    have hle : m ≤ n := Nat.le_of_succ_le_succ hle
    by_cases hc : e.isCompound
    · rw [unfold_of_compound hc] at h ⊢
      exact Inquiry.resolve_mono (fun _ _ _ hr => ih hle hr) h
    · cases e with
      | node c => exact h
      | ref label =>
        cases hl : w.schema.find? label with
        | none =>
          rw [unfold, hl] at h ⊢
          exact h
        | some entry =>
          rw [unfold_of_known hl] at h ⊢
          split at h
          · next hd =>
            rw [if_pos hd]
            exact h
          · next hd =>
            rw [if_neg hd]
            exact ih hle h
      | _ => exact absurd rfl hc

/-- An unfolding without an end at some depth has none at a smaller one. -/
theorem unfold_eq_none_of_le {m n : Nat} (hle : m ≤ n) {e : ShapeExpr} {node : Term}
    (h : w.unfold n e node = none) : w.unfold m e node = none := by
  cases hm : w.unfold m e node with
  | none => rfl
  | some r =>
    rw [unfold_mono hle hm] at h
    cases h

/-- Unfolding gives one answer only. -/
theorem unfold_unique {m n : Nat} {e : ShapeExpr} {node : Term} {r r' : Except Failure Bool}
    (h : w.unfold m e node = some r) (h' : w.unfold n e node = some r') : r = r' := by
  have hm := unfold_mono (Nat.le_max_left m n) h
  have hn := unfold_mono (Nat.le_max_right m n) h'
  rw [hm] at hn
  cases hn
  rfl

/-- A question whose unfolding ends has a shortest one. -/
theorem exists_shortest_unfold {n : Nat} {e : ShapeExpr} {node : Term} {r : Except Failure Bool}
    (h : w.unfold n e node = some r) :
    ∃ k < n, w.unfold (k + 1) e node = some r ∧ w.unfold k e node = none := by
  induction n with
  | zero => cases h
  | succ n ih =>
    cases hn : w.unfold n e node with
    | none => exact ⟨n, Nat.lt_succ_self n, h, hn⟩
    | some r' =>
      rw [unfold_unique hn h] at hn
      obtain ⟨k, hk, hrest⟩ := ih hn
      exact ⟨k, Nat.lt_succ_of_lt hk, hrest⟩

/-! ## Held answers and unfolding -/

variable (w)

/-- The answers that a session holds about declarations agree with unfoldings of at most some
depth. -/
def AgreesUpTo (n : Nat) (s : Session) : Prop :=
  ∀ label index d node b r, w.schema.find? label = some (index, d) →
    s.declarations.answer? index node = some b → w.unfold n (.ref label) node = some r → r = .ok b

/-- The answers about declarations that a later state holds and an earlier one does not are those
that unfolding gives. -/
def Adds (s t : Session) : Prop :=
  ∀ label index d node b, w.schema.find? label = some (index, d) →
    t.declarations.answer? index node = some b → s.declarations.answer? index node = some b ∨
      ∃ n, w.unfold n (.ref label) node = some (.ok b)

variable {w}

/-- A state adds nothing to itself. -/
theorem Adds.refl (s : Session) : w.Adds s s := fun _ _ _ _ _ _ h => .inl h

/-- What is added in two steps is added in one. -/
theorem Adds.trans {s t u : Session} (h : w.Adds s t) (h' : w.Adds t u) : w.Adds s u := by
  intro label index d node b hl hb
  rcases h' label index d node b hl hb with hb | hb
  · exact h label index d node b hl hb
  · exact .inr hb

/-- With the same answers nothing is added. -/
theorem Adds.of_eq {s t : Session} (h : t.declarations = s.declarations) : w.Adds s t := by
  intro label index d node b _ hb
  rw [h] at hb
  exact .inl hb

/-- Answers that unfolding gives agree with every unfolding, so adding them keeps agreement. -/
theorem AgreesUpTo.adds {n : Nat} {s t : Session} (h : w.AgreesUpTo n s) (ht : w.Adds s t) :
    w.AgreesUpTo n t := by
  intro label index d node b r hl hb hr
  rcases ht label index d node b hl hb with hb | ⟨m, hm⟩
  · exact h label index d node b r hl hb hr
  · exact unfold_unique hr hm

/-- Agreement with unfoldings at some depth is agreement at smaller ones. -/
theorem AgreesUpTo.mono {m n : Nat} (hle : m ≤ n) {s : Session} (h : w.AgreesUpTo n s) :
    w.AgreesUpTo m s :=
  fun label index d node b r hl hb hr => h label index d node b r hl hb (unfold_mono hle hr)

/-- What is held about a declaration whose own unfolding is longer does not matter. -/
theorem AgreesUpTo.hold {n : Nat} {label : Label} {index : Nat} {d : Declaration} {node : Term}
    {s t : Session} {b : Bool} (h : w.AgreesUpTo n s)
    (hl : w.schema.find? label = some (index, d)) (hn : w.unfold n (.ref label) node = none)
    (ht : t.declarations = s.declarations.hold index node b) : w.AgreesUpTo n t := by
  intro label' index' d' node' b' r hl' hb hr
  rw [ht] at hb
  rcases Answers.answer?_hold_cases hb with ⟨⟨rfl, rfl⟩, -⟩ | ⟨-, hb⟩
  · rw [← Schema.label_unique hl hl', hn] at hr
    cases hr
  · exact h label' index' d' node' b' r hl' hb hr

/-- Ending with a declaration whose answer unfolding gives adds that answer. -/
theorem Adds.settle {label : Label} {index : Nat} {d : Declaration} {node : Term} {s t : Session}
    {b : Bool} {n : Nat} (hl : w.schema.find? label = some (index, d))
    (hn : w.unfold n (.ref label) node = some (.ok b)) (h : w.Adds (s.enter index node) t) :
    w.Adds s (t.settle index node b) := by
  intro label' index' d' node' b' hl' hb
  rcases Answers.answer?_hold_cases hb with ⟨⟨rfl, rfl⟩, rfl⟩ | ⟨hne, hb⟩
  · rw [← Schema.label_unique hl hl']
    exact .inr ⟨n, hn⟩
  · refine (h label' index' d' node' b' hl' hb).imp_left fun hb => ?_
    rwa [Session.answer?_enter, if_neg hne] at hb

/-- Ending without an answer adds none. -/
theorem Adds.abandon {index : Nat} {node : Term} {s t : Session}
    (h : w.Adds (s.enter index node) t) : w.Adds s (t.abandon index node) := by
  intro label' index' d' node' b' hl' hb
  obtain ⟨hne, hb⟩ := Answers.answer?_forget_cases hb
  refine (h label' index' d' node' b' hl' hb).imp_left fun hb => ?_
  rwa [Session.answer?_enter, if_neg hne] at hb

/-! ## Sessions answer what unfolding gives -/

variable (w)

/-- An evaluation of some question, begun in a state, ends as unfolding does or too deep in
recursion, and adds only answers that unfolding gives. -/
def Matches (r₀ : Except Failure Bool) (s : Session) (r : Except Failure Bool) (t : Session) :
    Prop :=
  EndsWith r₀ r ∧ w.Adds s t

/-- Every evaluation of a question with an unfolding of some depth matches it, if what is held is
sound and agrees with unfoldings of that depth. -/
def UnfoldsUpTo (n : Nat) : Prop :=
  ∀ {e : ShapeExpr} {node : Term} {r₀ : Except Failure Bool}, w.unfold n e node = some r₀ →
    e.NumberedIn w.schema → ∀ {s t : Session} {r : Except Failure Bool}, w.Returns e node s r t →
      s.Sound w → w.AgreesUpTo n s → w.Matches r₀ s r t

variable {w}

/-- What a session keeps about constraints and patterns stays right, whatever is evaluated. -/
theorem conserves_sound (hw : WellNumbered w.schema.constraints) :
    w.Conserves (·.NumberedIn w.schema) (·.Sound w) where
  embeds _ _ h he := he.embeds h
  declared _ := ShapeExpr.numberedIn_of_declared
  constraint _ _ _ _ _ he hc hs :=
    (evaluateConstraint_sound hw (he _ (List.mem_singleton.2 rfl)) hs hc).2.1
  congr s t hconstraints hpatterns hs := by
    refine ⟨?_, ?_⟩
    · rw [hpatterns]
      exact hs.patterns
    · rw [hconstraints]
      exact hs.constraints

/-- What a session keeps about constraints and patterns stays right. -/
theorem Returns.sound (hw : WellNumbered w.schema.constraints) {e : ShapeExpr} {node : Term}
    {s t : Session} {r : Except Failure Bool} (h : w.Returns e node s r t)
    (he : e.NumberedIn w.schema) (hs : s.Sound w) : t.Sound w :=
  (conserves_sound hw).returns h he hs

/-- Where unfolding ends, a session answers what it gives or is too deep in recursion. -/
theorem Returns.of_unfold (hw : WellNumbered w.schema.constraints) (n : Nat) :
    w.UnfoldsUpTo n := by
  induction n using Nat.strong_induction_on with
  | _ n ih =>
    intro e node r₀ hr₀ hnum s t r h hs ha
    cases n with
    | zero => cases hr₀
    | succ n =>
      -- The declaration of a reference is unfolded no further than it needs.
      have hbody : ∀ {label : Label} {index : Nat} {d : Declaration},
          w.unfold (n + 1) (.ref label) node = some r₀ → w.Enters label node s index d →
          ∀ {r : Except Failure Bool} {u : Session},
            w.Returns d.expression node (s.enter index node) r u →
              w.Matches r₀ (s.enter index node) r u ∧
                ∃ m, w.unfold m (.ref label) node = some r₀ := by
        intro label index d hr₀ hent r u hr
        obtain ⟨k, hk, hshort, hnone⟩ := exists_shortest_unfold hr₀
        have hbody : w.unfold k d.expression node = some r₀ := by
          rwa [unfold_of_known hent.known, hent.concrete, if_neg Bool.false_ne_true] at hshort
        exact ⟨ih k hk hbody (ShapeExpr.numberedIn_of_find? hent.known) hr (hs.enter index node)
          ((ha.mono hk.le).hold hent.known hnone rfl), k + 1, hshort⟩
      cases returns_iff.1 h with
      | compound hc hq =>
        rw [unfold_of_compound hc] at hr₀
        obtain ⟨h1, -, -, h2⟩ := hq.endsWith
          (I := fun u => u.Sound w ∧ w.AgreesUpTo n u ∧ w.Adds s u)
          (fun e' node' r' hm hr' u v r'' hv ⟨hu, hagree, hadds⟩ => by
            have he := hnum.mentions hc hm
            obtain ⟨h1, h2⟩ := ih n (Nat.lt_succ_self n) hr' he hv hu hagree
            exact ⟨h1, hv.sound hw he hu, hagree.adds h2, hadds.trans h2⟩)
          hr₀ ⟨hs, ha.mono (Nat.le_succ n), .refl s⟩
        exact ⟨h1, h2⟩
      | constraint hc =>
        obtain ⟨h1, -, h3⟩ :=
          evaluateConstraint_sound hw (hnum _ (List.mem_singleton.2 rfl)) hs hc
        cases hr₀
        exact ⟨.inl h1, .of_eq h3⟩
      | unknown hl =>
        rw [unfold, hl] at hr₀
        cases hr₀
        exact ⟨.inl rfl, .refl _⟩
      | held hl hb => exact ⟨.inl (ha _ _ _ _ _ _ hl hb hr₀).symm, .refl _⟩
      | refused hl _ hd =>
        rw [unfold_of_known hl, if_pos hd] at hr₀
        cases hr₀
        exact ⟨.inl rfl, .refl _⟩
      | tooDeep _ _ _ _ => exact ⟨.inr ⟨_, rfl⟩, .refl _⟩
      | settled hent hr =>
        obtain ⟨⟨h1, h2⟩, m, hm⟩ := hbody hr₀ hent hr
        rw [h1.eq_of_ok] at hm
        exact ⟨h1, h2.settle hent.known hm⟩
      | abandoned hent hr =>
        obtain ⟨⟨h1, h2⟩, -⟩ := hbody hr₀ hent hr
        exact ⟨h1, h2.abandon⟩

end Setting

end ShEx
