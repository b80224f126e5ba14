import ShEx.Proofs.Acyclic

/-!
# Evaluating anew

`Setting.anew` evaluates an expression as a session does, except that no answer is given again: each
time that a declaration is asked for, it is evaluated, unless it is in progress at the node.  Then
it is taken to hold.  What is evaluated so is a function of the expression, the node and the
declarations in progress; what was asked before does not matter.

A session answers as it would anew or is too deep in recursion (`Returns.yields`), unless it is
`Stale`: it gives an answer again that it would not find anew, because it was found while other
declarations were in progress.  It is not stale where unfolding ends (`not_stale_of_unfold`).
-/

set_option autoImplicit false

namespace ShEx

open ShEx.Rdf

variable {α : Type}

namespace Inquiry

/-- An inquiry whose questions are answered by one of a growing family of functions, or too deep in
recursion, is resolved by one of them or ends so. -/
theorem Follows.resolves {eval : Nat → ShapeExpr → Term → Option (Except Failure Bool)}
    (hmono : ∀ m n, m ≤ n → ∀ e node r, eval m e node = some r → eval n e node = some r)
    {q : Inquiry α} {s t : Session} {r : Except Failure α}
    (h : q.Follows (fun e node _ r _ => TooDeep r ∨ ∃ n, eval n e node = some r) s r t) :
    TooDeep r ∨ ∃ n, q.resolve (eval n) = some r := by
  induction q generalizing s with
  | done a => exact .inr ⟨0, congrArg some h.1.symm⟩
  | failed failure => exact .inr ⟨0, congrArg some h.1.symm⟩
  | ask e node next ih =>
    rcases h with ⟨b, u, hb, hrest⟩ | ⟨failure, hf, rfl⟩
    · rcases hb with ⟨depth, hb⟩ | ⟨m, hm⟩
      · cases hb
      refine (ih b hrest).imp_right ?_
      rintro ⟨n, hn⟩
      refine ⟨max m n, ?_⟩
      rw [resolve, hmono m _ (Nat.le_max_left m n) e node _ hm]
      exact resolve_mono (hmono n _ (Nat.le_max_right m n)) hn
    · rcases hf with ⟨depth, hf⟩ | ⟨n, hn⟩
      · cases hf
        exact .inl ⟨depth, rfl⟩
      · refine .inr ⟨n, ?_⟩
        rw [resolve, hn]

/-- What an inquiry comes to is answered by a partial function that resolves it, if the answers on
the way are those of the function. -/
theorem Reaches.resolved {R : Answering} {I : Session → Prop}
    {eval : ShapeExpr → Term → Option (Except Failure Bool)} {q : Inquiry α} {s t : Session}
    {e : ShapeExpr} {node : Term} (h : q.Reaches R s e node t)
    (hR : ∀ e node r₁, q.Mentions e node → eval e node = some r₁ → ∀ u v r, R e node u r v → I u →
      EndsWith r₁ r ∧ I v) {r₀ : Except Failure α} (hr₀ : q.resolve eval = some r₀) (hs : I s) :
    (∃ r, eval e node = some r) ∧ I t := by
  induction q generalizing s with
  | done a => exact h.elim
  | failed failure => exact h.elim
  | ask e' node' next ih =>
    rw [resolve] at hr₀
    cases he : eval e' node' with
    | none =>
      rw [he] at hr₀
      cases hr₀
    | some result =>
      rw [he] at hr₀
      rcases h with ⟨rfl, rfl, rfl⟩ | ⟨b, u, hb, hrest⟩
      · exact ⟨⟨result, he⟩, hs⟩
      · obtain ⟨hres, hu⟩ := hR e' node' result (.inl ⟨rfl, rfl⟩) he _ _ _ hb hs
        rw [hres.eq_of_ok] at hr₀
        exact ih b hrest (fun e node r₁ hm => hR e node r₁ (.inr ⟨b, hm⟩)) hr₀ hu

end Inquiry

namespace Setting

variable (w : Setting)

/-- Does an expression hold at a node while some declarations are in progress at nodes?  References
are followed at most so deep. -/
def anew : Nat → List (Nat × Term) → ShapeExpr → Term → Option (Except Failure Bool)
  | 0, _, _, _ => none
  | _ + 1, _, .node c, node => some (w.constraintAnswer c node)
  | n + 1, begun, .ref label, node =>
    match w.schema.find? label with
    | none => some (.ok false)
    | some (index, d) =>
      if (index, node) ∈ begun then some (.ok true)
      else if d.isAbstract then some (.error (.notImplemented .abstractShapes))
      else anew n ((index, node) :: begun) d.expression node
  | n + 1, begun, e, node => (w.inquiry e node).resolve (anew n begun)

/-- A result is found anew while some declarations are in progress at nodes. -/
def Yields (begun : List (Nat × Term)) (e : ShapeExpr) (node : Term) (r : Except Failure Bool) :
    Prop :=
  ∃ n, w.anew n begun e node = some r

/-- The evaluation of a first question gives an answer again that it would not find anew. -/
def Stale (q₀ : Question) : Prop :=
  ∃ begun label index d node s b, w.schema.find? label = some (index, d) ∧
    w.Amid q₀ begun ⟨.ref label, node, s⟩ ∧ (index, node) ∉ begun ∧
    s.declarations.answer? index node = some b ∧ ¬w.Yields begun (.ref label) node (.ok b)

variable {w}

/-- A compound expression asks its questions anew, while the same declarations are in progress. -/
theorem anew_of_compound {n : Nat} {begun : List (Nat × Term)} {e : ShapeExpr} {node : Term}
    (h : e.isCompound) : w.anew (n + 1) begun e node =
      (w.inquiry e node).resolve (w.anew n begun) := by
  cases e with
  | node c => cases h
  | ref label => cases h
  | _ => rfl

/-- An unknown declaration holds nowhere. -/
theorem anew_of_unknown {n : Nat} {begun : List (Nat × Term)} {label : Label} {node : Term}
    (h : w.schema.find? label = none) : w.anew (n + 1) begun (.ref label) node =
      some (.ok false) := by
  rw [anew, h]

/-- A declaration in progress at the node is taken to hold there; any other one is followed, and is
in progress from then on. -/
theorem anew_of_known {n : Nat} {begun : List (Nat × Term)} {label : Label} {node : Term}
    {index : Nat} {d : Declaration} (h : w.schema.find? label = some (index, d)) :
    w.anew (n + 1) begun (.ref label) node =
      if (index, node) ∈ begun then some (.ok true)
      else if d.isAbstract then some (.error (.notImplemented .abstractShapes))
      else w.anew n ((index, node) :: begun) d.expression node := by
  rw [anew, h]

/-- Where an evaluation begins with a declaration, so does finding the answer anew. -/
theorem anew_of_enters {n : Nat} {begun : List (Nat × Term)} {label : Label} {node : Term}
    {s : Session} {index : Nat} {d : Declaration} (he : w.Enters label node s index d)
    (hbegun : (index, node) ∉ begun) : w.anew (n + 1) begun (.ref label) node =
      w.anew n ((index, node) :: begun) d.expression node := by
  rw [anew_of_known he.known, if_neg hbegun, he.concrete, if_neg Bool.false_ne_true]

/-- Following references deeper does not change an answer. -/
theorem anew_mono {m n : Nat} (hle : m ≤ n) {begun : List (Nat × Term)} {e : ShapeExpr}
    {node : Term} {r : Except Failure Bool} (h : w.anew m begun e node = some r) :
    w.anew n begun e node = some r := by
  induction m generalizing n begun e node r with
  | zero => cases h
  | succ m ih =>
    obtain ⟨n, rfl⟩ : ∃ k, n = k + 1 := ⟨n - 1, by omega⟩
    have hle : m ≤ n := Nat.le_of_succ_le_succ hle
    by_cases hc : e.isCompound
    · rw [anew_of_compound hc] at h ⊢
      exact Inquiry.resolve_mono (fun _ _ _ hr => ih hle hr) h
    · cases e with
      | node c => exact h
      | ref label =>
        cases hl : w.schema.find? label with
        | none =>
          rw [anew_of_unknown hl] at h ⊢
          exact h
        | some entry =>
          rw [anew_of_known hl] at h ⊢
          split at h
          · next hbegun =>
            rw [if_pos hbegun]
            exact h
          · next hbegun =>
            rw [if_neg hbegun]
            split at h
            · next hd =>
              rw [if_pos hd]
              exact h
            · next hd =>
              rw [if_neg hd]
              exact ih hle h
      | _ => exact absurd rfl hc

/-- A session that is not stale answers as it would anew, or is too deep in recursion. -/
theorem Returns.yields (hw : WellNumbered w.schema.constraints) {q₀ : Question}
    (hfresh : ¬w.Stale q₀) {e : ShapeExpr} {node : Term} {s t : Session} {r : Except Failure Bool}
    (h : w.Returns e node s r t) {begun : List (Nat × Term)}
    (hamid : w.Amid q₀ begun ⟨e, node, s⟩) (hsound : s.Sound w) (hnum : e.NumberedIn w.schema) :
    TooDeep r ∨ w.Yields begun e node r := by
  refine h.induct (motive := fun e node s r _ => ∀ begun, w.Amid q₀ begun ⟨e, node, s⟩ →
      s.Sound w → e.NumberedIn w.schema → TooDeep r ∨ w.Yields begun e node r)
    (fun e node s r t hstep begun hamid hsound hnum => ?_) begun hamid hsound hnum
  have hbody : ∀ {label index d}, w.Amid q₀ begun ⟨.ref label, node, s⟩ →
      w.Enters label node s index d →
      (∀ begun, w.Amid q₀ begun ⟨d.expression, node, s.enter index node⟩ →
        (s.enter index node).Sound w → d.expression.NumberedIn w.schema →
          TooDeep r ∨ w.Yields begun d.expression node r) →
      TooDeep r ∨ w.Yields begun (.ref label) node r := by
    intro label index d hamid he ih
    have hd := ShapeExpr.numberedIn_of_find? he.known
    refine (ih _ (hamid.declaration he) (hsound.enter index node) hd).imp_right ?_
    rintro ⟨n, hn⟩
    exact ⟨n + 1, (anew_of_enters he (hamid.not_begun he.unanswered)).trans hn⟩
  cases hstep with
  | compound hc hq =>
    have hmentions : ∀ e' m, (w.inquiry e node).Mentions e' m → e'.NumberedIn w.schema :=
      fun e' m hm => hnum.mentions hc hm
    have hcourse := hq.course (I := Session.Sound w) (fun _ _ _ _ _ hR => hR.1)
      (fun _ _ _ _ _ hR hn hs => hR.1.sound hw hn hs) hmentions hsound
    have hquestions : (w.inquiry e node).Follows
        (fun e' m _ r _ => TooDeep r ∨ w.Yields begun e' m r) s r t := by
      refine hcourse.mono fun e' m s' r v hR => ?_
      obtain ⟨⟨-, ih⟩, hreach, hs, -⟩ := hR
      exact ih begun (hamid.compound hc hreach) hs (hmentions e' m hreach.mentions)
    have hmono : ∀ m n, m ≤ n → ∀ e node r, w.anew m begun e node = some r →
        w.anew n begun e node = some r := fun _ _ hle _ _ _ hr => anew_mono hle hr
    refine (Inquiry.Follows.resolves hmono hquestions).imp_right ?_
    rintro ⟨n, hn⟩
    exact ⟨n + 1, (anew_of_compound hc).trans hn⟩
  | @constraint c _ _ _ _ hc =>
    obtain ⟨hr, -⟩ := evaluateConstraint_sound hw (hnum c (List.mem_singleton.2 rfl)) hsound hc
    exact .inr ⟨1, congrArg some hr.symm⟩
  | unknown hl => exact .inr ⟨1, anew_of_unknown hl⟩
  | @held label _ _ index d b hl ha =>
    by_cases hbegun : (index, node) ∈ begun
    · have hb := hamid.answered index node hbegun
      cases ha.symm.trans hb
      refine .inr ⟨1, ?_⟩
      rw [anew_of_known hl, if_pos hbegun]
    · -- An answer that is not found anew would make the session stale.
      by_contra hnone
      exact hfresh ⟨begun, label, index, d, node, s, b, hl, hamid, hbegun, ha,
        fun hyields => hnone (.inr hyields)⟩
  | refused hl ha hd =>
    have hbegun := hamid.not_begun ha
    refine .inr ⟨1, ?_⟩
    rw [anew_of_known hl, if_neg hbegun, if_pos hd]
  | tooDeep _ _ _ _ => exact .inl ⟨_, rfl⟩
  | settled he hr => exact hbody hamid he hr.2
  | abandoned he hr => exact hbody hamid he hr.2

/-! ## Where unfolding ends -/

/-- Where unfolding ends, its answer is found anew, if it is that of no declaration in progress. -/
theorem anew_of_unfold {k : Nat} {begun : List (Nat × Term)} {e : ShapeExpr} {node : Term}
    {r : Except Failure Bool} (h : w.unfold k e node = some r)
    (hbegun : ∀ label index d m, w.schema.find? label = some (index, d) → (index, m) ∈ begun →
      w.unfold k (.ref label) m = none) : w.anew k begun e node = some r := by
  induction k using Nat.strong_induction_on generalizing begun e node r with
  | _ k ih =>
    cases k with
    | zero => cases h
    | succ k =>
      by_cases hc : e.isCompound
      · rw [unfold_of_compound hc] at h
        rw [anew_of_compound hc]
        refine Inquiry.resolve_mono (fun e' m r' hr' => ?_) h
        refine ih k (Nat.lt_succ_self k) hr' fun label index d m hl hmem => ?_
        exact unfold_eq_none_of_le (Nat.le_succ k) (hbegun label index d m hl hmem)
      · cases e with
        | node c => exact h
        | ref label =>
          cases hl : w.schema.find? label with
          | none =>
            rw [unfold, hl] at h
            rw [anew_of_unknown hl]
            exact h
          | some entry =>
            obtain ⟨index, d⟩ := entry
            have hnot : (index, node) ∉ begun := by
              intro hmem
              rw [hbegun label index d node hl hmem] at h
              cases h
            rw [anew_of_known hl, if_neg hnot]
            -- The declaration is in progress now, so its unfolding is not to be longer than needed.
            obtain ⟨j, hj, hshort, hnone⟩ := exists_shortest_unfold h
            rw [unfold_of_known hl] at hshort
            split at hshort
            · next hd =>
              rw [if_pos hd]
              exact hshort
            · next hd =>
              rw [if_neg hd]
              refine anew_mono (Nat.le_of_lt_succ hj)
                (ih j hj hshort fun label' i d' m hl' hmem => ?_)
              rcases List.mem_cons.1 hmem with heq | hmem
              · cases heq
                rwa [← Schema.label_unique hl hl']
              · exact unfold_eq_none_of_le hj.le (hbegun label' i d' m hl' hmem)
        | _ => exact absurd rfl hc

/-- Where unfolding ends, no session is stale that begins with answers as unfolding gives them. -/
theorem not_stale_of_unfold (hw : WellNumbered w.schema.constraints) {n : Nat} {q₀ : Question}
    {r₀ : Except Failure Bool} (h : w.unfold n q₀.expression q₀.node = some r₀)
    (hnum : q₀.expression.NumberedIn w.schema) (hsound : q₀.state.Sound w)
    (hagree : w.AgreesUpTo n q₀.state) : ¬w.Stale q₀ := by
  -- What is asked on the way has an unfolding, and those of declarations in progress are longer.
  have key : ∀ {begun : List (Nat × Term)} {q : Question}, w.Amid q₀ begun q →
      ∃ k r, w.unfold k q.expression q.node = some r ∧ q.expression.NumberedIn w.schema ∧
        q.state.Sound w ∧ w.AgreesUpTo k q.state ∧
        ∀ label index d m, w.schema.find? label = some (index, d) → (index, m) ∈ begun →
          w.unfold k (.ref label) m = none := by
    intro begun q hamid
    induction hamid with
    | start => exact ⟨n, r₀, h, hnum, hsound, hagree, fun _ _ _ _ _ hmem => nomatch hmem⟩
    | @compound e e' node node' s t begun _ hc hreach ih =>
      obtain ⟨k, r, hk, hnum, hsound, hagree, hbegun⟩ := ih
      cases k with
      | zero => cases hk
      | succ k =>
        have hk : (w.inquiry e node).resolve (w.unfold k) = some r := by
          rwa [← unfold_of_compound hc]
        obtain ⟨⟨r', hr'⟩, hsound', hagree'⟩ := hreach.resolved
          (I := fun u => u.Sound w ∧ w.AgreesUpTo k u)
          (fun e' m r₁ hm hr₁ u v r hv hu => by
            have he := hnum.mentions hc hm
            obtain ⟨hends, hadds⟩ := Returns.of_unfold hw k hr₁ he hv hu.1 hu.2
            exact ⟨hends, hv.sound hw he hu.1, hu.2.adds hadds⟩)
          hk ⟨hsound, hagree.mono (Nat.le_succ k)⟩
        refine ⟨k, r', hr', hnum.mentions hc hreach.mentions, hsound', hagree',
          fun label index d m hl hmem => ?_⟩
        exact unfold_eq_none_of_le (Nat.le_succ k) (hbegun label index d m hl hmem)
    | @declaration label node s index d begun _ he ih =>
      obtain ⟨k, r, hk, -, hsound, hagree, hbegun⟩ := ih
      obtain ⟨j, hj, hshort, hnone⟩ := exists_shortest_unfold hk
      have hbody : w.unfold j d.expression node = some r := by
        rwa [unfold_of_known he.known, he.concrete, if_neg Bool.false_ne_true] at hshort
      refine ⟨j, r, hbody, ShapeExpr.numberedIn_of_find? he.known, hsound.enter _ _,
        (hagree.mono hj.le).hold he.known hnone rfl, fun label' i d' m hl' hmem => ?_⟩
      rcases List.mem_cons.1 hmem with heq | hmem
      · cases heq
        rwa [← Schema.label_unique he.known hl']
      · exact unfold_eq_none_of_le hj.le (hbegun label' i d' m hl' hmem)
  rintro ⟨begun, label, index, d, node, s, b, hl, hamid, -, ha, hnever⟩
  obtain ⟨k, r, hk, -, -, hagree, hbegun⟩ := key hamid
  rw [hagree label index d node b r hl ha hk] at hk
  exact hnever ⟨k, anew_of_unfold hk hbegun⟩

/-- A session without history is not stale where unfolding ends. -/
theorem not_stale_initial (hw : WellNumbered w.schema.constraints) {n : Nat} {e : ShapeExpr}
    {node : Term} {r : Except Failure Bool} (h : w.unfold n e node = some r)
    (hnum : e.NumberedIn w.schema) : ¬w.Stale ⟨e, node, .initial⟩ := by
  refine not_stale_of_unfold hw h hnum (Session.sound_initial w) ?_
  intro label index d m b r' _ hb
  cases hb

/-- Under a schema without recursion no session without history is stale. -/
theorem not_stale_of_acyclic (hw : WellNumbered w.schema.constraints) (h : w.schema.Acyclic)
    {e : ShapeExpr} (hnum : e.NumberedIn w.schema) (node : Term) :
    ¬w.Stale ⟨e, node, .initial⟩ := by
  obtain ⟨n, r, hn⟩ := exists_unfold h e node
  exact not_stale_initial hw hn hnum

end Setting

end ShEx
