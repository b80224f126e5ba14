import ShEx.Proofs.Unending

/-!
# Sessions with a head start

A session has a head start before another one if it holds answers that the other one has to look
for, all of them given by unfolding.  Where the other one comes to a result, an answer or a failure,
it comes to the same one, unless the other one is too deep in recursion; and it gets no deeper for
that: it holds what the other one takes up meanwhile, as it provides for what it holds
(`ReturnsUpTo.headStart`).  Where unfolding does not end, both have to hold the same answers
(`Leads`), as far as the question leads to them (`Returns.leads`).

A session that forgets its answers to declarations without an end of unfolding
(`Session.withoutOpen`) leads before a fresh one.
-/

set_option autoImplicit false

namespace ShEx

open ShEx.Rdf

variable {α : Type}

/-- What questions can do from related states, an inquiry can, and behind an answer the states are
related again. -/
theorem Inquiry.Follows.simulate {R R' : Answering} {I : Session → Session → Prop} {q : Inquiry α}
    (hR : ∀ e node, q.Mentions e node → ∀ s' r t', R e node s' r t' → ¬TooDeep r → ∀ s, I s s' →
      ∃ t, R' e node s r t ∧ ∀ b, r = .ok b → I t t')
    {s s' t' : Session} {r : Except Failure α} (h : q.Follows R s' r t') (hr : ¬TooDeep r)
    (hs : I s s') : ∃ t, q.Follows R' s r t ∧ ∀ a, r = .ok a → I t t' := by
  induction q generalizing s s' with
  | done a' =>
    obtain ⟨ha, rfl⟩ := h
    exact ⟨s, ⟨ha, rfl⟩, fun _ _ => hs⟩
  | failed failure =>
    obtain ⟨hf, rfl⟩ := h
    exact ⟨s, ⟨hf, rfl⟩, fun _ _ => hs⟩
  | ask e node next ih =>
    rcases h with ⟨b, u', hb, hrest⟩ | ⟨failure, hf, rfl⟩
    · obtain ⟨u, hu, hI⟩ := hR e node (.inl ⟨rfl, rfl⟩) _ _ _ hb (not_tooDeep_ok b) _ hs
      obtain ⟨t, ht, hI⟩ := ih b (fun e' node' hm => hR e' node' (.inr ⟨b, hm⟩)) hrest (hI b rfl)
      exact ⟨t, .inl ⟨b, u, hu, ht⟩, hI⟩
    · have hfailure : ¬TooDeep (.error failure : Except Failure Bool) := by
        rintro ⟨depth, hdepth⟩
        cases hdepth
        exact hr ⟨depth, rfl⟩
      obtain ⟨t, ht, -⟩ := hR e node (.inl ⟨rfl, rfl⟩) _ _ _ hf hfailure _ hs
      exact ⟨t, .inr ⟨failure, ht, rfl⟩, nofun⟩

namespace Setting

variable (w : Setting)

/-- A session agrees with unfoldings of at most some depth, and provides for what they need. -/
structure ReliableUpTo (n : Nat) (s : Session) : Prop where
  sound : s.Sound w
  agrees : w.AgreesUpTo n s
  provides : w.ProvidesUpTo n s

/-- A session has a head start before another one, as far as unfoldings of at most some depth are
concerned. -/
structure HeadStart (n : Nat) (s s' : Session) : Prop where
  ahead : w.ReliableUpTo n s
  behind : w.ReliableUpTo n s'
  depth : s.depth = s'.depth
  held : w.HeldIn s' s

variable {w}

/-- What can be relied on for unfoldings of some depth can be relied on for less deep ones. -/
theorem ReliableUpTo.mono {m n : Nat} (hle : m ≤ n) {s : Session} (h : w.ReliableUpTo n s) :
    w.ReliableUpTo m s :=
  ⟨h.sound, h.agrees.mono hle, h.provides.mono hle⟩

/-- A declaration in progress is taken to hold; this is against no unfolding of a depth in which it
does not end. -/
theorem ReliableUpTo.enter {n : Nat} {s : Session} (h : w.ReliableUpTo n s) {label : Label}
    {index : Nat} {d : Declaration} {node : Term} (hl : w.schema.find? label = some (index, d))
    (hn : w.unfold n (.ref label) node = none) : w.ReliableUpTo n (s.enter index node) :=
  ⟨h.sound.enter index node, h.agrees.hold hl hn rfl, h.provides.hold hl hn rfl⟩

/-- A declaration whose unfolding fails is not answered. -/
theorem ReliableUpTo.unanswered {n : Nat} {s : Session} (h : w.ReliableUpTo n s) {label : Label}
    {index : Nat} {d : Declaration} {node : Term} (hl : w.schema.find? label = some (index, d))
    {failure : Failure} (hn : w.unfold n (.ref label) node = some (.error failure)) :
    s.declarations.answer? index node = none := by
  cases hb : s.declarations.answer? index node with
  | none => rfl
  | some b => cases h.agrees label index d node b _ hl hb hn

/-- An evaluation that can be relied on ends with a session of that kind, if what is held at the
beginning provides for what it needs. -/
theorem ReturnsUpTo.reliableUpTo (hw : WellNumbered w.schema.constraints) {n : Nat} {e : ShapeExpr}
    {node : Term} {s t : Session} {r : Except Failure Bool} (h : w.ReturnsUpTo n e node s r t)
    (hs : w.ProvidesUpTo n s) : w.ReliableUpTo n t := by
  obtain ⟨hsound, hagrees⟩ := h.agrees_after hw
  exact ⟨hsound, hagrees, hs.gains (h.provides hw hs).1 h.heldIn⟩

/-- Both sessions hold an answer more to one declaration. -/
theorem HeldIn.hold_both {s s' t t' : Session} (h : w.HeldIn s' s) {index : Nat} {node : Term}
    {b : Bool} (ht : t.declarations = s.declarations.hold index node b)
    (ht' : t'.declarations = s'.declarations.hold index node b) : w.HeldIn t' t := by
  intro label i d m b' hl hb'
  rw [ht'] at hb'
  rw [ht, Answers.answer?_hold]
  rcases Answers.answer?_hold_cases hb' with ⟨heq, -⟩ | ⟨hne, hb'⟩
  · exact ⟨b, if_pos heq⟩
  · rw [if_neg hne]
    exact h label i d m b' hl hb'

/-- Both sessions begin with a declaration whose unfolding is longer. -/
theorem HeadStart.enter {k n : Nat} (hle : k ≤ n) {s s' : Session} (h : w.HeadStart n s s')
    {label : Label} {index : Nat} {d : Declaration} {node : Term}
    (hl : w.schema.find? label = some (index, d)) (hk : w.unfold k (.ref label) node = none) :
    w.HeadStart k (s.enter index node) (s'.enter index node) :=
  ⟨(h.ahead.mono hle).enter hl hk, (h.behind.mono hle).enter hl hk, congrArg (· + 1) h.depth,
    h.held.hold_both rfl rfl⟩

/-! ## Where unfolding ends -/

/-- A session with a head start that holds the answer to a question holds what another session takes
up in answering it. -/
theorem HeadStart.held_after (hw : WellNumbered w.schema.constraints) {n : Nat} {label : Label}
    {node : Term} {index : Nat} {d : Declaration} {s s' t' : Session} {b b' : Bool}
    (hs : w.HeadStart n s s') (hl : w.schema.find? label = some (index, d))
    (hb : s.declarations.answer? index node = some b)
    (h : w.ReturnsUpTo n (.ref label) node s' (.ok b') t') : b = b' ∧ w.HeldIn t' s := by
  have hunfold := h.unfold_eq hw
  have heq := hs.ahead.agrees _ _ _ _ _ _ hl hb hunfold
  have hprovides := hs.ahead.provides _ _ _ _ _ _ hl hb hunfold
  refine ⟨(Except.ok.inj heq).symm, fun label' index' d' node' b₁ hl' hb₁ => ?_⟩
  rcases (h.provides hw hs.behind.provides).1 label' index' d' node' b₁ hl' hb₁ with
    ⟨b₂, hb₂⟩ | ⟨hneeds, -⟩
  · exact hs.held label' index' d' node' b₂ hl' hb₂
  · exact hprovides label' index' d' node' hl' hneeds

/-- The head start is kept if the session holds all that the other one does. -/
theorem HeadStart.after (hw : WellNumbered w.schema.constraints) {n : Nat} {e : ShapeExpr}
    {node : Term} {s s' t t' : Session} {b : Bool} (hs : w.HeadStart n s s')
    (h : w.ReturnsUpTo n e node s' (.ok b) t') (ht : w.Returns e node s (.ok b) t)
    (hheld : w.HeldIn t' t) : w.HeadStart n t t' := by
  have hahead : w.ReturnsUpTo n e node s (.ok b) t :=
    ⟨ht, h.numbered, hs.ahead.sound, hs.ahead.agrees, h.unfolds⟩
  refine ⟨hahead.reliableUpTo hw hs.ahead.provides, h.reliableUpTo hw hs.behind.provides, ?_, hheld⟩
  rw [ht.depth_eq, h.returns.depth_eq, hs.depth]

/-- Where unfolding ends, a session with a head start comes to the result that another one comes to,
and keeps the head start behind an answer. -/
theorem ReturnsUpTo.headStart (hw : WellNumbered w.schema.constraints) {n : Nat} {e : ShapeExpr}
    {node : Term} {s s' t' : Session} {r : Except Failure Bool}
    (h : w.ReturnsUpTo n e node s' r t') (hr : ¬TooDeep r) (hs : w.HeadStart n s s') :
    ∃ t, w.Returns e node s r t ∧ ∀ b, r = .ok b → w.HeadStart n t t' := by
  -- The induction is on the depth of unfolding, which is smaller for the body of a declaration.
  induction n using Nat.strong_induction_on generalizing e node s s' t' r with
  | _ n ih =>
    suffices key : ∃ t, w.Returns e node s r t ∧ ∀ b, r = .ok b → w.HeldIn t' t by
      obtain ⟨t, ht, hheld⟩ := key
      refine ⟨t, ht, ?_⟩
      rintro b rfl
      exact hs.after hw h ht (hheld b rfl)
    cases n with
    | zero =>
      obtain ⟨r₀, hr₀⟩ := h.unfolds
      cases hr₀
    | succ n =>
      have hunfold := h.unfold_eq_of_not_tooDeep hw hr
      cases returns_iff.1 h.returns with
      | compound hc _ =>
        have hstart : w.HeadStart n s s' :=
          ⟨hs.ahead.mono (Nat.le_succ n), hs.behind.mono (Nat.le_succ n), hs.depth, hs.held⟩
        have hask : ∀ e' node', (w.inquiry e node).Mentions e' node' → ∀ u' c v',
            w.ReturnsUpTo n e' node' u' c v' → ¬TooDeep c → ∀ u, w.HeadStart n u u' →
              ∃ v, w.Returns e' node' u c v ∧ ∀ b, c = .ok b → w.HeadStart n v v' :=
          fun _ _ _ _ _ _ hreturns hc _ hu => ih n (Nat.lt_succ_self n) hreturns hc hu
        obtain ⟨t, ht, hafter⟩ := (h.follows hw hc).simulate hask hr hstart
        exact ⟨t, returns_iff.2 (.compound hc ht), fun b hb => (hafter b hb).held⟩
      | @constraint c _ _ _ _ hcon =>
        obtain ⟨r, t, ht⟩ := exists_evaluateConstraint (w := w) c node s
        have hmem := h.numbered c (List.mem_singleton.2 rfl)
        obtain ⟨hr, -, heq⟩ := evaluateConstraint_sound hw hmem hs.ahead.sound ht
        obtain ⟨hr', -, heq'⟩ := evaluateConstraint_sound hw hmem hs.behind.sound hcon
        rw [hr, ← hr'] at ht
        refine ⟨t, returns_iff.2 (.constraint ht), fun b _ => ?_⟩
        unfold HeldIn
        rw [heq, heq']
        exact hs.held
      | unknown hl => exact ⟨s, returns_iff.2 (.unknown hl), fun _ _ => hs.held⟩
      | held hl hb =>
        obtain ⟨b', hb'⟩ := hs.held _ _ _ _ _ hl hb
        obtain ⟨rfl, hheld⟩ := hs.held_after hw hl hb' h
        exact ⟨s, returns_iff.2 (.held hl hb'), fun _ _ => hheld⟩
      | refused hl _ hd =>
        exact ⟨s, returns_iff.2 (.refused hl (hs.ahead.unanswered hl hunfold) hd), nofun⟩
      | tooDeep => exact absurd ⟨_, rfl⟩ hr
      | @settled _ _ _ u' index d _ hent hbody =>
        -- The session can hold what the other one has to find.
        cases hb : s.declarations.answer? index node with
        | some b' =>
          obtain ⟨rfl, hheld⟩ := hs.held_after hw hent.known hb h
          exact ⟨s, returns_iff.2 (.held hent.known hb), fun _ _ => hheld⟩
        | none =>
          obtain ⟨k, hk, hnone, hbody⟩ := h.exists_body hent hbody
          obtain ⟨u, hu, hafter⟩ := ih k hk hbody hr (hs.enter hk.le hent.known hnone)
          have hent' : w.Enters _ node s index d :=
            ⟨hent.known, hb, hent.concrete, hs.depth ▸ hent.shallow⟩
          exact ⟨_, returns_iff.2 (.settled hent' hu),
            fun _ _ => (hafter _ rfl).held.hold_both rfl rfl⟩
      | @abandoned _ _ _ u' index d failure hent hbody =>
        obtain ⟨k, hk, hnone, hbody⟩ := h.exists_body hent hbody
        obtain ⟨u, hu, -⟩ := ih k hk hbody hr (hs.enter hk.le hent.known hnone)
        have hent' : w.Enters _ node s index d :=
          ⟨hent.known, hs.ahead.unanswered hent.known hunfold, hent.concrete,
            hs.depth ▸ hent.shallow⟩
        exact ⟨_, returns_iff.2 (.abandoned hent' hu), nofun⟩

/-! ## Where unfolding does not end -/

variable (w) in
/-- A session has a head start before another one, and both hold the same answers to declarations
without an end of unfolding, as far as these are among some questions. -/
structure Leads (P : ShapeExpr × Term → Prop) (s s' : Session) : Prop where
  ahead : w.Reliable s
  behind : w.Reliable s'
  depth : s.depth = s'.depth
  held : w.HeldIn s' s
  same : ∀ label index d node, w.schema.find? label = some (index, d) → P (.ref label, node) →
    w.Unending (.ref label) node →
      s.declarations.answer? index node = s'.declarations.answer? index node

/-- What leads another session is ahead of it for unfoldings of any depth. -/
theorem Leads.headStart {P : ShapeExpr × Term → Prop} {s s' : Session} (h : w.Leads P s s')
    (n : Nat) : w.HeadStart n s s' :=
  ⟨⟨h.ahead.sound, h.ahead.agrees n, h.ahead.provides n⟩,
    ⟨h.behind.sound, h.behind.agrees n, h.behind.provides n⟩, h.depth, h.held⟩

/-- What unfolding gives is no answer to a declaration whose unfolding does not end. -/
theorem Adds.answer?_eq {s t : Session} (h : w.Adds s t) (ht : s.Within t) {label : Label}
    {index : Nat} {d : Declaration} {node : Term} (hl : w.schema.find? label = some (index, d))
    (hu : w.Unending (.ref label) node) :
    t.declarations.answer? index node = s.declarations.answer? index node := by
  cases hb : s.declarations.answer? index node with
  | some b => exact ht.declarations index node b hb
  | none =>
    cases hb' : t.declarations.answer? index node with
    | none => rfl
    | some b =>
      rcases h label index d node b hl hb' with hs | ⟨n, hn⟩
      · rw [hb] at hs
        cases hs
      · rw [hu n] at hn
        cases hn

/-- Both sessions hold one answer more, and the same. -/
theorem Leads.hold {P : ShapeExpr × Term → Prop} {s s' t t' : Session} (h : w.Leads P s s')
    (hahead : w.Reliable t) (hbehind : w.Reliable t') (hdepth : t.depth = t'.depth) {index : Nat}
    {node : Term} {b : Bool} (ht : t.declarations = s.declarations.hold index node b)
    (ht' : t'.declarations = s'.declarations.hold index node b) : w.Leads P t t' := by
  refine ⟨hahead, hbehind, hdepth, h.held.hold_both ht ht', fun label i d m hl hp hu => ?_⟩
  rw [ht, ht', Answers.answer?_hold, Answers.answer?_hold, h.same label i d m hl hp hu]

/-- A session that leads with regard to all questions that a first one leads to comes to the result
that another one comes to, and still leads behind an answer. -/
theorem Returns.leads (hw : WellNumbered w.schema.constraints) {P : ShapeExpr × Term → Prop}
    (hP : ∀ x y, P x → w.Draws x y → P y) {e : ShapeExpr} {node : Term} {s s' t' : Session}
    {r : Except Failure Bool} (h : w.Returns e node s' r t') (hr : ¬TooDeep r)
    (he : e.NumberedIn w.schema) (hp : w.Unending e node → P (e, node)) (hs : w.Leads P s s') :
    ∃ t, w.Returns e node s r t ∧ ∀ b, r = .ok b → w.Leads P t t' := by
  refine h.induct (motive := fun e node s' r t' => ¬TooDeep r → e.NumberedIn w.schema →
    (w.Unending e node → P (e, node)) → ∀ s, w.Leads P s s' →
      ∃ t, w.Returns e node s r t ∧ ∀ b, r = .ok b → w.Leads P t t')
    (fun e node s' r t' hstep hr he hp s hs => ?_) hr he hp s hs
  have h := returns_iff.2 (hstep.mono fun _ _ _ _ _ hr => hr.1)
  rcases unending_or_unfolds (w := w) e node with hu | ⟨n, r₀, hn⟩
  · -- The session begins with a declaration if the other one does, and leads inside it.
    have henters : ∀ {label index d}, e = .ref label → w.Enters label node s' index d →
        w.Enters label node s index d ∧ d.expression.NumberedIn w.schema ∧
          P (d.expression, node) ∧ w.Leads P (s.enter index node) (s'.enter index node) := by
      rintro label index d rfl hent
      obtain ⟨_, _, hl, -, hbody⟩ := hu.known
      cases hent.known.symm.trans hl
      have hsame := hs.same _ _ _ _ hent.known (hp hu) hu
      refine ⟨⟨hent.known, hsame.trans hent.unanswered, hent.concrete, hs.depth ▸ hent.shallow⟩,
        ShapeExpr.numberedIn_of_find? hent.known,
        hP _ _ (hp hu) (.declaration hent.known hbody), ?_⟩
      exact hs.hold (hs.ahead.enter hent.known hu) (hs.behind.enter hent.known hu)
        (congrArg (· + 1) hs.depth) rfl rfl
    cases hstep with
    | compound hc hq =>
      obtain ⟨t, ht, hafter⟩ := hq.simulate (I := w.Leads P)
        (fun e' node' hm _ r _ hr' hshallow s hI => hr'.2 hshallow (he.mentions hc hm)
          (fun hu' => hP _ _ (hp hu) (.compound hc hm hu')) s hI) hr hs
      exact ⟨t, returns_iff.2 (.compound hc ht), hafter⟩
    | constraint _ => cases hu 1
    | unknown hl => exact ⟨s, returns_iff.2 (.unknown hl), fun _ _ => hs⟩
    | held hl hb =>
      rw [← hs.same _ _ _ _ hl (hp hu) hu] at hb
      exact ⟨s, returns_iff.2 (.held hl hb), fun _ _ => hs⟩
    | refused hl _ hd =>
      obtain ⟨_, _, hl', hd', -⟩ := hu.known
      cases hl.symm.trans hl'
      rw [hd] at hd'
      cases hd'
    | tooDeep => exact absurd ⟨_, rfl⟩ hr
    | @settled _ _ _ u' index d b hent hbody =>
      obtain ⟨hent', hd, hp', henter⟩ := henters rfl hent
      obtain ⟨u, hu', hafter⟩ := hbody.2 (not_tooDeep_ok b) hd (fun _ => hp') _ henter
      have hafter := hafter b rfl
      refine ⟨_, returns_iff.2 (.settled hent' hu'), fun _ _ => ?_⟩
      exact hafter.hold (hafter.ahead.settle hent.known hu) (hafter.behind.settle hent.known hu)
        (congrArg (· - 1) hafter.depth) rfl rfl
    | abandoned hent hbody =>
      obtain ⟨hent', hd, hp', henter⟩ := henters rfl hent
      obtain ⟨u, hu', -⟩ := hbody.2 hr hd (fun _ => hp') _ henter
      exact ⟨_, returns_iff.2 (.abandoned hent' hu'), nofun⟩
  · have hupto : w.ReturnsUpTo n e node s' r t' :=
      ⟨h, he, hs.behind.sound, hs.behind.agrees n, r₀, hn⟩
    obtain ⟨t, ht, hafter⟩ := hupto.headStart hw hr (hs.headStart n)
    obtain ⟨hmatches, hrel⟩ := Returns.of_reliable hw hn he ht hs.ahead
    obtain ⟨hmatches', hrel'⟩ := Returns.of_reliable hw hn he h hs.behind
    refine ⟨t, ht, fun b hb => ?_⟩
    have hafter := hafter b hb
    refine ⟨hrel, hrel', hafter.depth, hafter.held, fun label index d m hl hp hu => ?_⟩
    rw [hmatches.2.answer?_eq ht.within hl hu, hmatches'.2.answer?_eq h.within hl hu]
    exact hs.same label index d m hl hp hu

/-! ## Forgetting answers without an end of unfolding -/

end Setting

open scoped Classical in
/-- A session without its answers to declarations whose unfolding does not end. -/
noncomputable def Session.withoutOpen (s : Session) (w : Setting) : Session :=
  { s with
    declarations := s.declarations.filter fun entry =>
      decide (∀ label d, w.schema.find? label = some (entry.1.1, d) →
        ¬w.Unending (.ref label) entry.1.2) }

namespace Setting

variable {w : Setting}

/-- Leaving out answers without an end of unfolding leaves out these and no others. -/
theorem answer?_withoutOpen {s : Session} {label : Label} {index : Nat} {d : Declaration}
    {node : Term} (hl : w.schema.find? label = some (index, d)) {b : Bool} :
    (s.withoutOpen w).declarations.answer? index node = some b ↔
      s.declarations.answer? index node = some b ∧ ¬w.Unending (.ref label) node := by
  classical
  have hclosed : (∀ label' d', w.schema.find? label' = some (index, d') →
      ¬w.Unending (.ref label') node) ↔ ¬w.Unending (.ref label) node := by
    constructor
    · exact fun h => h label d hl
    · intro h label' d' hl'
      rwa [← Schema.label_unique hl hl']
  have hfilter := Answers.answer?_filter s.declarations (fun key => decide (∀ label d,
    w.schema.find? label = some (key.1, d) → ¬w.Unending (.ref label) key.2)) index node
  rw [Session.withoutOpen]
  refine (Eq.congr_left hfilter).trans ?_
  simp only [decide_eq_true_eq, hclosed]
  by_cases hu : w.Unending (.ref label) node
  · simp [hu]
  · simp [hu]

/-- A session that forgets such answers still provides for what it holds. -/
theorem Reliable.withoutOpen {s : Session} (h : w.Reliable s) : w.Reliable (s.withoutOpen w) := by
  refine ⟨⟨h.sound.patterns, h.sound.constraints⟩, fun n label index d node b r hl hb hr => ?_,
    fun n label index d node b r hl hb hr label' index' d' node' hl' hneeds => ?_⟩
  · exact h.agrees n label index d node b r hl ((answer?_withoutOpen hl).1 hb).1 hr
  · obtain ⟨b', hb'⟩ := h.provides n label index d node b r hl ((answer?_withoutOpen hl).1 hb).1 hr
      label' index' d' node' hl' hneeds
    refine ⟨b', (answer?_withoutOpen hl').2 ⟨hb', fun hu => ?_⟩⟩
    obtain ⟨r', hr'⟩ := exists_unfold_of_reflTransGen hneeds hr
    cases (hu n).symm.trans hr'

/-- A session between requests that forgets such answers leads before a fresh one. -/
theorem Reliable.leads {s : Session} (h : w.Reliable s) (hdepth : s.depth = 0)
    (P : ShapeExpr × Term → Prop) : w.Leads P (s.withoutOpen w) .initial where
  ahead := h.withoutOpen
  behind := .initial
  depth := hdepth
  held _ _ _ _ _ _ hb := nomatch hb
  same label index d node hl _ hu := by
    cases hb : (s.withoutOpen w).declarations.answer? index node with
    | none => rfl
    | some b => exact absurd hu ((answer?_withoutOpen hl).1 hb).2

/-- A session that forgets such answers comes to the result of a fresh one. -/
theorem Reliable.returns_withoutOpen (hw : WellNumbered w.schema.constraints) {s u : Session}
    (hs : w.Reliable s) (hdepth : s.depth = 0) {e : ShapeExpr} {node : Term}
    (hnum : e.NumberedIn w.schema) {r : Except Failure Bool} (hr : ¬TooDeep r)
    (h : w.Returns e node .initial r u) : ∃ t, w.Returns e node (s.withoutOpen w) r t := by
  have hleads := hs.leads hdepth fun _ => True
  obtain ⟨t, ht, -⟩ := h.leads hw (fun _ _ _ _ => trivial) hr hnum (fun _ => trivial) hleads
  exact ⟨t, ht⟩

end Setting

end ShEx
