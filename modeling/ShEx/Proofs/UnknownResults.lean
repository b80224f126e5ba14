import ShEx.Proofs.CacheTransparency
import ShEx.Proofs.Relisting

/-!
# Failures and history

A session without history that fails at a request leaves its result open. A session with history
that has come to the same request by other ones may hold an answer: a declaration that was finished
while the failing one was in progress is kept, although what it rests on is withdrawn
(`respond_restsOnFailed`).

No other answer that it holds hides a failure (`respond_fails_as_fresh`). Where the request leads to
no such answer, the session fails as the one without history does (`Undisturbed.returns`); and where
neither session gives an answer again that it would not find anew, both follow the same evaluation,
which then ends in both of them (`exists_returns_of_anew`).
-/

set_option autoImplicit false

namespace ShEx

open ShEx.Rdf

variable {α : Type}

/-! ## Sessions that forget -/

/-- The states that a session comes to by requests of a kind and by forgetting all answers. -/
inductive Session.Attained (w : Setting) (allowed : Request → Prop) : Session → Prop
  | initial : Attained w allowed .initial
  | after {s t : Session} {q : Request} {r : Except Failure Bool} (h : Attained w allowed s)
      (hq : allowed q) (hr : s.respond w q = some (r, t)) : Attained w allowed t
  | cleared {s : Session} (h : Attained w allowed s) : Attained w allowed s.clear

namespace Setting

variable {w : Setting}

/-- Forgetting all answers keeps a session reliable. -/
theorem Reliable.clear {s : Session} (h : w.Reliable s) : w.Reliable s.clear where
  sound := ⟨h.sound.patterns, nofun⟩
  agrees _ _ _ _ _ _ _ _ hb := nomatch hb
  provides _ _ _ _ _ _ _ _ hb := nomatch hb

/-- Every state that proper requests and forgetting come to is reliable. -/
theorem reliable_of_attained (hw : WellNumbered w.schema.constraints) {s : Session}
    (h : s.Attained w w.Proper) : w.Reliable s := by
  induction h with
  | initial => exact .initial
  | after _ hq hr ih => exact ih.respond hw hq hr
  | cleared _ ih => exact ih.clear

/-- Between requests no declaration is in progress. -/
theorem depth_of_attained {P : Request → Prop} {s : Session} (h : s.Attained w P) :
    s.depth = 0 := by
  induction h with
  | initial => rfl
  | after _ _ hr ih => rw [depth_respond hr, ih]
  | cleared _ ih => exact ih

end Setting

/-! ## Evaluations that end as they do anew -/

/-- An inquiry that a partial function resolves comes to its end, if every question that it comes to
is answered as by that function or too deep in recursion. -/
theorem Inquiry.exists_follows {R : Answering} {I : Session → Prop}
    {eval : ShapeExpr → Term → Option (Except Failure Bool)} {q : Inquiry α} {s : Session}
    {r₀ : Except Failure α}
    (hR : ∀ e node t r₁, q.Reaches R s e node t → I t → eval e node = some r₁ →
      ∃ r u, R e node t r u ∧ EndsWith r₁ r ∧ I u)
    (hr₀ : q.resolve eval = some r₀) (hs : I s) : ∃ r t, q.Follows R s r t ∧ EndsWith r₀ r := by
  induction q generalizing s with
  | done a =>
    cases hr₀
    exact ⟨_, s, ⟨rfl, rfl⟩, .inl rfl⟩
  | failed failure =>
    cases hr₀
    exact ⟨_, s, ⟨rfl, rfl⟩, .inl rfl⟩
  | ask e node next ih =>
    rw [resolve] at hr₀
    cases he : eval e node with
    | none =>
      rw [he] at hr₀
      cases hr₀
    | some r₁ =>
      rw [he] at hr₀
      obtain ⟨r, u, hu, hends, hI⟩ := hR e node s r₁ (.inl ⟨rfl, rfl, rfl⟩) hs he
      cases r with
      | ok b =>
        rw [hends.eq_of_ok] at hr₀
        have hnext : ∀ e' node' t r₂, (next b).Reaches R u e' node' t → I t →
            eval e' node' = some r₂ → ∃ r v, R e' node' t r v ∧ EndsWith r₂ r ∧ I v := by
          intro e' node' t r₂ hreach
          exact hR e' node' t r₂ (.inr ⟨b, u, hu, hreach⟩)
        obtain ⟨r, t, ht, hends⟩ := ih b hnext hr₀ hI
        exact ⟨r, t, .inl ⟨b, u, hu, ht⟩, hends⟩
      | error failure =>
        refine ⟨.error failure, u, .inr ⟨failure, hu, rfl⟩, ?_⟩
        rcases hends with heq | ⟨depth, heq⟩
        · subst heq
          cases hr₀
          exact .inl rfl
        · cases heq
          exact .inr ⟨depth, rfl⟩

namespace Setting

variable {w : Setting}

/-- Two depths that are enough give the same result. -/
theorem anew_unique {m n : Nat} {begun : List (Nat × Term)} {e : ShapeExpr} {node : Term}
    {r r' : Except Failure Bool} (h : w.anew m begun e node = some r)
    (h' : w.anew n begun e node = some r') : r = r' := by
  have hm := anew_mono (Nat.le_max_left m n) h
  have hn := anew_mono (Nat.le_max_right m n) h'
  exact Option.some.inj (hm.symm.trans hn)

/-- Where evaluating anew ends, a session that is not stale ends with that result, or is too deep in
recursion. -/
theorem exists_returns_of_anew (hw : WellNumbered w.schema.constraints) {q₀ : Question}
    (hfresh : ¬w.Stale q₀) {n : Nat} {begun : List (Nat × Term)} {e : ShapeExpr} {node : Term}
    {s : Session} {r₀ : Except Failure Bool} (hn : w.anew n begun e node = some r₀)
    (hamid : w.Amid q₀ begun ⟨e, node, s⟩) (hsound : s.Sound w) (hnum : e.NumberedIn w.schema) :
    ∃ r t, w.Returns e node s r t ∧ EndsWith r₀ r := by
  induction n generalizing begun e node s r₀ with
  | zero => cases hn
  | succ n ih =>
    by_cases hc : e.isCompound
    · rw [anew_of_compound hc] at hn
      have hask : ∀ e' m u r₁, (w.inquiry e node).Reaches w.Returns s e' m u → u.Sound w →
          w.anew n begun e' m = some r₁ →
            ∃ r v, w.Returns e' m u r v ∧ EndsWith r₁ r ∧ v.Sound w := by
        intro e' m u r₁ hreach hu hr₁
        have hnum' := hnum.mentions hc hreach.mentions
        obtain ⟨r, v, hv, hends⟩ := ih hr₁ (hamid.compound hc hreach) hu hnum'
        exact ⟨r, v, hv, hends, hv.sound hw hnum' hu⟩
      obtain ⟨r, t, ht, hends⟩ := Inquiry.exists_follows hask hn hsound
      exact ⟨r, t, returns_iff.2 (.compound hc ht), hends⟩
    · cases e with
      | node c =>
        obtain ⟨r, t, ht⟩ := exists_evaluateConstraint (w := w) c node s
        obtain ⟨hr, -⟩ := evaluateConstraint_sound hw (hnum c (List.mem_singleton.2 rfl)) hsound ht
        cases hn
        exact ⟨r, t, returns_iff.2 (.constraint ht), .inl hr⟩
      | ref label =>
        cases hl : w.schema.find? label with
        | none =>
          rw [anew_of_unknown hl] at hn
          cases hn
          exact ⟨_, s, returns_iff.2 (.unknown hl), .inl rfl⟩
        | some entry =>
          obtain ⟨index, d⟩ := entry
          cases ha : s.declarations.answer? index node with
          | some b =>
            refine ⟨.ok b, s, returns_iff.2 (.held hl ha), .inl ?_⟩
            by_cases hbegun : (index, node) ∈ begun
            · rw [anew_of_known hl, if_pos hbegun] at hn
              cases ha.symm.trans (hamid.answered index node hbegun)
              exact Option.some.inj hn
            · -- Otherwise the answer would differ from what is found anew, and the session be
              -- stale.
              by_contra hne
              apply hfresh
              refine ⟨begun, label, index, d, node, s, b, hl, hamid, hbegun, ha, ?_⟩
              rintro ⟨m, hm⟩
              exact hne (anew_unique hm hn)
          | none =>
            rw [anew_of_known hl, if_neg (hamid.not_begun ha)] at hn
            by_cases hd : d.isAbstract
            · rw [if_pos hd] at hn
              cases hn
              exact ⟨_, s, returns_iff.2 (.refused hl ha hd), .inl rfl⟩
            · have hd' : d.isAbstract = false := by simpa using hd
              rw [if_neg hd] at hn
              by_cases hm : w.limits.maxRecursionDepth ≤ s.depth
              · exact ⟨_, s, returns_iff.2 (.tooDeep hl ha hd' hm), .inr ⟨_, rfl⟩⟩
              · have hent : w.Enters label node s index d := ⟨hl, ha, hd', Nat.lt_of_not_le hm⟩
                obtain ⟨r, t, ht, hends⟩ := ih hn (hamid.declaration hent)
                  (hsound.enter index node) (ShapeExpr.numberedIn_of_find? hl)
                cases r with
                | ok b => exact ⟨_, _, returns_iff.2 (.settled hent ht), hends⟩
                | error failure => exact ⟨_, _, returns_iff.2 (.abandoned hent ht), hends⟩
      | _ => exact absurd rfl hc

/-- Of two sessions that are not stale, one ends as the other does. -/
theorem exists_returns_of_not_stale (hw : WellNumbered w.schema.constraints) {e : ShapeExpr}
    {node : Term} {s s' t' : Session} {r₀ : Except Failure Bool} (hnum : e.NumberedIn w.schema)
    (hs : s.Sound w) (hs' : s'.Sound w) (hfresh : ¬w.Stale ⟨e, node, s⟩)
    (hfresh' : ¬w.Stale ⟨e, node, s'⟩) (hr₀ : ¬TooDeep r₀) (h : w.Returns e node s' r₀ t') :
    ∃ r t, w.Returns e node s r t ∧ EndsWith r₀ r := by
  obtain hdeep | ⟨n, hn⟩ := h.yields hw hfresh' .start hs' hnum
  · exact absurd hdeep hr₀
  · exact exists_returns_of_anew hw hfresh hn .start hs hnum

/-! ## Declarations that fail -/

/-- A declaration that fails where the other one does not hold, and one that asks for an arc to a
node of the first; a node with an arc to one without arcs. -/
def unsupported : Setting where
  schema := (Schema.empty.addShape
    ⟨.iri ⟨"A"⟩, false, .or [.ref (.iri ⟨"B"⟩), .external]⟩).addShape
      ⟨.iri ⟨"B"⟩, false, pointing "A"⟩
  graph := .ofList [⟨.iri ⟨"n"⟩, ⟨"p"⟩, .iri ⟨"m"⟩⟩]
  listing := Graph.asInserted _
  limits := .standard

/-- Two declarations that point at each other, the first of which fails when the second one holds.
-/
def unfinished : Setting where
  schema := (Schema.empty.addShape
    ⟨.iri ⟨"A"⟩, false, .and [pointing "B", .external]⟩).addShape
      ⟨.iri ⟨"B"⟩, false, pointing "A"⟩
  graph := circle
  listing := circle.asInserted
  limits := .standard

end Setting

/-! ## Requests -/

namespace Session

/-- Where a session without history fails, and not because it is too deep in recursion, one with
history fails as well, as far as its answers to declarations without an end of unfolding do not
matter: it fails so without them; and it ends with that failure, or too deep in recursion, if the
request leads to none of them, or if neither session is stale. Requests may have failed before. -/
theorem respond_fails_as_fresh {w : Setting} (hbuilt : w.schema.Built) {s u : Session}
    (hs : s.Attained w w.Proper) {q : Request} (hq : w.Proper q) {failure : Failure}
    (hlimit : ∀ depth, failure ≠ .recursionTooDeep depth)
    (hfresh : initial.respond w q = some (.error failure, u)) :
    (∃ v, (s.withoutOpen w).respond w q = some (.error failure, v)) ∧
      ((∀ e node, w.question? q = some (e, node) → w.Undisturbed s e node ∨
        ¬w.Stale ⟨e, node, s⟩ ∧ ¬w.Stale ⟨e, node, initial⟩) →
          ∃ r t, s.respond w q = some (r, t) ∧ EndsWith (.error failure) r) := by
  have hw := hbuilt.wellNumbered
  have hrel := Setting.reliable_of_attained hw hs
  have hdepth := Setting.depth_of_attained hs
  have hshallow : ¬TooDeep (.error failure : Except Failure Bool) := by
    rintro ⟨depth, heq⟩
    exact hlimit depth (Except.error.inj heq)
  refine ⟨respond_withoutOpen_of_reliable hw hrel hdepth hq hshallow hfresh, fun hsafe => ?_⟩
  simp only [respond_eq_some_iff] at hfresh ⊢
  cases hquestion : w.question? q with
  | none =>
    rw [hquestion] at hfresh
    exact ⟨_, s, ⟨rfl, rfl⟩, .inl hfresh.1.symm⟩
  | some question =>
    obtain ⟨e, node⟩ := question
    rw [hquestion] at hfresh
    have hnum := hq.numberedIn hquestion
    rcases hsafe e node hquestion with hun | ⟨hstale, hstale'⟩
    · obtain ⟨t, ht⟩ := hun.returns hw hrel hdepth hnum hshallow hfresh
      exact ⟨_, t, ht, .inl rfl⟩
    · exact Setting.exists_returns_of_not_stale hw hnum hrel.sound (sound_initial w) hstale hstale'
        hshallow hfresh

/-- A request that fails as without history, after one that failed, a clearing and one that did not
fail; and one that does not fail, in a session that has an answer which rests on a declaration that
failed. -/
theorem respond_fails_as_fresh_unsupported :
    (∃ s u : Session, s.Attained .unsupported Setting.unsupported.Proper ∧ s.size = 1 ∧
      initial.respond .unsupported (.named "n" "A") =
        some (.error (.notImplemented .externalShapes), u) ∧
      ∃ r t, s.respond .unsupported (.named "n" "A") = some (r, t) ∧
        EndsWith (.error (.notImplemented .externalShapes)) r) ∧
    ∃ s t u : Session, s.Attained .unfinished Setting.unfinished.Proper ∧
      s.respond .unfinished (.named "n" "B") = some (.ok true, t) ∧
      initial.respond .unfinished (.named "n" "B") =
        some (.error (.notImplemented .externalShapes), u) ∧
      ∃ v, (s.withoutOpen .unfinished).respond .unfinished (.named "n" "B") =
        some (.error (.notImplemented .externalShapes), v) := by
  constructor
  · have hs : Attained .unsupported Setting.unsupported.Proper _ :=
      .after (.cleared (.after .initial (q := .named "n" "B") trivial rfl)) (q := .named "m" "B")
        trivial rfl
    obtain ⟨-, hsafe⟩ := respond_fails_as_fresh ((Schema.Built.empty.addShape _).addShape _) hs
      (q := .named "n" "A") trivial (by rintro _ ⟨⟩) rfl
    refine ⟨_, _, hs, rfl, rfl, hsafe fun e node hquestion => .inl ?_⟩
    cases hquestion
    exact Setting.undisturbed_of_unfold (n := 9)
      (r := .error (.notImplemented .externalShapes)) rfl _
  · have hs : Attained .unfinished Setting.unfinished.Proper _ :=
      .after .initial (q := .named "n" "A") trivial rfl
    obtain ⟨hfails, -⟩ := respond_fails_as_fresh ((Schema.Built.empty.addShape _).addShape _) hs
      (q := .named "n" "B") trivial (by rintro _ ⟨⟩) rfl
    exact ⟨_, _, _, hs, rfl, rfl, hfails⟩

/-- A request that hides the failure of a later one. While the first declaration is in progress, the
second one is answered as if it held; the first one fails then, but the answer is kept. -/
theorem respond_restsOnFailed : ∃ s t u : Session, Setting.unfinished.schema.Built ∧
    initial.respond .unfinished (.named "n" "A") =
      some (.error (.notImplemented .externalShapes), s) ∧
    s.respond .unfinished (.named "n" "B") = some (.ok true, t) ∧
    initial.respond .unfinished (.named "n" "B") =
      some (.error (.notImplemented .externalShapes), u) :=
  ⟨_, _, _, (Schema.Built.empty.addShape _).addShape _, rfl, rfl, rfl⟩

end Session

end ShEx
