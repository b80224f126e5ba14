import ShEx.Proofs.Calls

/-!
# Clearing a session

Clearing a session leaves the number of declarations in progress and the compiled patterns as they
are.  Neither is noticed.  Between calls no declaration is in progress, and the patterns that are
known are what compiling them gives (`Attained.patternsSound`), so that looking one up ends as
compiling it.

Two sessions that hold the same answers are `Alike` then, whatever patterns they know, and evaluate
in parallel (`Returns.alike`).  So they give the same replies to any calls (`Alike.replies_eq`), and
a session that was cleared gives those of a new one (`replies_clear`).
-/

set_option autoImplicit false

namespace ShEx

open ShEx.Rdf

variable {α : Type} {w : Setting}

/-- What questions do from a state they do from a related one, and so does an inquiry; the states
behind it are related again. -/
theorem Inquiry.Follows.transport {R R' : Answering} {I : Session → Session → Prop}
    (hR : ∀ e node s r t, R e node s r t → ∀ s', I s s' → ∃ t', R' e node s' r t' ∧ I t t')
    {q : Inquiry α} {s s' t : Session} {r : Except Failure α} (h : q.Follows R s r t)
    (hs : I s s') : ∃ t', q.Follows R' s' r t' ∧ I t t' := by
  induction q generalizing s s' with
  | done a =>
    obtain ⟨hr, rfl⟩ := h
    exact ⟨s', ⟨hr, rfl⟩, hs⟩
  | failed failure =>
    obtain ⟨hr, rfl⟩ := h
    exact ⟨s', ⟨hr, rfl⟩, hs⟩
  | ask e node next ih =>
    rcases h with ⟨b, u, hb, hrest⟩ | ⟨failure, hf, rfl⟩
    · obtain ⟨u', hb', hu⟩ := hR _ _ _ _ _ hb s' hs
      obtain ⟨t', hrest', ht⟩ := ih b hrest hu
      exact ⟨t', .inl ⟨b, u', hb', hrest'⟩, ht⟩
    · obtain ⟨t', hf', ht⟩ := hR _ _ _ _ _ hf s' hs
      exact ⟨t', .inr ⟨failure, hf', rfl⟩, ht⟩

/-! ## Sessions that are alike -/

namespace Session

/-- Two sessions hold the same answers with as many declarations in progress, and what each of them
knows of patterns is what compiling gives. -/
structure Alike (limit : Nat) (s u : Session) : Prop where
  depth : s.depth = u.depth
  declarations : s.declarations = u.declarations
  constraints : s.constraints = u.constraints
  left : PatternsSound limit s.patterns
  right : PatternsSound limit u.patterns

namespace Alike

variable {limit : Nat} {s u : Session}

/-- Being alike does not tell the two sessions apart. -/
theorem symm (h : s.Alike limit u) : u.Alike limit s :=
  ⟨h.depth.symm, h.declarations.symm, h.constraints.symm, h.right, h.left⟩

/-- Alike sessions hold equally many answers. -/
theorem size_eq (h : s.Alike limit u) : s.size = u.size := by
  unfold size
  rw [h.declarations, h.constraints]

/-- A declaration that begins in both sessions leaves them alike. -/
theorem enter (h : s.Alike limit u) (index : Nat) (node : Term) :
    (s.enter index node).Alike limit (u.enter index node) where
  depth := congrArg (· + 1) h.depth
  declarations := congrArg (fun answers => answers.hold index node true) h.declarations
  constraints := h.constraints
  left := h.left
  right := h.right

/-- A declaration that ends with the same answer in both sessions leaves them alike. -/
theorem settle (h : s.Alike limit u) (index : Nat) (node : Term) (b : Bool) :
    (s.settle index node b).Alike limit (u.settle index node b) where
  depth := congrArg (· - 1) h.depth
  declarations := congrArg (fun answers => answers.hold index node b) h.declarations
  constraints := h.constraints
  left := h.left
  right := h.right

/-- A declaration that fails in both sessions leaves them alike. -/
theorem abandon (h : s.Alike limit u) (index : Nat) (node : Term) :
    (s.abandon index node).Alike limit (u.abandon index node) where
  depth := congrArg (· - 1) h.depth
  declarations := congrArg (fun answers => answers.forget index node) h.declarations
  constraints := h.constraints
  left := h.left
  right := h.right

/-- The same answer about a constraint leaves both sessions alike. -/
theorem record (h : s.Alike limit u) (index : Nat) (node : Term) (b : Bool) :
    (s.record index node b).Alike limit (u.record index node b) where
  depth := h.depth
  declarations := h.declarations
  constraints := congrArg (fun answers => answers.hold index node b) h.constraints
  left := h.left
  right := h.right

/-- Clearing both sessions leaves them alike. -/
theorem clear (h : s.Alike limit u) : s.clear.Alike limit u.clear :=
  ⟨h.depth, rfl, rfl, h.left, h.right⟩

end Alike

end Session

/-! ## Evaluations in parallel -/

namespace Setting

/-- A constraint that is evaluated anew looks at patterns only, and what it knows of them does not
matter. -/
theorem evaluateFresh_alike {c : NodeConstraint} {node : Term} {s t u : Session}
    {r : Except Failure Bool} (h : w.evaluateFresh c node s = some (r, t))
    (hs : s.Alike w.limits.maxRegexLength u) :
    ∃ v, w.evaluateFresh c node u = some (r, v) ∧ t.Alike w.limits.maxRegexLength v := by
  obtain ⟨hresult, hpatterns⟩ := c.evaluate_sound w.limits.maxRegexLength node s.patterns hs.left
  obtain ⟨hresult', hpatterns'⟩ := c.evaluate_sound w.limits.maxRegexLength node u.patterns hs.right
  obtain ⟨rfl, rfl⟩ := evaluateFresh_eq_some_iff.1 h
  refine ⟨_, evaluateFresh_eq_some_iff.2 ⟨hresult'.trans hresult.symm, rfl⟩, ?_⟩
  exact ⟨hs.depth, hs.declarations, hs.constraints, hpatterns, hpatterns'⟩

/-- A constraint that is answered in both sessions is given its answer again, and any other one is
evaluated anew in both. -/
theorem evaluateConstraint_alike {c : NodeConstraint} {node : Term} {s t u : Session}
    {r : Except Failure Bool} (h : w.evaluateConstraint c node s = some (r, t))
    (hs : s.Alike w.limits.maxRegexLength u) :
    ∃ v, w.evaluateConstraint c node u = some (r, v) ∧ t.Alike w.limits.maxRegexLength v := by
  cases evaluateConstraint_eq_some_iff.1 h with
  | held hid ha =>
    rw [hs.constraints] at ha
    exact ⟨u, evaluateConstraint_eq_some_iff.2 (.held hid ha), hs⟩
  | unnumbered hid hf =>
    obtain ⟨v, hv, hlike⟩ := evaluateFresh_alike hf hs
    exact ⟨v, evaluateConstraint_eq_some_iff.2 (.unnumbered hid hv), hlike⟩
  | recorded hid ha hf =>
    obtain ⟨v, hv, hlike⟩ := evaluateFresh_alike hf hs
    rw [hs.constraints] at ha
    exact ⟨_, evaluateConstraint_eq_some_iff.2 (.recorded hid ha hv), hlike.record _ _ _⟩
  | failed hid ha hf =>
    obtain ⟨v, hv, hlike⟩ := evaluateFresh_alike hf hs
    rw [hs.constraints] at ha
    exact ⟨v, evaluateConstraint_eq_some_iff.2 (.failed hid ha hv), hlike⟩

/-- Whether a declaration begins depends on answers and on the number of declarations in progress
only. -/
theorem Enters.alike {label : Label} {node : Term} {s u : Session} {index : Nat} {d : Declaration}
    {limit : Nat} (he : w.Enters label node s index d) (hs : s.Alike limit u) :
    w.Enters label node u index d where
  known := he.known
  unanswered := hs.declarations ▸ he.unanswered
  concrete := he.concrete
  shallow := hs.depth ▸ he.shallow

/-- Evaluations from sessions that are alike have the same result, and leave sessions that are
alike. -/
theorem Returns.alike {e : ShapeExpr} {node : Term} {s t u : Session} {r : Except Failure Bool}
    (h : w.Returns e node s r t) (hs : s.Alike w.limits.maxRegexLength u) :
    ∃ v, w.Returns e node u r v ∧ t.Alike w.limits.maxRegexLength v := by
  refine h.induct (motive := fun e node s r t => ∀ u, s.Alike w.limits.maxRegexLength u →
    ∃ v, w.Returns e node u r v ∧ t.Alike w.limits.maxRegexLength v)
    (fun e node s r t hstep u hs => ?_) u hs
  cases hstep with
  | compound hc hq =>
    obtain ⟨v, hv, hlike⟩ := hq.transport (fun _ _ _ _ _ hr => hr.2) hs
    exact ⟨v, returns_iff.2 (.compound hc hv), hlike⟩
  | constraint hc =>
    obtain ⟨v, hv, hlike⟩ := evaluateConstraint_alike hc hs
    exact ⟨v, returns_iff.2 (.constraint hv), hlike⟩
  | unknown hl => exact ⟨u, returns_iff.2 (.unknown hl), hs⟩
  | held hl ha =>
    rw [hs.declarations] at ha
    exact ⟨u, returns_iff.2 (.held hl ha), hs⟩
  | refused hl ha hd =>
    rw [hs.declarations] at ha
    exact ⟨u, returns_iff.2 (.refused hl ha hd), hs⟩
  | tooDeep hl ha hd hm =>
    rw [hs.declarations] at ha
    rw [hs.depth] at hm ⊢
    exact ⟨u, returns_iff.2 (.tooDeep hl ha hd hm), hs⟩
  | settled he hr =>
    obtain ⟨v, hv, hlike⟩ := hr.2 _ (hs.enter _ _)
    exact ⟨_, returns_iff.2 (.settled (he.alike hs) hv), hlike.settle _ _ _⟩
  | abandoned he hr =>
    obtain ⟨v, hv, hlike⟩ := hr.2 _ (hs.enter _ _)
    exact ⟨_, returns_iff.2 (.abandoned (he.alike hs) hv), hlike.abandon _ _⟩

/-- A constraint that looks for a text, behind which a declaration fails. -/
def quoting : Setting where
  schema := Schema.empty.addShape ⟨.iri ⟨"A"⟩, false,
    .or [.node ⟨none, none, [.pattern ⟨"m", some "q"⟩], [], [], none⟩, .external]⟩
  graph := circle
  listing := circle.asInserted
  limits := .standard

end Setting

/-! ## Replies -/

namespace Session

/-- The replies to calls one after the other, up to the first one that does not end. -/
def replies (w : Setting) : List Call → Session → List (Option Reply)
  | [], _ => []
  | c :: rest, s =>
    match s.call w c with
    | none => [none]
    | some (reply, t) => some reply :: replies w rest t

/-- A request has the same response in alike sessions, whatever patterns they know. -/
theorem respond_alike {s t u : Session} {q : Request} {r : Except Failure Bool}
    (h : s.respond w q = some (r, t)) (hs : s.Alike w.limits.maxRegexLength u) :
    ∃ v, u.respond w q = some (r, v) ∧ t.Alike w.limits.maxRegexLength v := by
  simp only [respond_eq_some_iff] at h ⊢
  cases hq : w.question? q with
  | none =>
    rw [hq] at h
    obtain ⟨hr, rfl⟩ := h
    exact ⟨u, ⟨hr, rfl⟩, hs⟩
  | some question =>
    rw [hq] at h
    exact h.alike hs

/-- A report on many pairs comes out the same in alike sessions: each of its requests leaves them
alike. -/
theorem validateAll_alike {failFast : Bool} {pairs : List FixedAssociation} {s t u : Session}
    {report : Report} (h : validateAll w failFast pairs s = some (report, t))
    (hs : s.Alike w.limits.maxRegexLength u) :
    ∃ v, validateAll w failFast pairs u = some (report, v) ∧ t.Alike w.limits.maxRegexLength v := by
  induction pairs generalizing s u report with
  | nil =>
    cases h
    exact ⟨u, rfl, hs⟩
  | cons pair rest ih =>
    obtain ⟨r, s', hr, hrest⟩ := validateAll_cons_eq_some_iff.1 h
    obtain ⟨u', hu, hlike⟩ := respond_alike hr hs
    rcases hrest with ⟨hstop, rfl, hreport⟩ | ⟨hgoes, others, hothers, hreport⟩
    · exact ⟨u', validateAll_cons_eq_some_iff.2 ⟨r, u', hu, .inl ⟨hstop, rfl, hreport⟩⟩, hlike⟩
    · obtain ⟨v, hv, hlike⟩ := ih hothers hlike
      refine ⟨v, validateAll_cons_eq_some_iff.2 ⟨r, u', hu, .inr ?_⟩, hlike⟩
      exact ⟨hgoes, others, hv, hreport⟩

/-- Sessions that are alike give the same reply to a call, and are alike behind it. -/
theorem call_alike {s t u : Session} {c : Call} {reply : Reply}
    (h : s.call w c = some (reply, t)) (hs : s.Alike w.limits.maxRegexLength u) :
    ∃ v, u.call w c = some (reply, v) ∧ t.Alike w.limits.maxRegexLength v := by
  cases call_eq_some_iff.1 h with
  | request hr =>
    obtain ⟨v, hv, hlike⟩ := respond_alike hr hs
    exact ⟨v, call_eq_some_iff.2 (.request hv), hlike⟩
  | report hr =>
    obtain ⟨v, hv, hlike⟩ := validateAll_alike hr hs
    exact ⟨v, call_eq_some_iff.2 (.report hv), hlike⟩
  | clear => exact ⟨u.clear, rfl, hs.clear⟩
  | size =>
    rw [hs.size_eq]
    exact ⟨u, rfl, hs⟩

/-- Any calls have the same replies in alike sessions, because each call leaves them alike for the
next one. -/
theorem Alike.replies_eq {s u : Session} (hs : s.Alike w.limits.maxRegexLength u)
    (calls : List Call) : replies w calls s = replies w calls u := by
  induction calls generalizing s u with
  | nil => rfl
  | cons c rest ih =>
    unfold replies
    cases hcall : s.call w c with
    | some result =>
      obtain ⟨reply, t⟩ := result
      obtain ⟨v, hv, hlike⟩ := call_alike hcall hs
      rw [hv]
      exact congrArg (some reply :: ·) (ih hlike)
    | none =>
      -- If one call does not end, neither does the other one, since being alike is symmetric.
      cases hcall' : u.call w c with
      | none => rfl
      | some result =>
        obtain ⟨t, ht, -⟩ := call_alike hcall' hs.symm
        cases hcall.symm.trans ht

/-! ## Patterns between calls -/

/-- Evaluations compile patterns and look them up, so what is known stays what compiling gives. -/
theorem conserves_patternsSound (w : Setting) :
    w.Conserves (fun _ => True) fun s => PatternsSound w.limits.maxRegexLength s.patterns where
  embeds _ _ _ _ := trivial
  declared _ _ := trivial
  constraint c node s r t _ h hs := by
    refine Setting.evaluateConstraint_keeps
      (I := fun u => PatternsSound w.limits.maxRegexLength u.patterns) h hs ?_ ?_
    · intro r u hf
      obtain ⟨-, rfl⟩ := Setting.evaluateFresh_eq_some_iff.1 hf
      exact (c.evaluate_sound w.limits.maxRegexLength node s.patterns hs).2
    · intro index b u _ hu
      exact hu
  congr _ _ _ hpatterns hs := by
    rw [hpatterns]
    exact hs

/-- The patterns that a session has compiled are those that it would compile again. -/
theorem Attained.patternsSound {P : Request → Prop} {s : Session} (h : s.Attained w P) :
    PatternsSound w.limits.maxRegexLength s.patterns :=
  h.conserved (conserves_patternsSound w) (fun _ _ _ _ _ => trivial) (patternsSound_nil _)
    fun _ hs => hs

/-- A session that is cleared, whatever was asked of it, replies to all further calls as a new one.
What clearing leaves does not show without clearing either: the replies do not depend on the
number of declarations in progress and on the compiled patterns that calls have left behind. -/
theorem replies_clear {s : Session} (hs : s.Visited w fun _ => True) (calls : List Call) :
    replies w calls s.clear = replies w calls .initial ∧
      replies w calls s = replies w calls { s with depth := 0, patterns := [] } := by
  have hdepth : s.depth = 0 := Setting.depth_of_attained hs.attained
  have hpatterns := hs.attained.patternsSound
  have hnil := patternsSound_nil w.limits.maxRegexLength
  have hcleared : s.clear.Alike w.limits.maxRegexLength .initial :=
    ⟨hdepth, rfl, rfl, hpatterns, hnil⟩
  have hstripped : s.Alike w.limits.maxRegexLength { s with depth := 0, patterns := [] } :=
    ⟨hdepth, rfl, rfl, hpatterns, hnil⟩
  exact ⟨hcleared.replies_eq calls, hstripped.replies_eq calls⟩

/-- A session that is cleared behind a call that failed, with a compiled pattern that it keeps. -/
theorem replies_clear_quoting : ∃ s : Session, s.Visited .quoting (fun _ => True) ∧ s.size = 1 ∧
    s.clear.patterns.length = 1 ∧
    replies .quoting [.request (.named "n" "A"), .size] s.clear =
      [some (.result (.error (.notImplemented .externalShapes))), some (.size 1)] := by
  have hs : Visited .quoting (fun _ => True) _ :=
    .after .initial (c := .request (.named "n" "A")) (fun _ _ => trivial) rfl
  exact ⟨_, hs, rfl, rfl, (replies_clear hs _).1.trans rfl⟩

end Session

end ShEx
