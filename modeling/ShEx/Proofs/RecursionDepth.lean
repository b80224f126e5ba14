import ShEx.Proofs.Calls
import ShEx.Proofs.Conservation
import ShEx.Proofs.Failures
import ShEx.Proofs.Unwinding

/-!
# How deep declarations are in progress

At each moment of an evaluation (`Setting.Moment`) as many more declarations are in progress as have
begun and not ended, no declaration is in progress at a node twice, and there are no more than the
limit allows (`Moment.keeps`).

A session at rest that is asked about a node has no more declarations in progress than one for each
declaration and each node, and a declaration that is too deep has not begun at its node.  So where
the limit leaves room for all of them, nothing is too deep (`Returns.not_tooDeep`).  For that one
has to know what is raised where (`Raises.cases`).
-/

set_option autoImplicit false

namespace ShEx

open ShEx.Rdf

variable {α : Type} {w : Setting}

/-- An inquiry whose questions are all answered fails by itself if it does. -/
theorem Inquiry.Follows.fails {R : Answering}
    (hR : ∀ e node s r t, R e node s r t → ∃ b, r = .ok b) {q : Inquiry α} {s t : Session}
    {f : Failure} (h : q.Follows R s (.error f) t) : q.Fails f := by
  induction q generalizing s with
  | done a => cases h.1
  | failed failure =>
    cases h.1
    exact rfl
  | ask e node next ih =>
    rcases h with ⟨b, u, -, hrest⟩ | ⟨failure, hfail, -⟩
    · exact ⟨b, ih b hrest⟩
    · obtain ⟨b, hb⟩ := hR _ _ _ _ _ hfail
      cases hb

namespace Setting

/-- A constraint fails only if one of its patterns cannot be used. -/
theorem evaluateConstraint_error {c : NodeConstraint} {node : Term} {s t : Session} {f : Failure}
    (h : w.evaluateConstraint c node s = some (.error f, t)) :
    Unusable w.limits.maxRegexLength c.strings f := by
  have hfresh : w.evaluateFresh c node s = some (.error f, t) := by
    cases evaluateConstraint_eq_some_iff.1 h with
    | unnumbered _ hf => exact hf
    | failed _ _ hf => exact hf
  exact NodeConstraint.evaluate_error (evaluateFresh_eq_some_iff.1 hfresh).1

/-- What a question fails for by itself: a feature that is not supported, too many ways to share out
arcs, a pattern of a constraint that cannot be used, or a declaration that has not begun at the node
and must not, because too many are in progress. -/
theorem Raises.cases {q : Question} {f : Failure} (h : w.Raises q f) :
    (∃ feature, f = .notImplemented feature) ∨
      (∃ complexity, w.limits.maxSearchSpace ≤ complexity ∧
        f = .searchSpaceExceeded complexity w.limits.maxSearchSpace) ∨
      (∃ c, q.expression = .node c ∧ Unusable w.limits.maxRegexLength c.strings f) ∨
      ∃ label index d, q.expression = .ref label ∧ w.schema.find? label = some (index, d) ∧
        q.state.declarations.answer? index q.node = none ∧
        w.limits.maxRecursionDepth ≤ q.state.depth ∧ f = .recursionTooDeep q.state.depth := by
  obtain ⟨e, node, s⟩ := q
  obtain ⟨t, h⟩ := h
  dsimp only at h ⊢
  cases h with
  | compound hc hq =>
    have hfails := hq.fails fun _ _ _ _ _ hr => hr.2
    exact (fails_inquiry hfails).imp_right .inl
  | constraint hc => exact .inr (.inr (.inl ⟨_, rfl, evaluateConstraint_error hc⟩))
  | refused _ _ _ => exact .inl ⟨_, rfl⟩
  | tooDeep hl ha _ hm => exact .inr (.inr (.inr ⟨_, _, _, rfl, hl, ha, hm, rfl⟩))
  | abandoned _ hr =>
    obtain ⟨-, b, hb⟩ := hr
    cases hb

/-! ## Declarations in progress -/

/-- Questions keep to the first node and to the ends of arcs, and the declarations in progress are
declarations of the schema at such nodes. -/
theorem Amid.known {q₀ q : Question} {begun : List (Nat × Term)} (h : w.Amid q₀ begun q) :
    (q.node = q₀.node ∨ q.node ∈ w.arcEnds) ∧
      ∀ p ∈ begun, p.1 < w.schema.size ∧ (p.2 = q₀.node ∨ p.2 ∈ w.arcEnds) := by
  induction h with
  | start => exact ⟨.inl rfl, nofun⟩
  | compound _ hc hq ih =>
    refine ⟨?_, ih.2⟩
    rcases (embeds_of_mentions hc hq.mentions).2 with heq | hmem
    · rw [heq]
      exact ih.1
    · exact .inr hmem
  | @declaration label node s index d begun _ he ih =>
    refine ⟨ih.1, fun p hp => ?_⟩
    rcases List.mem_cons.1 hp with rfl | hp
    · exact ⟨(Schema.mem_of_find? he.known).2, ih.1⟩
    · exact ih.2 p hp

/-- Not more declarations are in progress than the limit allows. -/
theorem Amid.depth_le {q₀ q : Question} {begun : List (Nat × Term)} (h : w.Amid q₀ begun q)
    (h₀ : q₀.state.depth ≤ w.limits.maxRecursionDepth) :
    q.state.depth ≤ w.limits.maxRecursionDepth := by
  induction h with
  | start => exact h₀
  | compound _ _ hq ih =>
    rw [hq.keeps.2]
    exact ih
  | declaration _ he _ => exact he.shallow

/-- At each moment of an evaluation the declarations in progress are counted and taken to hold, none
of them is in progress at a node twice, and there are no more than the limit allows. -/
theorem Moment.keeps {q₀ : Question} {begun : List (Nat × Term)} {u : Session}
    (h : w.Moment q₀ begun u) :
    u.depth = q₀.state.depth + begun.length ∧ begun.Nodup ∧
      (∀ p ∈ begun, u.declarations.answer? p.1 p.2 = some true) ∧
      (q₀.state.depth ≤ w.limits.maxRecursionDepth → u.depth ≤ w.limits.maxRecursionDepth) := by
  cases h with
  | before h => exact ⟨h.keeps.2, h.nodup, fun p hp => h.answered p.1 p.2 hp, h.depth_le⟩
  | behind h hr =>
    rw [hr.depth_eq]
    refine ⟨h.keeps.2, h.nodup, fun p hp => ?_, h.depth_le⟩
    exact hr.within.declarations _ _ _ (h.answered p.1 p.2 hp)

/-- A session at rest whose limit leaves room for every declaration at the node that is asked about
and at every node of the graph is not too deep in recursion. -/
theorem Returns.not_tooDeep {e : ShapeExpr} {node : Term} {s t : Session} {r : Except Failure Bool}
    (h : w.Returns e node s r t) (hs : s.depth = 0)
    (hlimit : w.schema.size * (w.arcEnds.toFinset.card + 1) ≤ w.limits.maxRecursionDepth) :
    ¬TooDeep r := by
  rintro ⟨depth, rfl⟩
  obtain ⟨begun, q, hamid, hraises⟩ := h.exists_raises
  rcases hraises.cases with
    ⟨_, hf⟩ | ⟨_, -, hf⟩ | ⟨_, -, _, _, -, -, hf⟩ | ⟨label, index, d, -, hl, ha, hdeep, -⟩
  · cases hf
  · cases hf
  · cases hf
  · -- The declaration that is too deep and those in progress are different pairs.
    obtain ⟨hnode, hknown⟩ := hamid.known
    have hnodup : ((index, q.node) :: begun).Nodup :=
      List.nodup_cons.2 ⟨hamid.not_begun ha, hamid.nodup⟩
    have hle : ((index, q.node) :: begun).length ≤
        w.schema.size * (node :: w.arcEnds.dedup).length := by
      refine length_le_of_known hnodup fun p hp => ?_
      rw [List.mem_cons, List.mem_dedup]
      rcases List.mem_cons.1 hp with rfl | hp
      · exact ⟨(Schema.mem_of_find? hl).2, hnode⟩
      · exact hknown p hp
    have hdepth : q.state.depth = s.depth + begun.length := hamid.keeps.2
    rw [List.length_cons, List.length_cons, ← List.card_toFinset] at hle
    omega

/-- Two declarations that point at each other, with just the room that they need. -/
def unfinishedWithRoom : Setting := { unfinished with limits := ⟨4, 1024, 1000⟩ }

end Setting

/-! ## Calls -/

namespace Session

/-- Between its calls a session is at rest.  At each moment of a call the declarations in progress
are counted, they are different, and there are no more than the limit allows.  And no reply tells of
too deep a recursion if the limit is at least the number of declarations times one more than the
number of nodes. -/
theorem call_depth {s : Session} (hs : s.Visited w fun _ => True) (c : Call) :
    s.depth = 0 ∧
      (∀ q u e node begun v, Makes w s c q u → w.question? q = some (e, node) →
        w.Moment ⟨e, node, u⟩ begun v → v.depth = begun.length ∧ begun.Nodup ∧
          (∀ p ∈ begun, v.declarations.answer? p.1 p.2 = some true) ∧
          v.depth ≤ w.limits.maxRecursionDepth) ∧
      (w.schema.size * (w.arcEnds.toFinset.card + 1) ≤ w.limits.maxRecursionDepth →
        ∀ reply t, s.call w c = some (reply, t) → ∀ depth,
          .recursionTooDeep depth ∉ reply.failures) := by
  have hrest : ∀ q u, Makes w s c q u → u.depth = 0 := fun q u hmakes =>
    Setting.depth_of_attained (hmakes.attained hs.attained fun _ _ => trivial).1
  refine ⟨Setting.depth_of_attained hs.attained, ?_, ?_⟩
  · intro q u e node begun v hmakes _ hmoment
    have hu : u.depth = 0 := hrest q u hmakes
    obtain ⟨hdepth, hnodup, hheld, hle⟩ := hmoment.keeps
    have hdepth : v.depth = u.depth + begun.length := hdepth
    rw [hu, Nat.zero_add] at hdepth
    exact ⟨hdepth, hnodup, hheld, hle (hu.le.trans (Nat.zero_le _))⟩
  · intro hlimit reply t hcall depth hmem
    obtain ⟨q, u, v, hmakes, hrespond⟩ := exists_makes_of_failure hcall hmem
    rcases respond_cases hrespond with ⟨e, node, -, hreturns⟩ | ⟨-, hstanding, -⟩
    · exact hreturns.not_tooDeep (hrest q u hmakes) hlimit ⟨depth, rfl⟩
    · unfold Setting.standing at hstanding
      split at hstanding <;> cases hstanding

/-- A call that fails, after another one that failed, with just the room that its declarations need;
the first of them is in progress when the second one is asked about. -/
theorem call_depth_unfinishedWithRoom : ∃ (s t : Session) (reply : Reply) (v : Session),
    s.Visited .unfinishedWithRoom (fun _ => True) ∧ s.size = 1 ∧
    s.call .unfinishedWithRoom (.request (.named "n" "A")) = some (reply, t) ∧
    Setting.unfinishedWithRoom.Moment ⟨.ref (.iri ⟨"A"⟩), .iri ⟨"n"⟩, s⟩ [(0, .iri ⟨"n"⟩)] v ∧
    v.depth = 1 ∧ reply.failures = [.notImplemented .externalShapes] ∧
    ∀ depth, .recursionTooDeep depth ∉ reply.failures := by
  have hs : Visited .unfinishedWithRoom (fun _ => True) ⟨0, [((1, .iri ⟨"n"⟩), true)], [], []⟩ :=
    .after .initial (c := .request (.named "n" "A")) (fun _ _ => trivial) rfl
  obtain ⟨-, hmoments, hroom⟩ := call_depth hs (.request (.named "n" "A"))
  have hstart : Setting.Amid .unfinishedWithRoom ⟨.ref (.iri ⟨"A"⟩), .iri ⟨"n"⟩,
      ⟨0, [((1, .iri ⟨"n"⟩), true)], [], []⟩⟩ [] _ := .start
  have hmoment := Setting.Moment.before (hstart.declaration ⟨rfl, rfl, rfl, by decide⟩)
  obtain ⟨hdepth, -⟩ := hmoments _ _ _ _ _ _ (.request _ _) rfl hmoment
  exact ⟨_, _, _, _, hs, rfl, rfl, hmoment, hdepth, rfl, hroom (by decide) _ _ rfl⟩

end Session

end ShEx
