import Mathlib.Data.List.Perm.Subperm
import ShEx.Proofs.NestingBound

/-!
# What keeps a triple expression from being compiled

A triple expression is compiled to the end, whatever it stands beside and wherever it stands.  It is
refused if it reveals a cardinality on a group, semantic actions, or a reference that is taken for a
circular one (`Schema.Obstructs`), and only then (`Schema.exists_compile_iff`).

A reference is taken for a circular one if it reveals itself.  But so is one that is known and leads
to an unknown label over references only (`Schema.Dangles`): following references gives nothing in
both cases, and that the first label is known is taken to tell them apart.
-/

set_option autoImplicit false

namespace ShEx

open ShEx.Rdf

/-- The cardinality of a group. -/
def TripleExpr.groupCardinality? : TripleExpr → Option Cardinality
  | .eachOf g => g.cardinality
  | .oneOf g => g.cardinality
  | .triple _ => none
  | .ref _ => none

/-- The semantic actions of a group or a triple constraint. -/
def TripleExpr.acts : TripleExpr → List SemanticAction
  | .eachOf g => g.acts
  | .oneOf g => g.acts
  | .triple t => t.acts
  | .ref _ => []

/-- Semantic actions are refused where there are any, and for what they are. -/
theorem rejectActs_error {acts : List SemanticAction} {failure : Failure}
    (h : rejectActs acts = .error failure) :
    acts ≠ [] ∧ failure = .notImplemented .semanticActions := by
  cases acts with
  | nil => cases h
  | cons act acts =>
    cases h
    exact ⟨List.cons_ne_nil _ _, rfl⟩

/-- Where semantic actions are not refused, there are none. -/
theorem rejectActs_ok {acts : List SemanticAction} {u : Unit} (h : rejectActs acts = .ok u) :
    acts = [] := by
  cases acts with
  | nil => rfl
  | cons act acts => cases h

namespace Schema

/-! ## Obstructions -/

/-- A label reveals itself. -/
def Loops (s : Schema) (label : Label) : Prop := Relation.TransGen s.Opens (.ref label) (.ref label)

/-- A reference is linked to the triple expression with its label. -/
inductive Links (s : Schema) : TripleExpr → TripleExpr → Prop
  | ref {label : Label} {te : TripleExpr} (h : s.tripleExpression? label = some te) :
      Links s (.ref label) te

/-- A link is one way to open a triple expression. -/
theorem links_le_opens (s : Schema) : s.Links ≤ s.Opens
  | _, _, .ref hl => .ref hl

/-- What a chain of links leads to is revealed. -/
theorem reveals_of_links {s : Schema} {e e' : TripleExpr} (h : Relation.ReflTransGen s.Links e e') :
    s.Reveals e e' := Relation.ReflTransGen.mono s.links_le_opens _ _ h

/-- The chain of references that begins with a label ends with an unknown one. -/
inductive Dangles (s : Schema) : Label → Prop
  | unknown {label : Label} (hl : s.tripleExpression? label = none) : Dangles s label
  | link {label next : Label} (hl : s.tripleExpression? label = some (.ref next))
      (h : Dangles s next) : Dangles s label

/-- A label is known, and the chain of references that begins with it ends with an unknown one. -/
structure Misleads (s : Schema) (label : Label) : Prop where
  known : s.tripleExpression? label ≠ none
  dangles : s.Dangles label

/-- What a triple expression has at its top that is not supported. -/
inductive Obstructs (s : Schema) : TripleExpr → Feature → Prop
  | cardinality {e : TripleExpr} {c : Cardinality} (he : e.groupCardinality? = some c)
      (hc : c ≠ .one) : Obstructs s e .groupCardinality
  | acts {e : TripleExpr} (he : e.acts ≠ []) : Obstructs s e .semanticActions
  | loops {label : Label} (h : s.Loops label) : Obstructs s (.ref label) .recursiveTripleReferences
  | misleads {label : Label} (h : s.Misleads label) :
      Obstructs s (.ref label) .recursiveTripleReferences

/-- A failure reports something that a triple expression reveals and that is not supported. -/
def Obstructed (s : Schema) (te : TripleExpr) (failure : Failure) : Prop :=
  ∃ e feature, s.Reveals te e ∧ s.Obstructs e feature ∧ failure = .notImplemented feature

/-- A triple expression reveals nothing that is not supported. -/
def Clear (s : Schema) (te : TripleExpr) : Prop :=
  ∀ e feature, s.Reveals te e → ¬s.Obstructs e feature

variable {s : Schema}

/-- What is not supported in something that is revealed keeps the whole triple expression from being
compiled. -/
theorem Obstructed.of_reveals {te e : TripleExpr} {failure : Failure} (h : s.Reveals te e)
    (he : s.Obstructed e failure) : s.Obstructed te failure := by
  obtain ⟨e', feature, hreveals, hobstructs, hfailure⟩ := he
  exact ⟨e', feature, h.trans hreveals, hobstructs, hfailure⟩

/-- A triple expression is clear if what it opens into is and it has nothing at its own top that is
not supported.  That it does not reveal itself follows. -/
theorem Clear.of_opens {te : TripleExpr} (hopens : ∀ e, s.Opens te e → s.Clear e)
    (hcardinality : ∀ c, te.groupCardinality? = some c → c = .one) (hacts : te.acts = [])
    (hleads : ∀ label, te = .ref label → ¬s.Misleads label) : s.Clear te := by
  intro e feature hreveals hobstructs
  rcases (reveals_iff te).1 hreveals with rfl | ⟨e', hopen, hreveals⟩
  · cases hobstructs with
    | cardinality he hc => exact hc (hcardinality _ he)
    | acts he => exact he hacts
    | loops h =>
      obtain ⟨e', hopen, hreveals⟩ := Relation.TransGen.head'_iff.1 h
      exact hopens e' hopen _ _ hreveals (.loops h)
    | misleads h => exact hleads _ rfl h
  · exact hopens e' hopen e feature hreveals hobstructs

/-! ## Chains of references -/

/-- A chain that has an end with a triple expression does not dangle. -/
theorem not_dangles_of_follow? {n : Nat} {label : Label} {target : TripleExpr}
    (h : s.follow? n (.ref label) = some target) : ¬s.Dangles label := by
  intro hdangles
  induction hdangles generalizing n with
  | unknown hl =>
    cases n with
    | zero => cases h
    | succ n => simp only [follow?, hl, reduceCtorEq] at h
  | link hl _ ih =>
    cases n with
    | zero => cases h
    | succ n =>
      simp only [follow?, hl] at h
      exact ih h

/-- A chain that dangles is linked to the unknown label at its end. -/
theorem Dangles.exists_linked {label : Label} (h : s.Dangles label) :
    ∃ l, Relation.ReflTransGen s.Links (.ref label) (.ref l) ∧ s.tripleExpression? l = none := by
  induction h with
  | @unknown label hl => exact ⟨label, .refl, hl⟩
  | link hl _ ih =>
    obtain ⟨l, hlinks, hnone⟩ := ih
    exact ⟨l, .head (.ref hl) hlinks, hnone⟩

/-- So the unknown label is revealed. -/
theorem Dangles.exists_unknown {label : Label} (h : s.Dangles label) :
    ∃ l, s.Reveals (.ref label) (.ref l) ∧ s.tripleExpression? l = none := by
  obtain ⟨l, hlinks, hnone⟩ := h.exists_linked
  exact ⟨l, reveals_of_links hlinks, hnone⟩

/-- The end of a chain is linked to its beginning. -/
theorem links_of_follow? {n : Nat} {e target : TripleExpr} (h : s.follow? n e = some target) :
    Relation.ReflTransGen s.Links e target := by
  induction n generalizing e with
  | zero => cases h
  | succ n ih =>
    cases e with
    | ref label =>
      simp only [follow?] at h
      split at h
      · cases h
      · next te hl => exact .head (.ref hl) (ih h)
    | _ =>
      cases h
      exact .refl

/-- What is at the end of a chain is revealed. -/
theorem reveals_of_follow? {n : Nat} {e target : TripleExpr} (h : s.follow? n e = some target) :
    s.Reveals e target := reveals_of_links (links_of_follow? h)

/-- A reference that stands for something has a known label. -/
theorem known_of_resolveTriple? {label : Label} {target : TripleExpr}
    (h : s.resolveTriple? (.ref label) = some target) : s.tripleExpression? label ≠ none := by
  intro hl
  simp only [resolveTriple?, follow?, hl] at h
  cases h

/-- What a reference stands for, it opens up to. -/
theorem transGen_of_resolveTriple? {label : Label} {target : TripleExpr}
    (h : s.resolveTriple? (.ref label) = some target) :
    Relation.TransGen s.Opens (.ref label) target := by
  simp only [resolveTriple?, follow?] at h
  split at h
  · cases h
  · next te hl => exact .head' (.ref hl) (reveals_of_follow? h)

/-- A chain is clear if its end is. -/
theorem Clear.of_follow? {n : Nat} {e target : TripleExpr} (h : s.follow? n e = some target)
    (ht : s.Clear target) : s.Clear e := by
  induction n generalizing e with
  | zero => cases h
  | succ n ih =>
    cases e with
    | ref label =>
      have hfollow := h
      simp only [follow?] at h
      split at h
      · cases h
      · next te hl =>
        refine .of_opens (fun e he => ?_) (fun c hc => by cases hc) rfl (fun label' heq hmis => ?_)
        · cases hl.symm.trans (opens_ref_iff.1 he)
          exact ih h
        · cases heq
          exact not_dangles_of_follow? hfollow hmis.dangles
    | _ =>
      cases h
      exact ht

/-- A list of different known labels is not longer than the list of all labelled triple
expressions. -/
theorem length_le_of_labels {labels : List Label} (hnodup : labels.Nodup)
    (hknown : ∀ l ∈ labels, s.tripleExpression? l ≠ none) :
    labels.length ≤ s.tripleExpressions.length := by
  have hsubset : labels ⊆ s.tripleExpressions.map (·.1) := by
    intro l hl
    obtain ⟨te, hte⟩ := Option.ne_none_iff_exists'.1 (hknown l hl)
    exact List.mem_map.2 ⟨(l, te), mem_of_tripleExpression? hte, rfl⟩
  have hle := (List.subperm_of_subset hnodup hsubset).length_le
  rwa [List.length_map] at hle

/-- Different known labels have been passed, and with so many more steps all that there are would
be. -/
structure Room (s : Schema) (n : Nat) (passed : List Label) : Prop where
  enough : s.tripleExpressions.length + 1 ≤ n + passed.length
  nodup : passed.Nodup
  known : ∀ l ∈ passed, s.tripleExpression? l ≠ none

namespace Room

variable {n : Nat} {passed : List Label}

/-- With one step more than there are labels, there is room at the beginning. -/
theorem start {n : Nat} (h : s.tripleExpressions.length + 1 ≤ n) : s.Room n [] :=
  ⟨h, List.nodup_nil, nofun⟩

/-- There is always one more step, as there are not so many labels. -/
theorem exists_succ (h : s.Room n passed) : ∃ m, n = m + 1 := by
  have hle := length_le_of_labels h.nodup h.known
  have henough := h.enough
  exact ⟨n - 1, by omega⟩

/-- A known label that is passed for the first time uses up one step and one of the labels that are
left, so there is still room. -/
theorem pass (h : s.Room (n + 1) passed) {label : Label} (hnew : label ∉ passed)
    (hl : s.tripleExpression? label ≠ none) : s.Room n (label :: passed) := by
  refine ⟨?_, List.nodup_cons.2 ⟨hnew, h.nodup⟩, List.forall_mem_cons.2 ⟨hl, h.known⟩⟩
  have henough := h.enough
  rw [List.length_cons]
  omega

end Room

/-- A chain that gives nothing dangles or leads into a circle: it does not pass more labels than
there are without passing one of them again. -/
theorem dangles_or_circles_of_follow? {n : Nat} {label : Label} {passed : List Label}
    (hroom : s.Room n passed)
    (hpassed : ∀ l ∈ passed, Relation.TransGen s.Links (.ref l) (.ref label))
    (h : s.follow? n (.ref label) = none) :
    s.Dangles label ∨ ∃ l, Relation.ReflTransGen s.Links (.ref label) (.ref l) ∧
      Relation.TransGen s.Links (.ref l) (.ref l) := by
  induction n generalizing label passed with
  | zero =>
    obtain ⟨m, hm⟩ := hroom.exists_succ
    cases hm
  | succ n ih =>
    by_cases hmem : label ∈ passed
    · exact .inr ⟨label, .refl, hpassed label hmem⟩
    cases hl : s.tripleExpression? label with
    | none => exact .inl (.unknown hl)
    | some te =>
      simp only [follow?, hl] at h
      have hroom' : s.Room n (label :: passed) :=
        hroom.pass hmem (hl.symm ▸ Option.some_ne_none te)
      obtain ⟨n, rfl⟩ := hroom'.exists_succ
      cases te with
      | ref next =>
        have hpassed' : ∀ l ∈ label :: passed,
            Relation.TransGen s.Links (.ref l) (.ref next) := by
          intro l hmem'
          rcases List.mem_cons.1 hmem' with rfl | hmem'
          · exact .single (.ref hl)
          · exact (hpassed l hmem').tail (.ref hl)
        rcases ih hroom' hpassed' h with hdangles | ⟨l, hlinks, hcircle⟩
        · exact .inl (.link hl hdangles)
        · exact .inr ⟨l, .head (.ref hl) hlinks, hcircle⟩
      | _ => cases h

/-- A known label that stands for nothing misleads or leads into a circle. -/
theorem obstructed_of_resolveTriple? {label : Label} (hknown : s.tripleExpression? label ≠ none)
    (h : s.resolveTriple? (.ref label) = none) :
    s.Obstructed (.ref label) (.notImplemented .recursiveTripleReferences) := by
  rcases dangles_or_circles_of_follow? (.start (Nat.le_refl _)) nofun h with
    hdangles | ⟨l, hlinks, hcircle⟩
  · exact ⟨.ref label, _, .refl, .misleads ⟨hknown, hdangles⟩, rfl⟩
  · have hloops : s.Loops l := Relation.TransGen.mono s.links_le_opens _ _ hcircle
    exact ⟨.ref l, _, reveals_of_links hlinks, .loops hloops, rfl⟩

/-! ## What is refused, and what is not -/

section CompileWith

variable {expand : Label → List TripleConstraint → Except Failure Compiled}

/-- Where a list of members is refused, one of the members is. -/
theorem exists_member_of_error {es : List TripleExpr} {slots : List TripleConstraint}
    {failure : Failure} (h : TripleExpr.compileAllWith expand es slots = .error failure) :
    ∃ e ∈ es, ∃ slots', e.compileWith expand slots' = .error failure := by
  induction es generalizing slots with
  | nil => cases h
  | cons e es ih =>
    simp only [TripleExpr.compileAllWith] at h
    rcases bind_eq_error h with h | ⟨⟨f, between⟩, -, h⟩
    · exact ⟨e, List.mem_cons_self, slots, h⟩
    rcases bind_eq_error h with h | ⟨⟨fs, after⟩, -, h⟩
    · obtain ⟨e', he', h⟩ := ih h
      exact ⟨e', List.mem_cons_of_mem _ he', h⟩
    · cases h

/-- Where a list of members is compiled, each of the members is. -/
theorem members_of_ok {es : List TripleExpr} {slots : List TripleConstraint}
    {compiled : List Formula × List TripleConstraint}
    (h : TripleExpr.compileAllWith expand es slots = .ok compiled) :
    ∀ e ∈ es, ∃ slots' compiled', e.compileWith expand slots' = .ok compiled' := by
  induction es generalizing slots compiled with
  | nil => nofun
  | cons e es ih =>
    simp only [TripleExpr.compileAllWith] at h
    obtain ⟨⟨f, between⟩, hf, h⟩ := exists_of_bind_eq_ok h
    obtain ⟨⟨fs, after⟩, hfs, -⟩ := exists_of_bind_eq_ok h
    intro e' he'
    rcases List.mem_cons.1 he' with rfl | he'
    · exact ⟨slots, _, hf⟩
    · exact ih hfs e' he'

/-- A group is refused for its cardinality, for its actions or where a member is refused. -/
theorem group_error {g : TripleGroup} {slots : List TripleConstraint} {failure : Failure}
    (h : g.compileWith expand slots = .error failure) :
    (∃ c, g.cardinality = some c ∧ c ≠ .one ∧ failure = .notImplemented .groupCardinality) ∨
      (g.acts ≠ [] ∧ failure = .notImplemented .semanticActions) ∨
        ∃ e ∈ g.members, ∃ slots', e.compileWith expand slots' = .error failure := by
  obtain ⟨members, cardinality, acts⟩ := g
  simp only [TripleGroup.compileWith] at h
  split at h
  · next hany =>
    cases h
    obtain ⟨c, rfl, hc⟩ := (Option.any_eq_true _ _).1 hany
    exact .inl ⟨c, rfl, bne_iff_ne.1 hc, rfl⟩
  · rcases bind_eq_error h with h | ⟨-, -, h⟩
    · exact .inr (.inl (rejectActs_error h))
    · exact .inr (.inr (exists_member_of_error h))

/-- A group that is compiled stands once and has no actions, and its members are compiled. -/
theorem group_ok {g : TripleGroup} {slots : List TripleConstraint}
    {compiled : List Formula × List TripleConstraint}
    (h : g.compileWith expand slots = .ok compiled) :
    (∀ c, g.cardinality = some c → c = .one) ∧ g.acts = [] ∧
      ∀ e ∈ g.members, ∃ slots' compiled', e.compileWith expand slots' = .ok compiled' := by
  obtain ⟨members, cardinality, acts⟩ := g
  simp only [TripleGroup.compileWith] at h
  split at h
  · cases h
  · next hany =>
    obtain ⟨u, hacts, h⟩ := exists_of_bind_eq_ok h
    refine ⟨fun c hc => ?_, rejectActs_ok hacts, members_of_ok h⟩
    by_contra hne
    exact hany ((Option.any_eq_true _ _).2 ⟨c, hc, bne_iff_ne.2 hne⟩)

/-- A group is refused for what it reveals or where the expansion of a label is that it reveals, if
that is so of its members. -/
theorem obstructed_of_group {g : TripleGroup} {te : TripleExpr}
    (hcardinality : te.groupCardinality? = g.cardinality) (hacts : te.acts = g.acts)
    (hopens : ∀ e ∈ g.members, s.Opens te e) {failure : Failure}
    (hmembers : ∀ e ∈ g.members, ∀ slots, e.compileWith expand slots = .error failure →
      s.Obstructed e failure ∨
        ∃ label slots', s.Reveals e (.ref label) ∧ expand label slots' = .error failure)
    {slots : List TripleConstraint} (h : g.compileWith expand slots = .error failure) :
    s.Obstructed te failure ∨
      ∃ label slots', s.Reveals te (.ref label) ∧ expand label slots' = .error failure := by
  rcases group_error h with ⟨c, hc, hne, hfailure⟩ | ⟨ha, hfailure⟩ | ⟨e, he, slots', h⟩
  · exact .inl ⟨te, _, .refl, .cardinality (hcardinality.trans hc) hne, hfailure⟩
  · exact .inl ⟨te, _, .refl, .acts (hacts ▸ ha), hfailure⟩
  · have hopen := hopens e he
    rcases hmembers e he slots' h with hobstructed | ⟨label, slots₁, hreveals, h⟩
    · exact .inl (.of_reveals (.single hopen) hobstructed)
    · exact .inr ⟨label, slots₁, .head hopen hreveals, h⟩

/-- A triple expression is refused for what it reveals or where the expansion of a label is that it
reveals. -/
theorem obstructed_of_compileWith {te : TripleExpr} {slots : List TripleConstraint}
    {failure : Failure} (h : te.compileWith expand slots = .error failure) :
    s.Obstructed te failure ∨
      ∃ label slots', s.Reveals te (.ref label) ∧ expand label slots' = .error failure := by
  induction te using TripleExpr.memberInduction generalizing slots with
  | eachOf g ih =>
    simp only [TripleExpr.compileWith] at h
    rcases bind_eq_error h with h | ⟨_, -, h⟩
    · exact obstructed_of_group rfl rfl (fun e he => .eachOf he) (fun e he slots h => ih e he h) h
    · cases h
  | oneOf g ih =>
    simp only [TripleExpr.compileWith] at h
    rcases bind_eq_error h with h | ⟨_, -, h⟩
    · exact obstructed_of_group rfl rfl (fun e he => .oneOf he) (fun e he slots h => ih e he h) h
    · cases h
  | triple t =>
    simp only [TripleExpr.compileWith] at h
    rcases bind_eq_error h with h | ⟨-, -, h⟩
    · obtain ⟨hacts, hfailure⟩ := rejectActs_error h
      exact .inl ⟨.triple t, _, .refl, .acts hacts, hfailure⟩
    · cases h
  | ref label => exact .inr ⟨label, slots, .refl, h⟩

/-- A triple expression that is compiled is clear if the labels are that are expanded. -/
theorem clear_of_compileWith
    (hexpand : ∀ label slots compiled, expand label slots = .ok compiled → s.Clear (.ref label))
    {te : TripleExpr} {slots : List TripleConstraint} {compiled : Compiled}
    (h : te.compileWith expand slots = .ok compiled) : s.Clear te := by
  induction te using TripleExpr.memberInduction generalizing slots compiled with
  | eachOf g ih =>
    simp only [TripleExpr.compileWith] at h
    obtain ⟨⟨parts, after⟩, h, -⟩ := exists_of_bind_eq_ok h
    obtain ⟨hcardinality, hacts, hmembers⟩ := group_ok h
    refine .of_opens (fun e he => ?_) hcardinality hacts (fun label h => by cases h)
    obtain ⟨slots', compiled', h⟩ := hmembers e (opens_eachOf_iff.1 he)
    exact ih e (opens_eachOf_iff.1 he) h
  | oneOf g ih =>
    simp only [TripleExpr.compileWith] at h
    obtain ⟨⟨parts, after⟩, h, -⟩ := exists_of_bind_eq_ok h
    obtain ⟨hcardinality, hacts, hmembers⟩ := group_ok h
    refine .of_opens (fun e he => ?_) hcardinality hacts (fun label h => by cases h)
    obtain ⟨slots', compiled', h⟩ := hmembers e (opens_oneOf_iff.1 he)
    exact ih e (opens_oneOf_iff.1 he) h
  | triple t =>
    simp only [TripleExpr.compileWith] at h
    obtain ⟨u, hacts, -⟩ := exists_of_bind_eq_ok h
    exact .of_opens (fun e he => (not_opens_triple he).elim) (fun c hc => by cases hc)
      (rejectActs_ok hacts) (fun label h => by cases h)
  | ref label => exact hexpand label slots compiled h

end CompileWith

/-- Inside labels that have been opened up to it, a triple expression is refused for something that
it reveals. -/
theorem obstructed_of_compileTriple {n : Nat} {expanding : List Label} {te : TripleExpr}
    (hroom : s.Room n expanding)
    (hpath : ∀ l ∈ expanding, Relation.TransGen s.Opens (.ref l) te)
    {slots : List TripleConstraint} {failure : Failure}
    (h : s.compileTriple n expanding te slots = .error failure) : s.Obstructed te failure := by
  induction n generalizing expanding te slots with
  | zero =>
    -- Labels that are expanded inside each other are different, so there are not so many.
    obtain ⟨m, hm⟩ := hroom.exists_succ
    cases hm
  | succ n ih =>
    rcases obstructed_of_compileWith h with hobstructed | ⟨label, slots', hreveals, h⟩
    · exact hobstructed
    split at h
    · next hcontains =>
      cases h
      have hloops : s.Loops label :=
        (hpath label (List.contains_iff_mem.1 hcontains)).trans_left hreveals
      exact ⟨.ref label, _, hreveals, .loops hloops, rfl⟩
    next hnew =>
    split at h
    · next target hr =>
      have hopens := transGen_of_resolveTriple? hr
      have hroom' : s.Room n (label :: expanding) :=
        hroom.pass (fun hmem => hnew (List.contains_iff_mem.2 hmem)) (known_of_resolveTriple? hr)
      have hpath' : ∀ l ∈ label :: expanding, Relation.TransGen s.Opens (.ref l) target := by
        refine List.forall_mem_cons.2 ⟨hopens, fun l hl => ?_⟩
        exact ((hpath l hl).trans_left hreveals).trans hopens
      exact .of_reveals (hreveals.trans hopens.to_reflTransGen) (ih hroom' hpath' h)
    · next hr =>
      split at h
      · next hsome =>
        cases h
        have hlabel : s.tripleExpression? label ≠ none := Option.isSome_iff_ne_none.1 hsome
        exact .of_reveals hreveals (obstructed_of_resolveTriple? hlabel hr)
      · cases h

/-- What is compiled reveals nothing that is not supported. -/
theorem clear_of_compileTriple {n : Nat} {expanding : List Label} {te : TripleExpr}
    {slots : List TripleConstraint} {compiled : Compiled}
    (h : s.compileTriple n expanding te slots = .ok compiled) : s.Clear te := by
  induction n generalizing expanding te slots compiled with
  | zero => exact clear_of_compileWith (fun label slots compiled hc => by cases hc) h
  | succ n ih =>
    refine clear_of_compileWith (fun label slots compiled hc => ?_) h
    split at hc
    · cases hc
    split at hc
    · next target hr => exact .of_follow? hr (ih hc)
    · split at hc
      · cases hc
      · next hnone =>
        have hl : s.tripleExpression? label = none := by simpa using hnone
        refine .of_opens (fun e he => ?_) (fun c hc => by cases hc) rfl
          (fun label' heq hmisleads => ?_)
        · rw [opens_ref_iff, hl] at he
          cases he
        · cases heq
          exact hmisleads.known hl

/-- The triple expression of a shape is refused only for something that it reveals. -/
theorem obstructed_of_compile {expression : Option TripleExpr} {failure : Failure}
    (h : s.compile expression = .error failure) :
    ∃ te, expression = some te ∧ s.Obstructed te failure := by
  cases expression with
  | none => cases h
  | some te =>
    exact ⟨te, rfl, obstructed_of_compileTriple (.start (Nat.le_refl _)) nofun h⟩

/-- A triple expression that is compiled reveals nothing that is not supported. -/
theorem clear_of_compile {te : TripleExpr} {compiled : Compiled}
    (h : s.compile (some te) = .ok compiled) : s.Clear te :=
  clear_of_compileTriple h

/-- A triple expression is compiled if it reveals nothing that is not supported, and only then. -/
theorem exists_compile_iff {te : TripleExpr} :
    (∃ compiled, s.compile (some te) = .ok compiled) ↔ s.Clear te := by
  constructor
  · rintro ⟨compiled, h⟩
    exact clear_of_compile h
  · intro h
    cases hc : s.compile (some te) with
    | ok compiled => exact ⟨compiled, rfl⟩
    | error failure =>
      obtain ⟨te', heq, e, feature, hreveals, hobstructs, -⟩ := obstructed_of_compile hc
      cases heq
      exact absurd hobstructs (h e feature hreveals)

end Schema

end ShEx
