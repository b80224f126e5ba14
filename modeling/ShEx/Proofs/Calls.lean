import ShEx.Proofs.Conservation
import ShEx.Proofs.Repetition
import ShEx.Proofs.UnknownResults

/-!
# Calls

Whoever holds a session can put a request to it, ask for a report on many pairs, clear it and ask
how many answers it holds (`Call`).  A report makes one request after the other (`Session.Makes`),
so the states that a session visits by calls are those that it comes to by requests and by
forgetting (`Session.Visited.attained`), and a failure that a reply tells of is the response to a
request that the call made (`Session.exists_makes_of_failure`).
-/

set_option autoImplicit false

namespace ShEx

open ShEx.Rdf

/-- What can be asked of a session: a request, a report on many pairs, to forget all answers, or how
many it holds. -/
inductive Call where
  | request (q : Request)
  | report (failFast : Bool) (pairs : List FixedAssociation)
  | clear
  | size

/-- What a call gives back. -/
inductive Reply where
  | result (r : Except Failure Bool)
  | report (results : Report)
  | cleared
  | size (n : Nat)

/-- The failures that a reply tells of. -/
def Reply.failures : Reply → List Failure
  | .result (.error f) => [f]
  | .result (.ok _) => []
  | .report results => results.filterMap fun result => result.outcome.failure?
  | .cleared => []
  | .size _ => []

/-- The requests that a call can make. -/
def Call.requests : Call → List Request
  | .request q => [q]
  | .report _ pairs => pairs.map (·.request)
  | .clear => []
  | .size => []

namespace Session

/-- The reply to a call and the state behind it; nothing if an evaluation does not end. -/
def call (s : Session) (w : Setting) : Call → Option (Reply × Session)
  | .request q => (s.respond w q).map fun (r, t) => (.result r, t)
  | .report failFast pairs =>
    (validateAll w failFast pairs s).map fun (results, t) => (.report results, t)
  | .clear => some (.cleared, s.clear)
  | .size => some (.size s.size, s)

/-- The states that a session comes to by calls with requests of a kind, whatever the replies. -/
inductive Visited (w : Setting) (allowed : Request → Prop) : Session → Prop
  | initial : Visited w allowed .initial
  | after {s t : Session} {c : Call} {reply : Reply} (h : Visited w allowed s)
      (hc : ∀ q ∈ c.requests, allowed q) (hr : s.call w c = some (reply, t)) : Visited w allowed t

/-- A call that begins in a state makes a request in another one. -/
inductive Makes (w : Setting) : Session → Call → Request → Session → Prop
  | request (s : Session) (q : Request) : Makes w s (.request q) q s
  | first (s : Session) (failFast : Bool) (pair : FixedAssociation)
      (rest : List FixedAssociation) : Makes w s (.report failFast (pair :: rest)) pair.request s
  | later {s u v : Session} {failFast : Bool} {pair : FixedAssociation}
      {rest : List FixedAssociation} {r : Except Failure Bool} {q : Request}
      (hr : s.respond w pair.request = some (r, u))
      (hgoes : (failFast && !(Outcome.ofResult r).isConformant) = false)
      (h : Makes w u (.report failFast rest) q v) :
      Makes w s (.report failFast (pair :: rest)) q v

/-- What a call does in a state: its reply, and the state behind it. -/
inductive Performs (w : Setting) (s : Session) : Call → Reply → Session → Prop
  | request {q : Request} {r : Except Failure Bool} {t : Session}
      (h : s.respond w q = some (r, t)) : Performs w s (.request q) (.result r) t
  | report {failFast : Bool} {pairs : List FixedAssociation} {results : Report} {t : Session}
      (h : validateAll w failFast pairs s = some (results, t)) :
      Performs w s (.report failFast pairs) (.report results) t
  | clear : Performs w s .clear .cleared s.clear
  | size : Performs w s .size (.size s.size) s

variable {w : Setting} {P : Request → Prop}

/-- What a call does is told by cases: a request or a report that is responded to, or an answer at
once. -/
theorem call_eq_some_iff {s t : Session} {c : Call} {reply : Reply} :
    s.call w c = some (reply, t) ↔ s.Performs w c reply t := by
  constructor
  · intro h
    cases c with
    | request q =>
      obtain ⟨⟨r, u⟩, hr, heq⟩ := Option.map_eq_some_iff.1 h
      cases heq
      exact .request hr
    | report failFast pairs =>
      obtain ⟨⟨results, u⟩, hr, heq⟩ := Option.map_eq_some_iff.1 h
      cases heq
      exact .report hr
    | clear =>
      cases h
      exact .clear
    | size =>
      cases h
      exact .size
  · intro h
    cases h with
    | request h => exact Option.map_eq_some_iff.2 ⟨_, h, rfl⟩
    | report h => exact Option.map_eq_some_iff.2 ⟨_, h, rfl⟩
    | clear => rfl
    | size => rfl

/-- A request that a call makes is one of those that it can make, put in a state that requests and
forgetting lead to. -/
theorem Makes.attained {s u : Session} {c : Call} {q : Request} (h : Makes w s c q u)
    (hs : s.Attained w P) (hc : ∀ q ∈ c.requests, P q) : u.Attained w P ∧ P q := by
  induction h with
  | request s q => exact ⟨hs, hc q (List.mem_singleton.2 rfl)⟩
  | first s failFast pair rest => exact ⟨hs, hc _ List.mem_cons_self⟩
  | later hr _ _ ih =>
    exact ih (.after hs (hc _ List.mem_cons_self) hr) fun q hq => hc q (List.mem_cons_of_mem _ hq)

/-- A report on many pairs makes requests only, so what it leaves behind can be reached by them. -/
theorem Attained.validateAll {failFast : Bool} {pairs : List FixedAssociation} {s t : Session}
    {report : Report} (hs : s.Attained w P) (hpairs : ∀ pair ∈ pairs, P pair.request)
    (h : validateAll w failFast pairs s = some (report, t)) : t.Attained w P := by
  induction pairs generalizing s report with
  | nil =>
    cases h
    exact hs
  | cons pair rest ih =>
    obtain ⟨r, u, hr, hrest⟩ := validateAll_cons_eq_some_iff.1 h
    have hu : u.Attained w P := .after hs (hpairs pair List.mem_cons_self) hr
    rcases hrest with ⟨-, rfl, -⟩ | ⟨-, others, hrest, -⟩
    · exact hu
    · exact ih hu (fun pair hpair => hpairs pair (List.mem_cons_of_mem _ hpair)) hrest

/-- What a call leaves behind can be reached by the requests that it can make. -/
theorem Attained.call {s t : Session} {c : Call} {reply : Reply} (hs : s.Attained w P)
    (hc : ∀ q ∈ c.requests, P q) (h : s.call w c = some (reply, t)) : t.Attained w P := by
  cases call_eq_some_iff.1 h with
  | @request q _ _ hr => exact .after hs (hc q (List.mem_singleton.2 rfl)) hr
  | report hr => exact hs.validateAll (fun pair hpair => hc _ (List.mem_map_of_mem hpair)) hr
  | clear => exact .cleared hs
  | size => exact hs

/-- Calls lead to no other states than the requests they make and forgetting all answers. -/
theorem Visited.attained {s : Session} (h : s.Visited w P) : s.Attained w P := by
  induction h with
  | initial => exact .initial
  | after _ hc hr ih => exact ih.call hc hr

/-- What is conserved by requests of a kind and survives clearing holds of every state that they
lead to. -/
theorem Attained.conserved {Q : ShapeExpr → Prop} {I : Session → Prop} (h : w.Conserves Q I)
    (hP : ∀ q, P q → ∀ e node, w.question? q = some (e, node) → Q e) (hinitial : I .initial)
    (hclear : ∀ s, I s → I s.clear) {s : Session} (hs : s.Attained w P) : I s := by
  induction hs with
  | initial => exact hinitial
  | after _ hq hr ih => exact h.respond hr (hP _ hq) ih
  | cleared _ ih => exact hclear _ ih

/-- A failure in a report is the response to one of its requests. -/
theorem exists_makes_of_outcome {failFast : Bool} {pairs : List FixedAssociation} {s t : Session}
    {report : Report} (h : validateAll w failFast pairs s = some (report, t))
    {result : AssociationResult} (hresult : result ∈ report) {f : Failure}
    (hf : result.outcome.failure? = some f) :
    ∃ q u v, Makes w s (.report failFast pairs) q u ∧ u.respond w q = some (.error f, v) := by
  induction pairs generalizing s report with
  | nil =>
    cases h
    cases hresult
  | cons pair rest ih =>
    obtain ⟨r, u, hr, hrest⟩ := validateAll_cons_eq_some_iff.1 h
    have hfirst : (Outcome.ofResult r).failure? = some f → s.respond w pair.request =
        some (.error f, u) := by
      intro hfail
      rw [hr]
      rcases r with failure | b
      · cases hfail
        rfl
      · cases b <;> cases hfail
    rcases hrest with ⟨-, rfl, rfl⟩ | ⟨hgoes, others, hothers, rfl⟩
    · rw [List.mem_singleton.1 hresult] at hf
      exact ⟨_, s, t, .first s failFast pair rest, hfirst hf⟩
    · rcases List.mem_cons.1 hresult with rfl | hresult
      · exact ⟨_, s, u, .first s failFast pair rest, hfirst hf⟩
      · obtain ⟨q, u', v, hmakes, hfail⟩ := ih hothers hresult
        exact ⟨q, u', v, .later hr hgoes hmakes, hfail⟩

/-- A failure that a reply tells of is the response to a request that the call made. -/
theorem exists_makes_of_failure {s t : Session} {c : Call} {reply : Reply}
    (h : s.call w c = some (reply, t)) {f : Failure} (hf : f ∈ reply.failures) :
    ∃ q u v, Makes w s c q u ∧ u.respond w q = some (.error f, v) := by
  cases call_eq_some_iff.1 h with
  | @request q r _ hr =>
    cases r with
    | ok b => cases hf
    | error f' =>
      rw [List.mem_singleton.1 hf]
      exact ⟨q, s, t, .request s q, hr⟩
  | report hr =>
    obtain ⟨result, hresult, hf⟩ := List.mem_filterMap.1 hf
    exact exists_makes_of_outcome hr hresult hf
  | clear => cases hf
  | size => cases hf

end Session

end ShEx
