import ShEx.CommandLine.Run
import ShEx.Proofs.Repetition

/-!
# Reports that stop early

A report on many pairs asks about one after the other, in the state that the ones before it left
(`validateAll_false_eq`).  One that stops behind the first result that is not conformant asks the
same questions in the same states up to there, so that it is a beginning of the whole report
(`validateAll_true_eq`) and shows in the same way whether all nodes conform
(`Report.conforms_untilFailure`).
-/

set_option autoImplicit false

namespace ShEx

open ShEx.Rdf

/-! ## The beginning of a report -/

/-- The results of a report up to the first one that is not conformant, which is included. -/
def Report.untilFailure (report : Report) : Report :=
  List.take (List.findIdx (fun x => !x.outcome.isConformant) report + 1) report

namespace Report

/-- A report goes on behind a result that is conformant. -/
theorem untilFailure_cons_of_conformant {x : AssociationResult}
    (hx : x.outcome.isConformant = true) (rest : Report) :
    untilFailure (x :: rest) = x :: rest.untilFailure := by
  simp only [untilFailure, List.findIdx_cons, hx, Bool.not_true, cond_false, List.take_succ_cons]

/-- A report that stops early ends with the first result that is not conformant. -/
theorem untilFailure_cons_of_not_conformant {x : AssociationResult}
    (hx : x.outcome.isConformant = false) (rest : Report) : untilFailure (x :: rest) = [x] := by
  simp only [untilFailure, List.findIdx_cons, hx, Bool.not_false, cond_true, List.take_succ_cons,
    List.take_zero]

/-- Whether all nodes conform is seen at the first result that is not conformant. -/
theorem conforms_untilFailure (report : Report) :
    report.untilFailure.conforms = report.conforms := by
  induction report with
  | nil => rfl
  | cons x rest ih =>
    cases hx : x.outcome.isConformant with
    | true =>
      rw [untilFailure_cons_of_conformant hx]
      simp only [conforms, List.all_cons] at ih ⊢
      rw [ih]
    | false =>
      rw [untilFailure_cons_of_not_conformant hx]
      simp only [conforms, List.all_cons, hx, Bool.false_and]

end Report

namespace Session

variable {w : Setting}

/-! ## Pair by pair -/

/-- The result for one pair and the state behind it; nothing if the evaluation does not end. -/
def resultFor (w : Setting) (pair : FixedAssociation) : StateT Session Option AssociationResult :=
  fun s => (s.respond w pair.request).map fun (r, t) => (⟨pair, .ofResult r⟩, t)

/-- A report that does not stop asks about all pairs. -/
theorem validateAll_false_eq (pairs : List FixedAssociation) (s : Session) :
    validateAll w false pairs s = (pairs.mapM (resultFor w)).run s := by
  induction pairs generalizing s with
  | nil => rfl
  | cons pair rest ih =>
    have hfirst : s.validate w pair.node pair.target.label? = s.respond w pair.request := rfl
    have hresult : (resultFor w pair).run s =
      (s.respond w pair.request).map fun (r, t) => (⟨pair, .ofResult r⟩, t) := rfl
    rw [validateAll, hfirst, List.mapM_cons, StateT.run_bind, hresult]
    cases s.respond w pair.request with
    | none => rfl
    | some result =>
      simp only [Bool.false_and, Bool.false_eq_true, if_false, ih, Option.map_some, StateT.run_bind,
        StateT.run_pure, Option.bind_eq_bind, Option.bind_some, Option.pure_def]
      rw [Option.map_eq_bind]
      rfl

/-- Such a report has one result for each pair. -/
theorem map_pair_of_validateAll {pairs : List FixedAssociation} {s t : Session} {full : Report}
    (h : validateAll w false pairs s = some (full, t)) : full.map (·.pair) = pairs := by
  induction pairs generalizing s full with
  | nil =>
    cases h
    rfl
  | cons pair rest ih =>
    obtain ⟨r, u, -, ⟨hstop, -⟩ | ⟨-, others, hothers, rfl⟩⟩ := validateAll_cons_eq_some_iff.1 h
    · cases hstop
    · rw [List.map_cons, ih hothers]

/-! ## Stopping early -/

/-- Where the whole report is given, so is the one that stops, and it is the beginning of it. -/
theorem exists_validateAll_untilFailure {pairs : List FixedAssociation} {s t : Session}
    {full : Report} (h : validateAll w false pairs s = some (full, t)) :
    ∃ u, validateAll w true pairs s = some (full.untilFailure, u) := by
  induction pairs generalizing s full with
  | nil =>
    cases h
    exact ⟨t, rfl⟩
  | cons pair rest ih =>
    obtain ⟨r, s', hr, ⟨hstop, -⟩ | ⟨-, others, hothers, rfl⟩⟩ := validateAll_cons_eq_some_iff.1 h
    · cases hstop
    · cases hx : (Outcome.ofResult r).isConformant with
      | true =>
        obtain ⟨u, hu⟩ := ih hothers
        rw [Report.untilFailure_cons_of_conformant hx]
        refine ⟨u, validateAll_cons_eq_some_iff.2 ⟨r, s', hr, .inr ⟨?_, _, hu, rfl⟩⟩⟩
        rw [hx]
        rfl
      | false =>
        rw [Report.untilFailure_cons_of_not_conformant hx]
        refine ⟨s', validateAll_cons_eq_some_iff.2 ⟨r, s', hr, .inl ⟨?_, rfl, rfl⟩⟩⟩
        rw [hx]
        rfl

/-- A report that stops is the whole report on the pairs that it has come to, and leaves the same
state. -/
theorem validateAll_take {pairs : List FixedAssociation} {s u : Session} {short : Report}
    (h : validateAll w true pairs s = some (short, u)) :
    validateAll w false (pairs.take short.length) s = some (short, u) := by
  induction pairs generalizing s short with
  | nil =>
    cases h
    rfl
  | cons pair rest ih =>
    obtain ⟨r, s', hr, ⟨-, rfl, rfl⟩ | ⟨-, others, hothers, rfl⟩⟩ :=
      validateAll_cons_eq_some_iff.1 h
    · exact validateAll_cons_eq_some_iff.2 ⟨r, u, hr, .inr ⟨rfl, [], rfl, rfl⟩⟩
    · exact validateAll_cons_eq_some_iff.2 ⟨r, s', hr, .inr ⟨rfl, others, ih hothers, rfl⟩⟩

/-- All questions of a report are answered where no labelled triple expression is used by its own
value expressions. -/
theorem exists_validateAll (h : ∀ l, ¬Relation.TransGen w.schema.ValuesUse l l)
    (pairs : List FixedAssociation) (s : Session) :
    ∃ full t, validateAll w false pairs s = some (full, t) := by
  induction pairs generalizing s with
  | nil => exact ⟨[], s, rfl⟩
  | cons pair rest ih =>
    obtain ⟨r, u, hr⟩ : ∃ r u, s.respond w pair.request = some (r, u) :=
      Setting.exists_ask_of_not_comesBack fun _ _ _ => Setting.not_comesBack h _
    obtain ⟨others, t, hothers⟩ := ih u
    exact ⟨_, t, validateAll_cons_eq_some_iff.2 ⟨r, u, hr, .inr ⟨rfl, others, hothers, rfl⟩⟩⟩

end Session

/-! ## Runs of the command -/

namespace CommandLine

variable {files : Files} {o : Options} {schema : Schema} {g : Graph}
  {pairs : List FixedAssociation}

/-- The end of a run that asked for a report. -/
def reportedEnding (debug : Bool) : Option (Report × Session) → Ending
  | some (report, _) => reportEnding debug report
  | none => stopped

/-- A run whose files can be read ends with the report on its pairs. -/
theorem run_eq_reportedEnding (hschema : readSchema files o.schema = .ok schema)
    (hdata : readData files o = .ok g) (hpairs : selectedPairs files g o.selection = .ok pairs)
    (stopEarly : Bool) : run files (.validate { o with stopEarly := stopEarly }) =
      reportedEnding o.debug
        (Session.validateAll (.ofGraph schema g o.limits) stopEarly pairs .initial) := by
  have hdata : readData files { o with stopEarly := stopEarly } = .ok g := hdata
  have hlimits : Options.limits { o with stopEarly := stopEarly } = o.limits := rfl
  simp only [run, validate, hschema, hdata, hpairs, hlimits, bind, Except.bind]
  cases Session.validateAll (.ofGraph schema g o.limits) stopEarly pairs .initial <;> rfl

/-- A run with a report tells by its code whether all nodes conform, and stopping early does not
change that. -/
theorem code_of_validateAll (hschema : readSchema files o.schema = .ok schema)
    (hdata : readData files o = .ok g) (hpairs : selectedPairs files g o.selection = .ok pairs)
    {full : Report} {t : Session}
    (h : Session.validateAll (.ofGraph schema g o.limits) false pairs .initial = some (full, t))
    (stopEarly : Bool) : (run files (.validate { o with stopEarly := stopEarly })).code =
      if full.conforms then 0 else 1 := by
  rw [run_eq_reportedEnding hschema hdata hpairs]
  cases stopEarly with
  | false =>
    rw [h]
    rfl
  | true =>
    obtain ⟨u, hu⟩ := Session.exists_validateAll_untilFailure h
    rw [hu, ← full.conforms_untilFailure]
    rfl

/-- A run that comes to no report fails in the same way whether or not it would stop early. -/
theorem run_eq_of_error {files : Files} {o : Options}
    (h : ∀ schema g pairs, readSchema files o.schema = .ok schema → readData files o = .ok g →
      selectedPairs files g o.selection ≠ .ok pairs) (stopEarly : Bool) :
    ∃ context, run files (.validate { o with stopEarly := stopEarly }) =
      ⟨1, [], ["Error: " ++ context]⟩ := by
  have hdata : readData files { o with stopEarly := stopEarly } = readData files o := rfl
  simp only [run, validate, hdata, bind, Except.bind]
  cases hschema : readSchema files o.schema with
  | error context => exact ⟨context, rfl⟩
  | ok schema =>
    dsimp only
    cases hdata : readData files o with
    | error context => exact ⟨context, rfl⟩
    | ok g =>
      dsimp only
      cases hpairs : selectedPairs files g o.selection with
      | error context => exact ⟨context, rfl⟩
      | ok pairs => exact absurd hpairs (h schema g pairs hschema hdata)

/-- Whether a run stops early does not matter for its code, if the run that does not stop comes to
its end by itself. -/
theorem code_eq_of_ne_stopped
    (h : run files (.validate { o with stopEarly := false }) ≠ stopped) (stopEarly : Bool) :
    (run files (.validate { o with stopEarly := stopEarly })).code =
        (run files (.validate { o with stopEarly := false })).code ∧
      (run files (.validate { o with stopEarly := stopEarly })).code ≤ 1 := by
  by_cases hread : ∃ schema g pairs, readSchema files o.schema = .ok schema ∧
      readData files o = .ok g ∧ selectedPairs files g o.selection = .ok pairs
  · obtain ⟨schema, g, pairs, hschema, hdata, hpairs⟩ := hread
    cases hreport : Session.validateAll (.ofGraph schema g o.limits) false pairs .initial with
    | none =>
      rw [run_eq_reportedEnding hschema hdata hpairs, hreport] at h
      exact absurd rfl h
    | some result =>
      have hcode := code_of_validateAll hschema hdata hpairs hreport
      refine ⟨(hcode stopEarly).trans (hcode false).symm, ?_⟩
      rw [hcode stopEarly]
      split <;> decide
  · have hnone : ∀ schema g pairs, readSchema files o.schema = .ok schema →
        readData files o = .ok g → selectedPairs files g o.selection ≠ .ok pairs :=
      fun schema g pairs hs hg hp => hread ⟨schema, g, pairs, hs, hg, hp⟩
    obtain ⟨context, hearly⟩ := run_eq_of_error hnone stopEarly
    obtain ⟨context', hwhole⟩ := run_eq_of_error hnone false
    rw [hearly, hwhole]
    exact ⟨rfl, le_rfl⟩

end CommandLine

namespace Session

/-- Stopping at the first result that is not conformant gives the beginning of the whole report.

The whole report asks about each pair in the state that the ones before it left, whatever their
outcomes are, and has one result for each pair in their order.  With it, the report that stops is
given too: it ends with the first result that is not conformant or is the whole one, and both say
the same about whether all nodes conform.  A report that stops, also where the whole one is not
given because a later evaluation does not end, is the whole report on the pairs it has come to, and
leaves the same state.  An evaluation can fail to end only if a labelled triple expression is used
by its own value expressions.

A run of the command ends with the same code in both ways: with `0` if all nodes conform and with
`1` if not. -/
theorem validateAll_stopsEarly (w : Setting) (s : Session) (pairs : List FixedAssociation) :
    validateAll w false pairs s = (pairs.mapM (resultFor w)).run s ∧
    (∀ full t, validateAll w false pairs s = some (full, t) →
      full.map (·.pair) = pairs ∧
      (∃ u, validateAll w true pairs s = some (full.untilFailure, u)) ∧
      full.untilFailure.conforms = full.conforms) ∧
    (∀ short u, validateAll w true pairs s = some (short, u) →
      validateAll w false (pairs.take short.length) s = some (short, u)) ∧
    ((∀ l, ¬Relation.TransGen w.schema.ValuesUse l l) →
      ∃ full t, validateAll w false pairs s = some (full, t)) ∧
    (∀ (files : CommandLine.Files) (o : CommandLine.Options) (schema : Schema) (g : Graph),
      CommandLine.readSchema files o.schema = .ok schema → CommandLine.readData files o = .ok g →
      CommandLine.selectedPairs files g o.selection = .ok pairs →
      ∀ full t, validateAll (.ofGraph schema g o.limits) false pairs .initial = some (full, t) →
      ∀ stopEarly, (CommandLine.run files (.validate { o with stopEarly := stopEarly })).code =
        if full.conforms then 0 else 1) ∧
    ∀ (files : CommandLine.Files) (o : CommandLine.Options),
      CommandLine.run files (.validate { o with stopEarly := false }) ≠ CommandLine.stopped →
      ∀ stopEarly, (CommandLine.run files (.validate { o with stopEarly := stopEarly })).code =
          (CommandLine.run files (.validate { o with stopEarly := false })).code ∧
        (CommandLine.run files (.validate { o with stopEarly := stopEarly })).code ≤ 1 := by
  refine ⟨validateAll_false_eq pairs s, fun full t h => ?_, fun short u => validateAll_take,
    fun h => exists_validateAll h pairs s, ?_, fun files o => CommandLine.code_eq_of_ne_stopped⟩
  · exact ⟨map_pair_of_validateAll h, exists_validateAll_untilFailure h,
      full.conforms_untilFailure⟩
  · intro files o schema g hschema hdata hpairs full t h
    exact CommandLine.code_of_validateAll hschema hdata hpairs h

end Session

namespace CommandLine

/-- The files of a run on three pairs: the first conforms, the second fails, the third is the first
one again. -/
def threePairFiles : Files where
  directory := "/"
  contents :=
    [("schema",
      ("\x7b\"shapes\":[" ++
        "\x7b\"type\":\"NodeConstraint\",\"id\":\"a:A\",\"nodeKind\":\"iri\"\x7d," ++
        "\x7b\"type\":\"ShapeExternal\",\"id\":\"a:B\"\x7d]\x7d").toUTF8.toList),
     ("data.nt", "<a:x> <a:p> <a:y> .".toUTF8.toList),
     ("map",
      ("[\x7b\"node\":\"a:x\",\"shape\":\"a:A\"\x7d," ++
        "\x7b\"node\":\"a:x\",\"shape\":\"a:B\"\x7d," ++
        "\x7b\"node\":\"a:x\",\"shape\":\"a:A\"\x7d]").toUTF8.toList)]

/-- The options of that run. -/
def threePairOptions : Options :=
  ⟨"schema", "data.nt", none, none, .shapeMap "map", false, false, none, none⟩

/-- Its graph. -/
def threePairGraph : Graph := .ofList [⟨.iri ⟨"a:x"⟩, ⟨"a:p"⟩, .iri ⟨"a:y"⟩⟩]

/-- Its pairs. -/
def threePairs : List FixedAssociation :=
  [⟨.iri ⟨"a:x"⟩, .label (.iri ⟨"a:A"⟩)⟩, ⟨.iri ⟨"a:x"⟩, .label (.iri ⟨"a:B"⟩)⟩,
    ⟨.iri ⟨"a:x"⟩, .label (.iri ⟨"a:A"⟩)⟩]

/-- The data of the files is the graph. -/
theorem readData_threePairs : readData threePairFiles threePairOptions = .ok threePairGraph := by
  have htriples : (readData threePairFiles threePairOptions).toOption.map Graph.triples =
      some threePairGraph.triples := by decide +kernel
  obtain ⟨⟨triples, hnodup⟩, hg, htriples⟩ := Option.map_eq_some_iff.1 htriples
  rw [eq_ok_of_toOption_eq_some hg]
  cases htriples
  rfl

/-- The schema has no labelled triple expression, and its report on the three pairs stops behind the
second one. -/
theorem exists_readSchema_threePairs : ∃ schema,
    readSchema threePairFiles threePairOptions.schema = .ok schema ∧
    schema.tripleExpressions = [] ∧
    ∀ full t, Session.validateAll (.ofGraph schema threePairGraph threePairOptions.limits) false
      threePairs .initial = some (full, t) →
        full.untilFailure.length = 2 ∧ full.conforms = false := by
  have hall : ((readSchema threePairFiles threePairOptions.schema).toOption.bind fun schema =>
      (Session.validateAll (.ofGraph schema threePairGraph threePairOptions.limits) false threePairs
        .initial).map fun result =>
          (schema.tripleExpressions.isEmpty, result.1.untilFailure.length, result.1.conforms)) =
      some (true, 2, false) := by decide +kernel
  obtain ⟨schema, hschema, hall⟩ := Option.bind_eq_some_iff.1 hall
  obtain ⟨⟨full, t⟩, hreport, hall⟩ := Option.map_eq_some_iff.1 hall
  simp only [Prod.mk.injEq, List.isEmpty_iff] at hall
  obtain ⟨htriples, huntil, hconforms⟩ := hall
  refine ⟨schema, eq_ok_of_toOption_eq_some hschema, htriples, fun full' t' hreport' => ?_⟩
  cases hreport.symm.trans hreport'
  exact ⟨huntil, hconforms⟩

end CommandLine

namespace Session

open CommandLine

/-- Of three pairs the second one fails: stopping early leaves two results, and the run ends with
the same code. -/
theorem validateAll_stopsEarly_threePairs : ∃ schema full t u,
    readSchema threePairFiles threePairOptions.schema = .ok schema ∧
    readData threePairFiles threePairOptions = .ok threePairGraph ∧
    selectedPairs threePairFiles threePairGraph threePairOptions.selection = .ok threePairs ∧
    (∀ l, ¬Relation.TransGen schema.ValuesUse l l) ∧
    validateAll (.ofGraph schema threePairGraph threePairOptions.limits) false threePairs .initial =
      some (full, t) ∧
    full.map (·.pair) = threePairs ∧ full.untilFailure.length = 2 ∧
    validateAll (.ofGraph schema threePairGraph threePairOptions.limits) true threePairs .initial =
      some (full.untilFailure, u) ∧
    validateAll (.ofGraph schema threePairGraph threePairOptions.limits) false (threePairs.take 2)
      .initial = some (full.untilFailure, u) ∧
    run threePairFiles (.validate { threePairOptions with stopEarly := false }) ≠ stopped ∧
    ∀ stopEarly,
      (run threePairFiles (.validate { threePairOptions with stopEarly := stopEarly })).code = 1 ∧
        (run threePairFiles (.validate { threePairOptions with stopEarly := stopEarly })).code ≤
          1 := by
  obtain ⟨schema, hschema, htriples, hlengths⟩ := exists_readSchema_threePairs
  have hpairs : selectedPairs threePairFiles threePairGraph threePairOptions.selection =
      .ok threePairs := by decide +kernel
  have hloops : ∀ l, ¬Relation.TransGen schema.ValuesUse l l := by
    intro l hl
    obtain ⟨l', ⟨e, ⟨te, hte, -⟩, -⟩, -⟩ := Relation.TransGen.head'_iff.1 hl
    rw [Schema.tripleExpression?, htriples] at hte
    cases hte
  have hends : run threePairFiles (.validate { threePairOptions with stopEarly := false }) ≠
      stopped := by decide +kernel
  obtain ⟨-, hwhole, hshort, hreturns, hcode, hsame⟩ := validateAll_stopsEarly
    (.ofGraph schema threePairGraph threePairOptions.limits) .initial threePairs
  obtain ⟨full, t, hfull⟩ := hreturns hloops
  obtain ⟨huntil, hconforms⟩ := hlengths full t hfull
  obtain ⟨hresults, ⟨u, hu⟩, -⟩ := hwhole full t hfull
  have htake := hshort _ u hu
  rw [huntil] at htake
  refine ⟨schema, full, t, u, hschema, readData_threePairs, hpairs, hloops, hfull, hresults, huntil,
    hu, htake, hends, fun stopEarly => ⟨?_, (hsame _ _ hends stopEarly).2⟩⟩
  rw [hcode _ _ schema threePairGraph hschema readData_threePairs hpairs full t hfull stopEarly,
    hconforms]
  rfl

end Session

end ShEx
