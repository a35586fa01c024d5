import HuntWarden.Evaluation.Evaluator

/-! What a passed evaluation of a blind release says, and that the measures of retries have no part in it. -/

namespace HuntWarden.InvestigationEvaluator

open StableJson

variable {r : Runtime} {store store' : EvaluationStore} {manifest : InvestigationEvaluationManifest}
  {qualification : Option InvestigationEvaluationQualification} {run : InvestigationRunRecord}
  {definition : CaseDefinition} {definitions before : List CaseDefinition} {progress progress' : Progress}

/-! ### Steps that may fail -/

theorem bind_eq_ok {α β : Type} {e : Except EvaluationError α} {f : α → Except EvaluationError β} {b : β}
    (h : e.bind f = .ok b) : ∃ a, e = .ok a ∧ f a = .ok b := by
  cases e with
  | error _ => cases h
  | ok a => exact ⟨a, rfl, h⟩

theorem map_eq_ok {α β : Type} {e : Except EvaluationError α} {f : α → β} {b : β} (h : e.map f = .ok b) :
    ∃ a, e = .ok a ∧ f a = b := by
  cases e with
  | error _ => cases h
  | ok a => exact ⟨a, rfl, Except.ok.inj h⟩

/-! ### The cases of a manifest -/

theorem checkCase_eq_ok (h : checkCase before definition = .ok ()) :
    definition.caseId ∉ before.map (·.caseId) ∧ definition.taskId ∉ before.map (·.taskId) := by
  rw [checkCase] at h
  split at h
  · cases h
  · next hcase =>
    split at h
    · cases h
    · next htask => exact ⟨hcase, htask⟩

/-- No two cases share an id or a task. -/
theorem nodup_of_checkCases (h : checkCases before definitions = .ok ())
    (hcases : (before.map (·.caseId)).Nodup) (htasks : (before.map (·.taskId)).Nodup) :
    ((before ++ definitions).map (·.caseId)).Nodup ∧ ((before ++ definitions).map (·.taskId)).Nodup := by
  induction definitions generalizing before with
  | nil =>
    rw [List.append_nil]
    exact ⟨hcases, htasks⟩
  | cons definition definitions ih =>
    rw [checkCases] at h
    obtain ⟨_, hfirst, hrest⟩ := bind_eq_ok h
    obtain ⟨hcase, htask⟩ := checkCase_eq_ok hfirst
    rw [List.append_cons]
    refine ih hrest ?_ ?_
    · rw [List.map_append, List.nodup_append]
      refine ⟨hcases, List.nodup_singleton _, fun a ha b hb => ?_⟩
      rw [List.map_singleton, List.mem_singleton] at hb
      rw [hb]
      exact ne_of_mem_of_not_mem ha hcase
    · rw [List.map_append, List.nodup_append]
      refine ⟨htasks, List.nodup_singleton _, fun a ha b hb => ?_⟩
      rw [List.map_singleton, List.mem_singleton] at hb
      rw [hb]
      exact ne_of_mem_of_not_mem ha htask

theorem parse_eq_ok {parsed : InvestigationEvaluationManifest}
    (h : parseInvestigationEvaluationManifest r manifest = .ok parsed) :
    parsed = manifest ∧ (manifest.cases.map (·.caseId)).Nodup ∧ (manifest.cases.map (·.taskId)).Nodup ∧
      (isBlindRelease manifest = true → validateBlindRelease r manifest = .ok ()) := by
  rw [parseInvestigationEvaluationManifest] at h
  split at h
  · cases h
  · obtain ⟨_, hcases, h⟩ := bind_eq_ok h
    obtain ⟨_, _, h⟩ := bind_eq_ok h
    obtain ⟨hids, htasks⟩ := nodup_of_checkCases hcases List.nodup_nil List.nodup_nil
    rw [List.nil_append] at hids htasks
    split at h
    · obtain ⟨_, hrelease, hparsed⟩ := map_eq_ok h
      exact ⟨hparsed.symm, hids, htasks, fun _ => hrelease⟩
    · next hnot =>
      cases h
      exact ⟨rfl, hids, htasks, fun hrelease => absurd hrelease hnot⟩

/-! ### Retries have no part in the metrics -/

/-- The two stores have the same tasks and epochs, and what was recorded for a task is the same unless it is the task
    of a retry. -/
structure SameButRetries (manifest : InvestigationEvaluationManifest) (store store' : EvaluationStore) : Prop where
  tasks : store'.getTask = store.getTask
  epochs : store'.listScanEpochs = store.listScanEpochs
  others : ∀ taskId epochId, (∀ definition ∈ manifest.cases, definition.taskId = taskId → definition.runKind = .first) →
    store'.runData taskId epochId = store.runData taskId epochId

/-- What decides: the metrics of the first runs, the thresholds, and the status. -/
def verdict (r : Runtime) (store : EvaluationStore) (manifest : InvestigationEvaluationManifest)
    (qualification : Option InvestigationEvaluationQualification) :
    Except EvaluationError (InvestigationMetricSet × List ThresholdResult × EvaluationStatus) :=
  (evaluateInvestigation r store manifest qualification).map fun result =>
    (result.metrics, result.thresholdResults, result.status)

/-- What the verdict is made of. -/
def Progress.deciding (progress : Progress) : List String × MetricAccumulator :=
  (progress.qualificationFailures, progress.firstRun)

theorem openCase_congr (htasks : store'.getTask = store.getTask)
    (hepochs : store'.listScanEpochs = store.listScanEpochs) :
    openCase store' definition = openCase store definition := by
  rw [openCase, openCase, htasks, hepochs]

theorem taskId_of_openCase {opened : EvaluatedTask × String × List EvaluatedEpoch}
    (h : openCase store definition = .ok opened) :
    store.getTask definition.taskId = some opened.1 ∧ opened.1.taskId = definition.taskId ∧
      opened.2.2 = store.listScanEpochs opened.1.taskId := by
  rw [openCase] at h
  split at h
  · cases h
  · next task htask =>
    split at h
    · cases h
    · split at h
      · cases h
      · split at h
        · cases h
          exact ⟨htask, store.taskId_eq _ _ htask, rfl⟩
        · cases h

/-- A step of the loop decides the same from the same, if a first run finds the same data. -/
theorem deciding_record {run : Option InvestigationRunRecord} {taskId epochId : String} {epochs : List EvaluatedEpoch}
    {data data' : RunData} (h : progress'.deciding = progress.deciding)
    (hdata : definition.runKind = .first → data' = data) :
    (progress'.record r run definition taskId epochId epochs data').deciding =
      (progress.record r run definition taskId epochId epochs data).deciding := by
  obtain ⟨hfailures, hfirst⟩ := Prod.mk.inj h
  rw [Progress.deciding, Progress.deciding, Progress.record, Progress.record]
  dsimp only
  rw [hfailures, hfirst]
  by_cases hkind : definition.runKind = .first
  · rw [hdata hkind]
  · rw [if_neg hkind, if_neg hkind]

theorem deciding_evaluateCases (r : Runtime) (run : Option InvestigationRunRecord)
    (htasks : store'.getTask = store.getTask) (hepochs : store'.listScanEpochs = store.listScanEpochs) :
    ∀ (definitions : List CaseDefinition) (progress progress' : Progress),
      (∀ definition ∈ definitions, definition.runKind = .first → ∀ epochId,
        store'.runData definition.taskId epochId = store.runData definition.taskId epochId) →
      progress'.deciding = progress.deciding →
      (evaluateCases r store' run definitions progress').map Progress.deciding =
        (evaluateCases r store run definitions progress).map Progress.deciding
  | [], progress, progress', _, h => congrArg Except.ok h
  | definition :: definitions, progress, progress', hdata, h => by
    rw [evaluateCases, evaluateCases, openCase_congr htasks hepochs]
    cases hopened : openCase store definition with
    | error e => rfl
    | ok opened =>
      refine deciding_evaluateCases r run htasks hepochs definitions _ _
        (fun d hd => hdata d (List.mem_cons_of_mem _ hd)) (deciding_record h fun hfirst => ?_)
      rw [(taskId_of_openCase hopened).2.1]
      exact hdata definition List.mem_cons_self hfirst _

theorem verdict_resultOf (r : Runtime) (manifest : InvestigationEvaluationManifest)
    (run : Option InvestigationRunRecord) (h : progress'.deciding = progress.deciding) :
    (resultOf r manifest run progress').metrics = (resultOf r manifest run progress).metrics ∧
      (resultOf r manifest run progress').thresholdResults = (resultOf r manifest run progress).thresholdResults ∧
      (resultOf r manifest run progress').status = (resultOf r manifest run progress).status := by
  obtain ⟨hfailures, hfirst⟩ := Prod.mk.inj h
  simp only [resultOf, hfailures, hfirst, and_self]

/-- Stores that differ only in what was recorded for retries give one verdict. -/
theorem verdict_sameButRetries (h : SameButRetries manifest store store') :
    verdict r store' manifest qualification = verdict r store manifest qualification := by
  rw [verdict, verdict, evaluateInvestigation, evaluateInvestigation]
  cases hparse : parseInvestigationEvaluationManifest r manifest with
  | error e => rfl
  | ok parsed =>
    obtain ⟨rfl, _, htasks, _⟩ := parse_eq_ok hparse
    have hdata : ∀ definition ∈ parsed.cases, definition.runKind = .first → ∀ epochId,
        store'.runData definition.taskId epochId = store.runData definition.taskId epochId := by
      intro definition hdefinition hfirst epochId
      refine h.others _ _ fun other hother hsame => ?_
      rw [List.inj_on_of_nodup_map htasks hother hdefinition hsame]
      exact hfirst
    dsimp only [Except.bind]
    cases runOf r parsed qualification with
    | error e => rfl
    | ok run =>
      have hdeciding := deciding_evaluateCases r run h.tasks h.epochs parsed.cases .empty .empty hdata rfl
      dsimp only
      cases hleft : evaluateCases r store' run parsed.cases .empty with
      | error e =>
        cases hright : evaluateCases r store run parsed.cases .empty with
        | error e' =>
          rw [hleft, hright] at hdeciding
          cases hdeciding
          rfl
        | ok progress =>
          rw [hleft, hright] at hdeciding
          cases hdeciding
      | ok progress' =>
        cases hright : evaluateCases r store run parsed.cases .empty with
        | error e =>
          rw [hleft, hright] at hdeciding
          cases hdeciding
        | ok progress =>
          rw [hleft, hright] at hdeciding
          obtain ⟨hmetrics, hresults, hstatus⟩ := verdict_resultOf r parsed run
            (Except.ok.inj hdeciding)
          exact congrArg Except.ok (Prod.ext hmetrics (Prod.ext hresults hstatus))

/-! ### What a passed release says -/

/-- The ledger's case is the manifest's, with the same task, epoch, kind of run and retry link. -/
structure SameCase (definition : CaseDefinition) (actual : RunCase) : Prop where
  caseId : actual.caseId = definition.caseId
  taskId : actual.taskId = some definition.taskId
  epochId : actual.epochId = definition.epochId
  epochKnown : actual.epochId ≠ none
  runKind : actual.runKind = definition.runKind
  retryOfCaseId : actual.retryOfCaseId = definition.retryOfCaseId

/-- The cases of the manifest are those of the ledger, one for one. -/
structure SameCases (manifest : InvestigationEvaluationManifest) (run : InvestigationRunRecord) : Prop where
  manifestIds : (manifest.cases.map (·.caseId)).Nodup
  ledgerIds : (run.cases.map (·.caseId)).Nodup
  inLedger : ∀ definition ∈ manifest.cases, ∃ actual ∈ run.cases, SameCase definition actual
  inManifest : ∀ actual ∈ run.cases, ∃ definition ∈ manifest.cases, SameCase definition actual

/-- The truth of the manifest is the archived one, with the archive's digest, and was frozen by the start of the run. -/
structure TruthBound (r : Runtime) (manifest : InvestigationEvaluationManifest)
    (qualification : InvestigationEvaluationQualification) (run : InvestigationRunRecord) : Prop where
  frozen : ∃ truthSet, manifest.truthSet = some truthSet ∧ truthSet.archiveSha256 = qualification.archiveSha256 ∧
    ∃ frozenAt startedAt, r.dateParse truthSet.frozenAt = some frozenAt ∧ r.dateParse run.startedAt = some startedAt ∧
      frozenAt ≤ startedAt
  archived : Same manifest.truthJson
    (qualification.archivedTruth.setIn "truthSet" "archiveSha256" (.str qualification.archiveSha256))

/-- The epoch lies in the run, with the ledger's commit, a clean tree and the ledger's helper. -/
structure EpochBound (r : Runtime) (run : InvestigationRunRecord) (epoch : EvaluatedEpoch) : Prop where
  commit : epoch.controllerCommit = some run.commit
  clean : epoch.controllerTreeClean = some true
  commitAtFinish : epoch.controllerCommitAtFinish = some run.commit
  cleanAtFinish : epoch.controllerTreeCleanAtFinish = some true
  helper : epoch.helperSha256 = some run.helperSha256
  ended : epoch.running = false
  inside : ∃ runStarted started finished runFinished, r.dateParse run.startedAt = some runStarted ∧
    r.dateParse epoch.startedAt = some started ∧ r.dateParse (epoch.finishedAt.getD "") = some finished ∧
      r.dateParse run.finishedAt = some runFinished ∧ runStarted ≤ started ∧ started ≤ finished ∧ finished ≤ runFinished

def AtLeast (expected : ℚ) (metric : RateMetric) : Prop := ∃ rate, metric.rate = some rate ∧ expected ≤ rate

def AtMost (expected : ℚ) (metric : RateMetric) : Prop := ∃ rate, metric.rate = some rate ∧ rate ≤ expected

structure ThresholdsHold (thresholds : Thresholds) (metrics : InvestigationMetricSet) : Prop where
  collectionRecall :
    AtLeast (thresholds.minCollectionRecall.getD thresholds.minDiscoveryRecall) metrics.collectionRecall
  discoveryRecall : AtLeast thresholds.minDiscoveryRecall metrics.discoveryRecall
  evidencePreservation : AtLeast thresholds.minEvidencePreservation metrics.evidencePreservation
  obligationClosure : AtLeast thresholds.minObligationClosure metrics.obligationClosure
  benignFalsePositive : AtMost thresholds.maxBenignFalsePositive metrics.benignFalsePositive
  relationshipRecall : ∀ expected ∈ thresholds.minRelationshipRecall, AtLeast expected metrics.relationshipRecall
  limitedRecognition : ∀ expected ∈ thresholds.minLimitedRecognition, AtLeast expected metrics.limitedRecognition
  autonomousCompletion : ∀ expected ∈ thresholds.minAutonomousCompletion,
    AtLeast expected metrics.autonomousCompletion

/-- All that a passed blind release says. -/
structure Released (r : Runtime) (store : EvaluationStore) (manifest : InvestigationEvaluationManifest)
    (qualification : InvestigationEvaluationQualification) (run : InvestigationRunRecord)
    (metrics : InvestigationMetricSet) : Prop where
  mode : run.evaluationMode = .blindRelease
  clean : run.clean = true
  commit : run.commit = manifest.environment.commit
  cases : SameCases manifest run
  truth : TruthBound r manifest qualification run
  epochs : ∀ definition ∈ manifest.cases, ∃ task, store.getTask definition.taskId = some task ∧
    ∀ epoch ∈ store.listScanEpochs task.taskId, EpochBound r run epoch
  thresholds : ThresholdsHold manifest.thresholds metrics

/-! ### The ledger -/

theorem agrees_of_checkLedger (h : checkLedger run definitions = .ok ()) :
    ∀ definition ∈ definitions, agrees run definition = true := by
  induction definitions with
  | nil => exact fun _ hmem => absurd hmem List.not_mem_nil
  | cons definition definitions ih =>
    rw [checkLedger] at h
    split at h
    · next hagrees => exact List.forall_mem_cons.2 ⟨hagrees, ih h⟩
    · cases h

theorem sameCase_of_agrees (h : agrees run definition = true) : ∃ actual ∈ run.cases, SameCase definition actual := by
  rw [agrees] at h
  split at h
  · cases h
  · next actual hactual =>
    simp only [Bool.and_eq_true, decide_eq_true_eq] at h
    obtain ⟨⟨⟨⟨⟨_, hepochText⟩, htask⟩, hepoch⟩, hkind⟩, hretry⟩ := h
    rw [runCase?] at hactual
    have hfound := List.find?_some hactual
    have hid : actual.caseId = definition.caseId := of_decide_eq_true hfound
    refine ⟨actual, List.mem_reverse.1 (List.mem_of_find?_eq_some hactual),
      ⟨hid, htask, hepoch, fun hnone => ?_, hkind, hretry⟩⟩
    rw [hnone] at hepochText
    exact hepochText rfl

/-- As many distinct texts as texts: none occurs twice. -/
theorem nodup_of_length_distinct {texts : List String} (h : (Js.distinct texts).length = texts.length) :
    texts.Nodup := by
  have hsub : (Js.distinct texts).Subperm texts :=
    (Js.nodup_distinct texts).subperm fun text htext => Js.mem_distinct.1 htext
  exact (hsub.perm_of_length_le (Nat.le_of_eq h.symm)).nodup_iff.1 (Js.nodup_distinct texts)

theorem sameCases (hids : (manifest.cases.map (·.caseId)).Nodup) (hledger : (run.cases.map (·.caseId)).Nodup)
    (hlength : run.cases.length = manifest.cases.length)
    (hcases : ∀ definition ∈ manifest.cases, ∃ actual ∈ run.cases, SameCase definition actual) :
    SameCases manifest run := by
  refine ⟨hids, hledger, hcases, fun actual hactual => ?_⟩
  have hsub : (manifest.cases.map (·.caseId)).Subperm (run.cases.map (·.caseId)) := by
    refine hids.subperm fun id hid => ?_
    obtain ⟨definition, hdefinition, rfl⟩ := List.mem_map.1 hid
    obtain ⟨other, hother, hsame⟩ := hcases definition hdefinition
    exact List.mem_map.2 ⟨other, hother, hsame.caseId⟩
  have hperm := hsub.perm_of_length_le (by rw [List.length_map, List.length_map, hlength])
  obtain ⟨definition, hdefinition, hid⟩ := List.mem_map.1 (hperm.mem_iff.2 (List.mem_map_of_mem hactual))
  obtain ⟨other, hother, hsame⟩ := hcases definition hdefinition
  refine ⟨definition, hdefinition, ?_⟩
  rwa [← List.inj_on_of_nodup_map hledger hother hactual (hsame.caseId.trans hid)]

/-! ### The truth -/

theorem truthSet_of_truthJson {text : String}
    (h : manifest.truthJson.at? ["truthSet", "archiveSha256"] = some (.str text)) :
    ∃ truthSet, manifest.truthSet = some truthSet ∧ truthSet.archiveSha256 = text := by
  rw [InvestigationEvaluationManifest.truthJson, InvestigationEvaluationManifest.jsonWith] at h
  cases htruth : manifest.truthSet with
  | none =>
    rw [htruth] at h
    cases hmode : manifest.evaluationMode <;> rw [hmode] at h <;> cases h
  | some truthSet =>
    rw [htruth] at h
    refine ⟨truthSet, rfl, ?_⟩
    cases hmode : manifest.evaluationMode <;> rw [hmode] at h <;>
      exact Json.str.inj (Option.some.inj h)

theorem verify_eq_ok {truth archivedTruth : Json} {archiveSha256 : String}
    (h : verifyInvestigationTruthArchive r truth archivedTruth archiveSha256 = .ok ()) :
    truth.at? ["truthSet", "archiveSha256"] = some (.str archiveSha256) ∧
      Same truth (archivedTruth.setIn "truthSet" "archiveSha256" (.str archiveSha256)) := by
  rw [verifyInvestigationTruthArchive] at h
  split at h
  · cases h
  · split at h
    · cases h
    · next hdigest =>
      split at h
      · cases h
      · split at h
        · cases h
        · split at h
          · cases h
          · next hsame =>
            rw [not_or, not_not, not_not] at hdigest
            rw [not_not] at hsame
            exact ⟨hdigest.2, same_of_stableJson (r.hash.injective hsame)⟩

theorem frozenBefore_iff {frozenAt startedAt finishedAt : Option ℤ}
    (h : frozenBefore frozenAt startedAt finishedAt = true) :
    ∃ started finished, startedAt = some started ∧ finishedAt = some finished ∧
      ∀ frozen ∈ frozenAt, frozen ≤ started := by
  cases startedAt with
  | none => cases h
  | some started =>
    cases finishedAt with
    | none => cases h
    | some finished =>
      refine ⟨started, finished, rfl, rfl, fun frozen hfrozen => ?_⟩
      rw [Option.mem_def] at hfrozen
      simp only [frozenBefore, hfrozen, Option.any_some, Bool.and_eq_true, decide_eq_true_eq,
        Bool.not_eq_true', decide_eq_false_iff_not, Int.not_lt] at h
      exact h.2

theorem frozenAt_of_validateBlindRelease (h : validateBlindRelease r manifest = .ok ()) {truthSet : TruthSet}
    (htruth : manifest.truthSet = some truthSet) : ∃ frozen, r.dateParse truthSet.frozenAt = some frozen := by
  rw [validateBlindRelease, htruth] at h
  dsimp only at h
  split at h
  · cases h
  · split at h
    · cases h
    · next hfrozen => exact Option.ne_none_iff_exists'.1 hfrozen

/-- The checks of the ledger. -/
theorem validateBlindRun_eq_ok (hids : (manifest.cases.map (·.caseId)).Nodup)
    (hrelease : validateBlindRelease r manifest = .ok ())
    (h : validateBlindRun r manifest qualification = .ok run) :
    ∃ given, qualification = some given ∧ given.run = some run ∧ run.evaluationMode = .blindRelease ∧
      run.clean = true ∧ run.commit = manifest.environment.commit ∧ SameCases manifest run ∧
        TruthBound r manifest given run ∧ ∃ started finished, r.dateParse run.startedAt = some started ∧
          r.dateParse run.finishedAt = some finished := by
  cases qualification with
  | none => cases h
  | some given =>
    rw [validateBlindRun.eq_def, Option.bind_some] at h
    cases hrun : given.run with
    | none =>
      rw [hrun] at h
      cases h
    | some ledger =>
      rw [hrun] at h
      dsimp only at h
      split at h
      · cases h
      · split at h
        · cases h
        · next hmode =>
          split at h
          · cases h
          · next hfrozen =>
            split at h
            · cases h
            · next hlength =>
              split at h
              · cases h
              · next hdistinct =>
                obtain ⟨_, hledger, h⟩ := bind_eq_ok h
                obtain ⟨_, htruth, hledgerRun⟩ := map_eq_ok h
                subst hledgerRun
                simp only [not_or, not_not, Bool.not_eq_false] at hmode hlength hdistinct hfrozen
                obtain ⟨hdigest, hsame⟩ := verify_eq_ok htruth
                obtain ⟨truthSet, htruthSet, harchive⟩ := truthSet_of_truthJson hdigest
                obtain ⟨frozen, hfrozenAt⟩ := frozenAt_of_validateBlindRelease hrelease htruthSet
                obtain ⟨started, finished, hstarted, hfinished, hbefore⟩ := frozenBefore_iff hfrozen
                have hle : frozen ≤ started := hbefore frozen (by
                  rw [htruthSet, Option.bind_some]
                  exact hfrozenAt)
                refine ⟨given, rfl, hrun, hmode.1, hmode.2.1, hmode.2.2.1, ?_, ?_,
                  started, finished, hstarted, hfinished⟩
                · refine sameCases hids (nodup_of_length_distinct (by rw [hdistinct, List.length_map]))
                    (hlength.2.trans hlength.1) fun definition hdefinition => ?_
                  exact sameCase_of_agrees (agrees_of_checkLedger hledger definition hdefinition)
                · exact ⟨⟨truthSet, htruthSet, harchive, frozen, started, hfrozenAt, hstarted, hle⟩, hsame⟩

/-! ### The epochs -/

theorem ite_eq_nil_iff {p : Prop} [Decidable p] {failure : String} : (if p then [failure] else []) = [] ↔ ¬ p := by
  split <;> simp_all

/-- An epoch without failures lies in the run, with its identity. -/
theorem epochBound_of_failures {caseId : String} {epoch : EvaluatedEpoch} {runStarted runFinished : ℤ}
    (hstarted : r.dateParse run.startedAt = some runStarted) (hfinished : r.dateParse run.finishedAt = some runFinished)
    (h : epochFailures r run caseId epoch = []) : EpochBound r run epoch := by
  rw [epochFailures, List.append_eq_nil_iff, List.map_eq_nil_iff, investigationEpochIdentityFailures] at h
  simp only [List.append_eq_nil_iff, ite_eq_nil_iff, not_not] at h
  obtain ⟨⟨⟨⟨⟨hcommit, hclean⟩, hcommitAtFinish⟩, hcleanAtFinish⟩, hhelper⟩, hinside⟩ := h
  have hinside : withinRun r run epoch = true := by
    by_contra hnot
    rw [if_neg hnot] at hinside
    cases hinside
  rw [withinRun, Bool.and_eq_true, Bool.not_eq_true'] at hinside
  obtain ⟨hended, hinside⟩ := hinside
  split at hinside
  · next started finished hepochStarted hepochFinished =>
    rw [hstarted, hfinished] at hinside
    simp only [Option.any_some, Bool.and_eq_true, decide_eq_true_eq, Bool.not_eq_true', decide_eq_false_iff_not,
      Int.not_lt] at hinside
    exact ⟨hcommit, hclean, hcommitAtFinish, hcleanAtFinish, hhelper, hended,
      runStarted, started, finished, runFinished, hstarted, hepochStarted, hepochFinished, hfinished,
      hinside.1.2, hinside.1.1, hinside.2⟩
  · cases hinside

/-- Where the loop gathers no failure, there was none before, and every epoch of every task is without. -/
theorem failures_evaluateCases (h : evaluateCases r store (some run) definitions progress = .ok progress')
    (hnone : progress'.qualificationFailures = []) :
    progress.qualificationFailures = [] ∧ ∀ definition ∈ definitions, ∃ task,
      store.getTask definition.taskId = some task ∧
        ∀ epoch ∈ store.listScanEpochs task.taskId, epochFailures r run definition.caseId epoch = [] := by
  induction definitions generalizing progress with
  | nil =>
    cases h
    exact ⟨hnone, fun _ hmem => absurd hmem List.not_mem_nil⟩
  | cons definition definitions ih =>
    rw [evaluateCases] at h
    obtain ⟨opened, hopened, h⟩ := bind_eq_ok h
    obtain ⟨hfailures, hrest⟩ := ih h
    obtain ⟨htask, _, hepochs⟩ := taskId_of_openCase hopened
    rw [Progress.record] at hfailures
    obtain ⟨hbefore, hcase⟩ := List.append_eq_nil_iff.1 hfailures
    refine ⟨hbefore, List.forall_mem_cons.2 ⟨⟨opened.1, htask, fun epoch hepoch => ?_⟩, hrest⟩⟩
    rw [← hepochs] at hepoch
    exact List.flatMap_eq_nil_iff.1 hcase epoch hepoch

/-! ### The thresholds -/

theorem atLeast_of_pass {metricName : String} {expected : ℚ} {metric : RateMetric}
    (h : (compareMetric metricName .atLeast expected metric.rate).pass = true) : AtLeast expected metric := by
  rw [compareMetric] at h
  obtain ⟨rate, hrate, hle⟩ := (Option.any_eq_true _ _).1 h
  exact ⟨rate, hrate, of_decide_eq_true hle⟩

theorem atMost_of_pass {metricName : String} {expected : ℚ} {metric : RateMetric}
    (h : (compareMetric metricName .atMost expected metric.rate).pass = true) : AtMost expected metric := by
  rw [compareMetric] at h
  obtain ⟨rate, hrate, hle⟩ := (Option.any_eq_true _ _).1 h
  exact ⟨rate, hrate, of_decide_eq_true hle⟩

theorem thresholdsHold_of_pass {thresholds : Thresholds} {metrics : InvestigationMetricSet}
    (h : (thresholdResultsOf thresholds metrics).all (·.pass) = true) : ThresholdsHold thresholds metrics := by
  simp only [thresholdResultsOf, List.all_append, List.all_cons, List.all_nil, Bool.and_eq_true, List.all_eq_true,
    Option.mem_toList, Option.map_eq_some_iff, forall_exists_index, and_imp, forall_apply_eq_imp_iff₂] at h
  obtain ⟨⟨⟨⟨hcollection, hdiscovery, hpreservation, hclosure, hbenign, _⟩, hrelations⟩, hlimits⟩, hautonomous⟩ := h
  exact ⟨atLeast_of_pass hcollection, atLeast_of_pass hdiscovery, atLeast_of_pass hpreservation,
    atLeast_of_pass hclosure, atMost_of_pass hbenign,
    fun expected hexpected => atLeast_of_pass (hrelations expected hexpected),
    fun expected hexpected => atLeast_of_pass (hlimits expected hexpected),
    fun expected hexpected => atLeast_of_pass (hautonomous expected hexpected)⟩

/-! ### The gate -/

theorem released_of_pass {result : InvestigationEvaluationResult}
    (h : evaluateInvestigation r store manifest qualification = .ok result) (hpass : result.status = .pass)
    (hrelease : isBlindRelease manifest = true) :
    ∃ given run, qualification = some given ∧ given.run = some run ∧
      Released r store manifest given run result.metrics := by
  rw [evaluateInvestigation] at h
  obtain ⟨parsed, hparse, hrest⟩ := bind_eq_ok h
  obtain ⟨hsame, hids, _, hchecked⟩ := parse_eq_ok hparse
  subst hsame
  obtain ⟨maybeRun, hrun, hcases⟩ := bind_eq_ok hrest
  obtain ⟨progress, hprogress, rfl⟩ := map_eq_ok hcases
  rw [runOf, if_pos hrelease] at hrun
  obtain ⟨run, hvalid, rfl⟩ := map_eq_ok hrun
  obtain ⟨given, hgiven, hledger, hmode, hclean, hcommit, hcases, htruth, started, finished, hstarted, hfinished⟩ :=
    validateBlindRun_eq_ok hids (hchecked hrelease) hvalid
  rw [resultOf] at hpass
  dsimp only at hpass
  split at hpass
  · next hall =>
    refine ⟨given, run, hgiven, hledger, hmode, hclean, hcommit, hcases, htruth, fun definition hdefinition => ?_,
      thresholdsHold_of_pass hall.2⟩
    obtain ⟨task, htask, hepochs⟩ := (failures_evaluateCases hprogress hall.1).2 definition hdefinition
    exact ⟨task, htask, fun epoch hepoch => epochBound_of_failures hstarted hfinished (hepochs epoch hepoch)⟩
  · cases hpass

/-- The gate of a blind release: it passes only on what is released, and stores that differ only in what was recorded
    for retries have one verdict. -/
theorem release_gate (r : Runtime) (manifest : InvestigationEvaluationManifest)
    (qualification : Option InvestigationEvaluationQualification) :
    (∀ (store : EvaluationStore) (result : InvestigationEvaluationResult),
      evaluateInvestigation r store manifest qualification = .ok result → result.status = .pass →
        isBlindRelease manifest = true → ∃ given run, qualification = some given ∧ given.run = some run ∧
          Released r store manifest given run result.metrics) ∧
    ∀ store store' : EvaluationStore, SameButRetries manifest store store' →
      verdict r store' manifest qualification = verdict r store manifest qualification :=
  ⟨fun _ _ h hpass hrelease => released_of_pass h hpass hrelease, fun _ _ h => verdict_sameButRetries h⟩

end HuntWarden.InvestigationEvaluator
