import HuntWarden.Assessments.Projection
import HuntWarden.Storage.Investigation

/-! When an investigation may be called closed. `evaluate` reads obligations, actions, checkpoints,
    assessments, evidence, relations and coverage, and gives one status. Each closing status is
    characterized by what has to hold for it, and a state that is LIMITED stays short of closed
    whatever gaps, limits, failures and unsatisfied obligations are added to it. -/

namespace HuntWarden.CompletionValidator

open InvestigationStore Projection

inductive InvestigationStatus where
  | open_ | limited | closedWithFindings | closedNoObservedFinding | cancelled
  deriving DecidableEq, Repr

inductive CheckpointStatus where
  | running | complete | limited | failed
  deriving DecidableEq, Repr

structure DiscoveryCheckpoint where
  checkpointId : String
  status : CheckpointStatus
  deriving DecidableEq, Repr

structure Evidence where
  evidenceId : String
  metadata : Option Json
  deriving DecidableEq, Repr

inductive RelationDerivation where
  | observed | derived | inferred
  deriving DecidableEq, Repr

structure RelationProvenance where
  edgeRef : String
  derivation : RelationDerivation
  deriving DecidableEq, Repr

/-- The tables of one task and epoch that the validator reads; evidence belongs to the task. -/
structure CompletionStore where
  investigation : InvestigationStore
  checkpoints : List DiscoveryCheckpoint
  assessments : List Assessment
  relations : List AssessmentRelation
  evidence : List Evidence
  edges : List EdgeRecord
  provenance : List RelationProvenance
  coverage : List CoverageRun

structure CompletionEvaluation where
  canClose : Bool
  status : InvestigationStatus
  reasons : List String
  openRequiredObligationIds : List String
  limitedObligationIds : List String
  runningActionIds : List String
  findingAssessmentIds : List String
  deriving DecidableEq, Repr

/-- `evidenceObligation`: one of the words between underscores, or at an end. -/
def isEvidenceObligation (obligationKind : String) : Bool :=
  (obligationKind.toList.splitOn '_').any fun word =>
    String.ofList word ∈ ["EVIDENCE", "CAPTURE", "PRESERVE", "PRESERVATION"]

def riskVerdicts : List AssessmentVerdict := [.confirmedMalicious, .highlySuspicious, .suspicious]

def isRisk : Conclusion → Bool
  | .verdict v => v ∈ riskVerdicts
  | .conflict => false

/-- `["FAILED", "BLOCKED", "CANCELLED"].includes(status)`. -/
def isFailed : ActionStatus → Bool
  | .failed | .blocked | .cancelled => true
  | _ => false

def trustedEdges (s : CompletionStore) : List String :=
  (s.provenance.filter fun p => p.derivation = .observed ∨ p.derivation = .derived).map (·.edgeRef)

/-- What an evidence record says it was taken from. -/
def evidenceSubjects (metadata : Json) : List String :=
  [metadata.get? "subjectRef", metadata.get? "artifactSubjectRef"].filterMap fun value =>
    value.bind Json.asString?

def touches (e : EdgeRecord) (ref : String) : Bool := e.fromRef = ref || e.toRef = ref

/-- A trusted edge between the evidence and the obligation. -/
def linked (s : CompletionStore) (subjects : List String) (o : InvestigationObligation) : Bool :=
  s.edges.any fun e => e.edgeId ∈ trustedEdges s && subjects.any (touches e) &&
    o.subjectRefs.any (touches e)

def evidenceMetadata (s : CompletionStore) (ref : String) : Option Json :=
  (s.evidence.reverse.find? fun e => e.evidenceId = ref).bind (·.metadata)

/-- The record behind `ref` is complete, of this epoch, and about the obligation's subject. -/
def backs (s : CompletionStore) (epochId : String) (o : InvestigationObligation) (ref : String) :
    Bool :=
  match evidenceMetadata s ref with
  | none => false
  | some metadata =>
    metadata.get? "complete" = some (.bool true) && metadata.get? "epochId" = some (.str epochId) &&
    ((evidenceSubjects metadata).any (· ∈ o.subjectRefs) || linked s (evidenceSubjects metadata) o)

def effective (r : Runtime) (s : CompletionStore) : List EffectiveAssessmentProjection :=
  projectEffectiveAssessments r s.assessments s.relations

/-- The required obligations that cannot be met any more, and those met on paper only. -/
def limitedObligationIds (s : CompletionStore) (epochId : String) : List String :=
  let obligations := s.investigation.listInvestigationObligations
  let unmet := obligations.filter fun o => o.required && (o.status = .limited || o.status = .cancelled)
  let unproven := obligations.filter fun o => o.required && o.status = .satisfied &&
    isEvidenceObligation o.obligationKind && !o.resultRefs.any (backs s epochId o)
  Js.distinct ((unmet ++ unproven).map (·.obligationId))

def runningActionIds (s : CompletionStore) : List String :=
  (s.investigation.listInvestigationActions.filter (·.status.isLive)).map (·.actionId)

def openRequiredObligationIds (s : CompletionStore) : List String :=
  (s.investigation.listInvestigationObligations.filter fun o =>
    o.required && o.status.isOpen).map (·.obligationId)

def findingAssessmentIds (r : Runtime) (s : CompletionStore) : List String :=
  ((effective r s).filter (isRisk ·.conclusion)).flatMap (·.effectiveAssessmentIds)

def unresolvedConflicts (r : Runtime) (s : CompletionStore) : List EffectiveAssessmentProjection :=
  (effective r s).filter (·.conclusion = .conflict)

def canClose (s : CompletionStore) : Bool :=
  (runningActionIds s).isEmpty && (openRequiredObligationIds s).isEmpty &&
    s.checkpoints.all (·.status ≠ .running) && !s.investigation.listInvestigationObligations.isEmpty

def failedRequiredAction (s : CompletionStore) : Bool :=
  let required := (s.investigation.listInvestigationObligations.filter (·.required)).map
    (·.obligationId)
  s.investigation.listInvestigationActions.any fun a =>
    isFailed a.status && a.obligationIds.any (· ∈ required)

/-- What keeps an investigation that could close from being called closed. -/
def isLimited (r : Runtime) (s : CompletionStore) (epochId : String) : Bool :=
  !(limitedObligationIds s epochId).isEmpty ||
    s.checkpoints.any (fun c => c.status = .limited || c.status = .failed) ||
    !(unresolvedConflicts r s).isEmpty || failedRequiredAction s

/-- A category that does not apply, or has an effective conclusion of its own. -/
def concluded (r : Runtime) (s : CompletionStore) (run : CoverageRun) : Bool :=
  run.applicability = .notApplicable || (effective r s).any fun p =>
    p.category = run.category && p.scope = .observedCategory &&
      p.conclusion = .verdict .noObservedFinding

def categoriesConcluded (r : Runtime) (s : CompletionStore) : Bool :=
  s.coverage ≠ [] && s.coverage.all (·.status = .complete) && s.coverage.all (concluded r s)

def status (r : Runtime) (s : CompletionStore) (epochId : String) : InvestigationStatus :=
  if canClose s && isLimited r s epochId then .limited
  else if canClose s && !(findingAssessmentIds r s).isEmpty then .closedWithFindings
  else if canClose s then
    if categoriesConcluded r s then .closedNoObservedFinding else .limited
  else .open_

/-- The reason, unless the check holds. -/
def orReason (check : Bool) (reason : String) : List String := if check then [] else [reason]

def evaluate (r : Runtime) (s : CompletionStore) (epochId : String) : CompletionEvaluation where
  canClose := canClose s
  status := status r s epochId
  reasons :=
    orReason (runningActionIds s).isEmpty "仍有未终止 Action" ++
    orReason (openRequiredObligationIds s).isEmpty "仍有未完成 required obligation" ++
    orReason (s.checkpoints.all (·.status ≠ .running)) "发现范围尚未处理完" ++
    orReason (!s.investigation.listInvestigationObligations.isEmpty) "尚未建立调查义务" ++
    orReason (unresolvedConflicts r s).isEmpty "存在未裁定的 Assessment 冲突" ++
    orReason (!canClose s || isLimited r s epochId || !(findingAssessmentIds r s).isEmpty ||
      categoriesConcluded r s) "Coverage 或无发现结论不足以支持全范围闭合"
  openRequiredObligationIds := openRequiredObligationIds s
  limitedObligationIds := limitedObligationIds s epochId
  runningActionIds := runningActionIds s
  findingAssessmentIds := findingAssessmentIds r s

/-! ### What the checks mean -/

/-- A complete evidence record of the epoch, on a subject of the obligation or on one that a trusted
    edge connects with it. -/
structure BackedBy (s : CompletionStore) (epochId : String) (o : InvestigationObligation)
    (metadata : Json) : Prop where
  complete : metadata.get? "complete" = some (.bool true)
  epoch : metadata.get? "epochId" = some (.str epochId)
  subject : ∃ subject ∈ evidenceSubjects metadata, subject ∈ o.subjectRefs ∨
    ∃ e ∈ s.edges, e.edgeId ∈ trustedEdges s ∧ touches e subject = true ∧
      ∃ ref ∈ o.subjectRefs, touches e ref = true

def Proven (s : CompletionStore) (epochId : String) (o : InvestigationObligation) : Prop :=
  ∃ ref ∈ o.resultRefs, ∃ metadata, evidenceMetadata s ref = some metadata ∧
    BackedBy s epochId o metadata

theorem backs_iff {s : CompletionStore} {epochId : String} {o : InvestigationObligation}
    {ref : String} : backs s epochId o ref = true ↔
      ∃ metadata, evidenceMetadata s ref = some metadata ∧ BackedBy s epochId o metadata := by
  unfold backs
  cases evidenceMetadata s ref with
  | none => simp
  | some metadata =>
    simp only [Bool.and_eq_true, Bool.or_eq_true, decide_eq_true_eq, List.any_eq_true, linked,
      Option.some.injEq, exists_eq_left']
    constructor
    · rintro ⟨⟨hcomplete, hepoch⟩, ⟨x, hx, hmem⟩ | ⟨e, he, ⟨htrusted, x, hx, hfrom⟩, y, hy, hto⟩⟩
      · exact ⟨hcomplete, hepoch, x, hx, Or.inl hmem⟩
      · exact ⟨hcomplete, hepoch, x, hx, Or.inr ⟨e, he, htrusted, hfrom, y, hy, hto⟩⟩
    · rintro ⟨hcomplete, hepoch, x, hx, hmem | ⟨e, he, htrusted, hfrom, y, hy, hto⟩⟩
      · exact ⟨⟨hcomplete, hepoch⟩, Or.inl ⟨x, hx, hmem⟩⟩
      · exact ⟨⟨hcomplete, hepoch⟩, Or.inr ⟨e, he, ⟨htrusted, x, hx, hfrom⟩, y, hy, hto⟩⟩

/-- Nothing is under way: the investigation could be frozen. -/
structure Closable (s : CompletionStore) : Prop where
  planned : s.investigation.obligations.rows ≠ []
  terminal : ∀ a ∈ s.investigation.actions.rows, a.status.isLive = false
  answered : ∀ o ∈ s.investigation.obligations.rows, o.required = true → o.status.isOpen = false
  discovered : ∀ c ∈ s.checkpoints, c.status ≠ .running

theorem runningActionIds_isEmpty {s : CompletionStore} : (runningActionIds s).isEmpty = true ↔
    ∀ a ∈ s.investigation.actions.rows, a.status.isLive = false := by
  simp only [runningActionIds, List.isEmpty_iff, List.map_eq_nil_iff, List.filter_eq_nil_iff,
    mem_listInvestigationActions, Bool.not_eq_true]

theorem openRequiredObligationIds_isEmpty {s : CompletionStore} :
    (openRequiredObligationIds s).isEmpty = true ↔
      ∀ o ∈ s.investigation.obligations.rows, o.required = true → o.status.isOpen = false := by
  simp only [openRequiredObligationIds, List.isEmpty_iff, List.map_eq_nil_iff,
    List.filter_eq_nil_iff, mem_listInvestigationObligations, Bool.and_eq_true, not_and,
    Bool.not_eq_true]

theorem listInvestigationObligations_isEmpty {s : InvestigationStore} :
    s.listInvestigationObligations.isEmpty = true ↔ s.obligations.rows = [] := by
  rw [List.isEmpty_iff, ← List.length_eq_zero_iff, ← List.length_eq_zero_iff,
    listInvestigationObligations, List.length_insertionSort]

theorem canClose_iff {s : CompletionStore} : canClose s = true ↔ Closable s := by
  have hdiscovered : s.checkpoints.all (·.status ≠ .running) = true ↔
      ∀ c ∈ s.checkpoints, c.status ≠ .running := by
    simp only [List.all_eq_true, decide_eq_true_eq]
  have hplanned : (!s.investigation.listInvestigationObligations.isEmpty) = true ↔
      s.investigation.obligations.rows ≠ [] := by
    rw [Bool.not_eq_true', ← Bool.not_eq_true, listInvestigationObligations_isEmpty]
  rw [canClose, Bool.and_eq_true, Bool.and_eq_true, Bool.and_eq_true, hdiscovered, hplanned,
    runningActionIds_isEmpty, openRequiredObligationIds_isEmpty]
  constructor
  · rintro ⟨⟨⟨hrunning, hopen⟩, hcheckpoints⟩, hrows⟩
    exact ⟨hrows, hrunning, hopen, hcheckpoints⟩
  · rintro ⟨hrows, hrunning, hopen, hcheckpoints⟩
    exact ⟨⟨⟨hrunning, hopen⟩, hcheckpoints⟩, hrows⟩

/-- Nothing qualifies what was found: no limit, no unproven obligation, no failure, no dispute. -/
structure Unlimited (r : Runtime) (s : CompletionStore) (epochId : String) : Prop where
  met : ∀ o ∈ s.investigation.obligations.rows, o.required = true →
    o.status ≠ .limited ∧ o.status ≠ .cancelled
  proven : ∀ o ∈ s.investigation.obligations.rows, o.required = true → o.status = .satisfied →
    isEvidenceObligation o.obligationKind = true → Proven s epochId o
  discovered : ∀ c ∈ s.checkpoints, c.status ≠ .limited ∧ c.status ≠ .failed
  undisputed : ∀ p ∈ effective r s, p.conclusion ≠ .conflict
  served : ∀ a ∈ s.investigation.actions.rows, isFailed a.status = true →
    ∀ o ∈ s.investigation.obligations.rows, o.required = true → o.obligationId ∉ a.obligationIds

theorem limitedObligationIds_isEmpty {s : CompletionStore} {epochId : String} :
    (limitedObligationIds s epochId).isEmpty = true ↔
      (∀ o ∈ s.investigation.obligations.rows, o.required = true →
        o.status ≠ .limited ∧ o.status ≠ .cancelled) ∧
      (∀ o ∈ s.investigation.obligations.rows, o.required = true → o.status = .satisfied →
        isEvidenceObligation o.obligationKind = true → Proven s epochId o) := by
  have hdistinct : ∀ ids : List String, (Js.distinct ids).isEmpty = true ↔ ∀ id, id ∉ ids := by
    intro ids
    rw [List.isEmpty_iff, List.eq_nil_iff_forall_not_mem]
    exact forall_congr' fun id => not_congr Js.mem_distinct
  rw [limitedObligationIds, hdistinct]
  constructor
  · intro h
    refine ⟨fun o ho hrequired => ?_, fun o ho hrequired hsat hkind => ?_⟩
    · have hnot := h o.obligationId
      rw [List.map_append, List.mem_append, not_or] at hnot
      by_contra hbad
      refine hnot.1 (List.mem_map_of_mem (List.mem_filter.2
        ⟨mem_listInvestigationObligations.2 ho, ?_⟩))
      simp only [hrequired, Bool.true_and, Bool.or_eq_true, decide_eq_true_eq]
      by_contra hneither
      exact hbad (not_or.1 hneither)
    · have hnot := h o.obligationId
      rw [List.map_append, List.mem_append, not_or] at hnot
      by_contra hbad
      refine hnot.2 (List.mem_map_of_mem (List.mem_filter.2
        ⟨mem_listInvestigationObligations.2 ho, ?_⟩))
      simp only [hrequired, hsat, hkind, decide_true, Bool.and_true, Bool.true_and,
        Bool.not_eq_true', List.any_eq_false]
      intro ref href hbacks
      exact hbad ⟨ref, href, backs_iff.1 hbacks⟩
  · rintro ⟨hmet, hproven⟩ id hid
    obtain ⟨o, ho, rfl⟩ := List.mem_map.1 hid
    rcases List.mem_append.1 ho with ho | ho <;> rw [List.mem_filter] at ho <;>
      simp only [Bool.and_eq_true, Bool.or_eq_true, decide_eq_true_eq, Bool.not_eq_true',
        List.any_eq_false, mem_listInvestigationObligations] at ho
    · obtain ⟨hrow, hrequired, hstatus | hstatus⟩ := ho
      · exact (hmet o hrow hrequired).1 hstatus
      · exact (hmet o hrow hrequired).2 hstatus
    · obtain ⟨hrow, ⟨⟨hrequired, hsat⟩, hkind⟩, hnone⟩ := ho
      obtain ⟨ref, href, hbacked⟩ := hproven o hrow hrequired hsat hkind
      exact hnone ref href (backs_iff.2 hbacked)

theorem failedRequiredAction_eq_false {s : CompletionStore} : failedRequiredAction s = false ↔
    ∀ a ∈ s.investigation.actions.rows, isFailed a.status = true →
      ∀ o ∈ s.investigation.obligations.rows, o.required = true →
        o.obligationId ∉ a.obligationIds := by
  simp only [failedRequiredAction, List.any_eq_false, mem_listInvestigationActions,
    Bool.and_eq_true, not_and, List.any_eq_true, decide_eq_true_eq, List.mem_map, List.mem_filter,
    mem_listInvestigationObligations, not_exists]
  constructor
  · intro h a ha hfailed o ho hrequired hmem
    exact h a ha hfailed o.obligationId hmem o ⟨ho, hrequired⟩ rfl
  · rintro h a ha hfailed id hid o ⟨ho, hrequired⟩ rfl
    exact h a ha hfailed o ho hrequired hid

theorem isLimited_eq_false {r : Runtime} {s : CompletionStore} {epochId : String} :
    isLimited r s epochId = false ↔ Unlimited r s epochId := by
  have hdiscovered : s.checkpoints.any (fun c => c.status = .limited || c.status = .failed) = false ↔
      ∀ c ∈ s.checkpoints, c.status ≠ .limited ∧ c.status ≠ .failed := by
    simp only [List.any_eq_false, Bool.or_eq_true, decide_eq_true_eq, not_or]
  have hundisputed : (unresolvedConflicts r s).isEmpty = true ↔
      ∀ p ∈ effective r s, p.conclusion ≠ .conflict := by
    simp only [unresolvedConflicts, List.isEmpty_iff, List.filter_eq_nil_iff, decide_eq_true_eq,
      ne_eq]
  rw [isLimited, Bool.or_eq_false_iff, Bool.or_eq_false_iff, Bool.or_eq_false_iff,
    Bool.not_eq_false', Bool.not_eq_false', limitedObligationIds_isEmpty, hdiscovered, hundisputed,
    failedRequiredAction_eq_false]
  constructor
  · rintro ⟨⟨⟨⟨hmet, hproven⟩, hcheckpoints⟩, hconflicts⟩, hserved⟩
    exact ⟨hmet, hproven, hcheckpoints, hconflicts, hserved⟩
  · rintro ⟨hmet, hproven, hcheckpoints, hconflicts, hserved⟩
    exact ⟨⟨⟨⟨hmet, hproven⟩, hcheckpoints⟩, hconflicts⟩, hserved⟩

/-- What both ways of closing require. -/
structure Settled (r : Runtime) (s : CompletionStore) (epochId : String) : Prop where
  planned : s.investigation.obligations.rows ≠ []
  terminal : ∀ a ∈ s.investigation.actions.rows, a.status.isLive = false
  satisfied : ∀ o ∈ s.investigation.obligations.rows, o.required = true → o.status = .satisfied
  proven : ∀ o ∈ s.investigation.obligations.rows, o.required = true →
    isEvidenceObligation o.obligationKind = true → Proven s epochId o
  served : ∀ a ∈ s.investigation.actions.rows, isFailed a.status = true →
    ∀ o ∈ s.investigation.obligations.rows, o.required = true → o.obligationId ∉ a.obligationIds
  discovered : ∀ c ∈ s.checkpoints, c.status = .complete
  undisputed : ∀ p ∈ effective r s, p.conclusion ≠ .conflict

theorem settled_iff {r : Runtime} {s : CompletionStore} {epochId : String} :
    Settled r s epochId ↔ Closable s ∧ Unlimited r s epochId := by
  constructor
  · rintro ⟨hplanned, hterminal, hsatisfied, hproven, hserved, hdiscovered, hundisputed⟩
    refine ⟨⟨hplanned, hterminal, fun o ho hr => ?_, fun c hc => ?_⟩,
      ⟨fun o ho hr => ?_, fun o ho hr _ => hproven o ho hr, fun c hc => ?_, hundisputed, hserved⟩⟩
    · rw [hsatisfied o ho hr]; rfl
    · rw [hdiscovered c hc]; simp
    · rw [hsatisfied o ho hr]; simp
    · rw [hdiscovered c hc]; simp
  · rintro ⟨⟨hplanned, hterminal, hanswered, hrunning⟩,
      ⟨hmet, hproven, hdiscovered, hundisputed, hserved⟩⟩
    have hsatisfied : ∀ o ∈ s.investigation.obligations.rows, o.required = true →
        o.status = .satisfied := by
      intro o ho hr
      have hopen := hanswered o ho hr
      obtain ⟨hlimited, hcancelled⟩ := hmet o ho hr
      cases hstatus : o.status with
      | satisfied => rfl
      | limited => exact absurd hstatus hlimited
      | cancelled => exact absurd hstatus hcancelled
      | _ => rw [hstatus] at hopen; cases hopen
    refine ⟨hplanned, hterminal, hsatisfied, fun o ho hr => hproven o ho hr (hsatisfied o ho hr),
      hserved, fun c hc => ?_, hundisputed⟩
    obtain ⟨hlimited, hfailed⟩ := hdiscovered c hc
    cases hstatus : c.status with
    | complete => rfl
    | running => exact absurd hstatus (hrunning c hc)
    | limited => exact absurd hstatus hlimited
    | failed => exact absurd hstatus hfailed

/-- Every category was covered in full, and each that applies is concluded without a finding. -/
def CoverageConcluded (r : Runtime) (s : CompletionStore) : Prop :=
  s.coverage ≠ [] ∧ (∀ run ∈ s.coverage, run.status = .complete) ∧
  ∀ run ∈ s.coverage, run.applicability = .notApplicable ∨
    ∃ p ∈ effective r s, p.category = run.category ∧ p.scope = .observedCategory ∧
      p.conclusion = .verdict .noObservedFinding

theorem categoriesConcluded_iff {r : Runtime} {s : CompletionStore} :
    categoriesConcluded r s = true ↔ CoverageConcluded r s := by
  simp only [categoriesConcluded, concluded, CoverageConcluded, Bool.and_eq_true, decide_eq_true_eq,
    List.all_eq_true, Bool.or_eq_true, List.any_eq_true, and_assoc]

theorem findingAssessmentIds_isEmpty {r : Runtime} {s : CompletionStore} :
    (findingAssessmentIds r s).isEmpty = true ↔
      ∀ p ∈ effective r s, isRisk p.conclusion = false := by
  rw [findingAssessmentIds, List.isEmpty_iff, List.flatMap_eq_nil_iff]
  constructor
  · intro h p hp
    by_contra hrisk
    rw [Bool.not_eq_false] at hrisk
    exact effectiveAssessmentIds_ne_nil r hp (h p (List.mem_filter.2 ⟨hp, hrisk⟩))
  · intro h p hp
    obtain ⟨hp, hrisk⟩ := List.mem_filter.1 hp
    rw [h p hp] at hrisk
    cases hrisk

/-! ### The statuses -/

theorem status_closedWithFindings {r : Runtime} {s : CompletionStore} {epochId : String} :
    (evaluate r s epochId).status = .closedWithFindings ↔
      Settled r s epochId ∧ ∃ p ∈ effective r s, isRisk p.conclusion = true := by
  have hfinding : (∃ p ∈ effective r s, isRisk p.conclusion = true) ↔
      (findingAssessmentIds r s).isEmpty = false := by
    rw [← Bool.not_eq_true, findingAssessmentIds_isEmpty]
    simp
  rw [settled_iff, ← canClose_iff, ← isLimited_eq_false, hfinding]
  simp only [evaluate, status]
  cases canClose s <;> cases isLimited r s epochId <;> cases (findingAssessmentIds r s).isEmpty <;>
    cases categoriesConcluded r s <;> simp

theorem status_closedNoObservedFinding {r : Runtime} {s : CompletionStore} {epochId : String} :
    (evaluate r s epochId).status = .closedNoObservedFinding ↔
      Settled r s epochId ∧ (∀ p ∈ effective r s, isRisk p.conclusion = false) ∧
        CoverageConcluded r s := by
  rw [settled_iff, ← canClose_iff, ← isLimited_eq_false, ← findingAssessmentIds_isEmpty,
    ← categoriesConcluded_iff]
  simp only [evaluate, status]
  cases canClose s <;> cases isLimited r s epochId <;> cases (findingAssessmentIds r s).isEmpty <;>
    cases categoriesConcluded r s <;> simp

theorem status_limited {r : Runtime} {s : CompletionStore} {epochId : String} :
    (evaluate r s epochId).status = .limited ↔ Closable s ∧ (¬ Unlimited r s epochId ∨
      (∀ p ∈ effective r s, isRisk p.conclusion = false) ∧ ¬ CoverageConcluded r s) := by
  rw [← canClose_iff, ← isLimited_eq_false, ← findingAssessmentIds_isEmpty,
    ← categoriesConcluded_iff]
  simp only [evaluate, status]
  cases canClose s <;> cases isLimited r s epochId <;> cases (findingAssessmentIds r s).isEmpty <;>
    cases categoriesConcluded r s <;> simp

/-! ### More gaps never help -/

/-- The obligation as it was, or less than satisfied; its gaps may have grown. -/
structure Lowered (o o' : InvestigationObligation) : Prop where
  obligationId : o'.obligationId = o.obligationId
  obligationKind : o'.obligationKind = o.obligationKind
  required : o'.required = o.required
  subjectRefs : o'.subjectRefs = o.subjectRefs
  resultRefs : o'.resultRefs = o.resultRefs
  status : o'.status = o.status ∨ o'.status ≠ .satisfied

/-- A later state with more to hold against closing: obligations, actions and checkpoints were added
    or fell short, coverage only gained runs that are not complete, and nothing was found out. -/
structure Weakened (s s' : CompletionStore) : Prop where
  obligations : ∀ o ∈ s.investigation.obligations.rows,
    ∃ o' ∈ s'.investigation.obligations.rows, Lowered o o'
  actions : ∀ a ∈ s.investigation.actions.rows, a ∈ s'.investigation.actions.rows
  checkpoints : ∀ c ∈ s.checkpoints, ∃ c' ∈ s'.checkpoints,
    c'.status = c.status ∨ c'.status ≠ .complete
  coverage : ∀ run ∈ s.coverage, run ∈ s'.coverage ∨
    ∃ run' ∈ s'.coverage, run'.status ≠ .complete
  newCoverage : ∀ run ∈ s'.coverage, run ∈ s.coverage ∨ run.status ≠ .complete
  assessments : s'.assessments = s.assessments
  relations : s'.relations = s.relations
  evidence : s'.evidence = s.evidence
  edges : s'.edges = s.edges
  provenance : s'.provenance = s.provenance

theorem Weakened.effective_eq {r : Runtime} {s s' : CompletionStore} (h : Weakened s s') :
    effective r s' = effective r s := by
  rw [effective, effective, h.assessments, h.relations]

/-- What proves an obligation depends on its subjects and results only. -/
theorem Weakened.proven {s s' : CompletionStore} (h : Weakened s s') {epochId : String}
    {o o' : InvestigationObligation} (hlow : Lowered o o') (hp : Proven s' epochId o') :
    Proven s epochId o := by
  obtain ⟨ref, href, metadata, hmetadata, hcomplete, hepoch, subject, hsubject, hrest⟩ := hp
  rw [evidenceMetadata, h.evidence] at hmetadata
  rw [hlow.resultRefs] at href
  refine ⟨ref, href, metadata, hmetadata, hcomplete, hepoch, subject, hsubject, ?_⟩
  rwa [hlow.subjectRefs, h.edges, trustedEdges, h.provenance, ← trustedEdges] at hrest

theorem Weakened.unlimited {r : Runtime} {s s' : CompletionStore} {epochId : String}
    (h : Weakened s s') (hs : Settled r s' epochId) : Unlimited r s epochId where
  met o ho hrequired := by
    obtain ⟨o', ho', hlow⟩ := h.obligations o ho
    have hsatisfied := hs.satisfied o' ho' (hlow.required.trans hrequired)
    have hstatus : o.status = .satisfied := by
      rcases hlow.status with hsame | hne
      · rw [← hsame, hsatisfied]
      · exact absurd hsatisfied hne
    rw [hstatus]
    simp
  proven o ho hrequired _ hkind := by
    obtain ⟨o', ho', hlow⟩ := h.obligations o ho
    refine h.proven hlow (hs.proven o' ho' (hlow.required.trans hrequired) ?_)
    rw [hlow.obligationKind, hkind]
  discovered c hc := by
    obtain ⟨c', hc', hstatus⟩ := h.checkpoints c hc
    have hcomplete := hs.discovered c' hc'
    rcases hstatus with hsame | hne
    · rw [← hsame, hcomplete]; simp
    · exact absurd hcomplete hne
  undisputed := by
    rw [← h.effective_eq]
    exact hs.undisputed
  served a ha hfailed o ho hrequired := by
    obtain ⟨o', ho', hlow⟩ := h.obligations o ho
    rw [← hlow.obligationId]
    exact hs.served a (h.actions a ha) hfailed o' ho' (hlow.required.trans hrequired)

theorem Weakened.coverageConcluded {r : Runtime} {s s' : CompletionStore} (h : Weakened s s')
    (hs : CoverageConcluded r s') : CoverageConcluded r s := by
  obtain ⟨hnonempty, hcomplete, hconcluded⟩ := hs
  have hkept : ∀ run ∈ s.coverage, run ∈ s'.coverage := by
    intro run hrun
    rcases h.coverage run hrun with hmem | ⟨run', hrun', hne⟩
    · exact hmem
    · exact absurd (hcomplete run' hrun') hne
  refine ⟨?_, fun run hrun => hcomplete run (hkept run hrun), fun run hrun => ?_⟩
  · obtain ⟨run, hrun⟩ := List.exists_mem_of_ne_nil _ hnonempty
    rcases h.newCoverage run hrun with hmem | hne
    · exact List.ne_nil_of_mem hmem
    · exact absurd (hcomplete run hrun) hne
  · have hrun' := hconcluded run (hkept run hrun)
    rwa [h.effective_eq] at hrun'

/-- A state that is LIMITED is not closed by adding to what is wrong with it. -/
theorem Weakened.not_closed {r : Runtime} {s s' : CompletionStore} {epochId : String}
    (h : Weakened s s') (hlimited : (evaluate r s epochId).status = .limited) :
    (evaluate r s' epochId).status ≠ .closedWithFindings ∧
    (evaluate r s' epochId).status ≠ .closedNoObservedFinding := by
  obtain ⟨-, hbad⟩ := status_limited.1 hlimited
  constructor
  · intro hclosed
    obtain ⟨hsettled, p, hp, hrisk⟩ := status_closedWithFindings.1 hclosed
    rcases hbad with hbad | ⟨hnone, -⟩
    · exact hbad (h.unlimited hsettled)
    · rw [h.effective_eq] at hp
      rw [hnone p hp] at hrisk
      cases hrisk
  · intro hclosed
    obtain ⟨hsettled, -, hconcluded⟩ := status_closedNoObservedFinding.1 hclosed
    rcases hbad with hbad | ⟨-, hbad⟩
    · exact hbad (h.unlimited hsettled)
    · exact hbad (h.coverageConcluded hconcluded)

/-- The verdict on an investigation is sound, and adding gaps, limits, failures and unsatisfied
    obligations to a LIMITED one does not close it. -/
theorem completion_sound (r : Runtime) (s : CompletionStore) (epochId : String) :
    ((evaluate r s epochId).status = .closedNoObservedFinding →
      Settled r s epochId ∧ (∀ p ∈ effective r s, isRisk p.conclusion = false) ∧
        CoverageConcluded r s) ∧
    ((evaluate r s epochId).status = .closedWithFindings →
      Settled r s epochId ∧ ∃ p ∈ effective r s, isRisk p.conclusion = true) ∧
    ∀ s', Weakened s s' → (evaluate r s epochId).status = .limited →
      (evaluate r s' epochId).status ≠ .closedWithFindings ∧
      (evaluate r s' epochId).status ≠ .closedNoObservedFinding :=
  ⟨status_closedNoObservedFinding.1, status_closedWithFindings.1, fun _ h => h.not_closed⟩

/-! ### What closing does not require -/

def sampleRuntime : Runtime := ⟨Js.codeUnitCollation, fun _ => some 0⟩

def satisfiedObligation (obligationKind : String) (resultRefs : List String) :
    InvestigationObligation :=
  ⟨"OBL-1", obligationKind, obligationKind, ["PROC-1"], true, .satisfied, resultRefs, []⟩

def sampleAssessment (verdict : AssessmentVerdict) (scope : AssessmentScope) : Assessment :=
  ⟨"ASM-1", "TASK-1", "EPOCH-1", .rule, .linuxIntrusionTriage, none, scope, verdict, ""⟩

def sampleStore (o : InvestigationObligation) (a : Assessment) : CompletionStore where
  investigation := { InvestigationStore.empty with obligations := IndexedTable.empty.insertOrIgnore o }
  checkpoints := []
  assessments := [a]
  relations := []
  evidence := []
  edges := []
  provenance := []
  coverage := []

/-- A finding, and no category covered. -/
def uncovered : CompletionStore :=
  sampleStore (satisfiedObligation "REVIEW_COUNTEREVIDENCE" []) (sampleAssessment .suspicious .subject)

/-- A capture of a file that an observed relation connects with the process it was asked for. -/
def provenByRelation : CompletionStore :=
  { sampleStore (satisfiedObligation "CAPTURE_IMAGE" ["EVD-1"])
      (sampleAssessment .noObservedFinding .observedCategory) with
    evidence := [⟨"EVD-1", some (.obj [("complete", .bool true), ("epochId", .str "EPOCH-1"),
      ("subjectRef", .str "FILE-9")])⟩]
    edges := [⟨"EDGE-1", "TASK-1", "EPOCH-1", "executable", "PROC-1", "FILE-9", "RUN-1", ""⟩]
    provenance := [⟨"EDGE-1", .observed⟩]
    coverage := [⟨"COV-1", .linuxIntrusionTriage, .complete, .applicable⟩] }

/-- Findings close an investigation without any coverage, and the evidence an obligation asks for may
    be on a related subject. -/
theorem closing_requires_less :
    (evaluate sampleRuntime uncovered "EPOCH-1").status = .closedWithFindings ∧
    uncovered.coverage = [] ∧
    (evaluate sampleRuntime provenByRelation "EPOCH-1").status = .closedNoObservedFinding ∧
    ∀ o ∈ provenByRelation.investigation.obligations.rows, ∀ ref ∈ o.resultRefs,
      ∀ metadata ∈ evidenceMetadata provenByRelation ref,
        ∀ subject ∈ evidenceSubjects metadata, subject ∉ o.subjectRefs := by
  decide

end HuntWarden.CompletionValidator
