import HuntWarden.Lib.Js
import HuntWarden.Lib.OrderedMap
import HuntWarden.Protocol.Types
import Mathlib.Data.List.Sort

/-! The effective assessments of an epoch. Assessments are never changed; an explicit relation of
    sufficient authority takes an older one out of the effective set, and those that are left are
    summed up for each category, scope and subject. -/

namespace HuntWarden.Projection

open OrderedMap

/-- The texts of the runtime: their order, and the instants they denote (`none` is `NaN`). -/
structure Runtime where
  collation : Collation
  dateParse : String → Option ℤ

inductive Conclusion where
  | verdict (v : AssessmentVerdict)
  | conflict
  deriving DecidableEq, Repr

structure EffectiveAssessmentProjection where
  projectionKey : String
  category : CheckCategory
  scope : AssessmentScope
  subjectRef : Option String
  conclusion : Conclusion
  effectiveAssessmentIds : List String
  supersededAssessmentIds : List String
  conflictAssessmentIds : List String
  ignoredRelationIds : List String
  deriving DecidableEq, Repr

/-- `RISK_RANK`; `none` stands for `undefined`. -/
def riskRank : AssessmentVerdict → Option ℕ
  | .suspicious => some 1
  | .highlySuspicious => some 2
  | .confirmedMalicious => some 3
  | _ => none

/-- `AUTHOR_AUTHORITY`. -/
def authorAuthority : AuthorType → ℕ
  | .rule => 1
  | .model => 2
  | .system => 3
  | .human => 4

def keyOf (a : Assessment) : String :=
  let subject := a.subjectRef.getD "OBSERVED_CATEGORY"
  s!"{a.category.name}::{a.scope.name}::{subject}"

def sameProjection (left right : Assessment) : Bool :=
  keyOf left = keyOf right && left.taskId = right.taskId && left.epochId = right.epochId

/-- `[...texts].sort()`. -/
def sortTexts (texts : List String) : List String :=
  texts.insertionSort fun a b => Js.codeUnits a ≤ Js.codeUnits b

def isClearance (v : AssessmentVerdict) : Bool := v = .benign || v = .noObservedFinding

/-- The higher of two risk verdicts, the earlier one when they rank the same. -/
def worse (best v : AssessmentVerdict) : AssessmentVerdict :=
  if (riskRank best).getD 0 < (riskRank v).getD 0 then v else best

def resolveConclusion (active : List Assessment) : Conclusion × List String :=
  let risks := active.filter fun a => (riskRank a.verdict).isSome
  let clearances := active.filter fun a => isClearance a.verdict
  match risks with
  | first :: _ =>
    if clearances ≠ [] then (.conflict, sortTexts ((risks ++ clearances).map (·.assessmentId)))
    else (.verdict (risks.foldl (fun best a => worse best a.verdict) first.verdict), [])
  | [] =>
    if active.any fun a => a.verdict = .benign then (.verdict .benign, [])
    else if active.any fun a => a.verdict = .noObservedFinding then (.verdict .noObservedFinding, [])
    else (.verdict .inconclusive, [])

/-- What the relations have done so far. -/
structure Adjudication where
  superseded : List String
  ignoredByKey : List (String × List String)
  replacements : List (String × List String)

def Adjudication.none : Adjudication := ⟨[], [], []⟩

variable (r : Runtime)

/-- `left.createdAt.localeCompare(right.createdAt) || left.id.localeCompare(right.id)`. -/
def earlier (createdAt id : String) (createdAt' id' : String) : Bool :=
  ((r.collation.localeCompare createdAt createdAt').then (r.collation.localeCompare id id')).isLE

def byId (assessments : List Assessment) (id : String) : Option Assessment :=
  assessments.reverse.find? fun a => a.assessmentId = id

/-- Whether a relation takes its target out of the effective set. -/
def admissible (adjudication : Adjudication) (relation : AssessmentRelation)
    (source target : Assessment) : Bool :=
  match r.dateParse relation.createdAt, r.dateParse source.createdAt,
      r.dateParse target.createdAt with
  | some relationTime, some fromTime, some toTime =>
    source.assessmentId ≠ target.assessmentId && sameProjection source target &&
    relation.taskId = source.taskId && relation.epochId = source.epochId &&
    toTime ≤ fromTime && fromTime ≤ relationTime &&
    authorAuthority target.authorType ≤ authorAuthority source.authorType &&
    !reaches adjudication.replacements target.assessmentId source.assessmentId
  | _, _, _ => false

/-- `ignoreRelation`. -/
def ignore (relationId : String) (items : List Assessment) (adjudication : Adjudication) :
    Adjudication where
  superseded := adjudication.superseded
  replacements := adjudication.replacements
  ignoredByKey :=
    items.foldl (fun map item => addTo (keyOf item) relationId map) adjudication.ignoredByKey

def adjudicate (assessments : List Assessment) (adjudication : Adjudication)
    (relation : AssessmentRelation) : Adjudication :=
  if relation.kind ≠ .adjudicates ∧ relation.kind ≠ .supersedes then adjudication
  else
    let source := byId assessments relation.fromAssessmentId
    let target := byId assessments relation.toAssessmentId
    match source, target with
    | some source, some target =>
      if admissible r adjudication relation source target then
        { adjudication with
          replacements := addTo source.assessmentId target.assessmentId adjudication.replacements
          superseded := Js.addAll adjudication.superseded [target.assessmentId] }
      else ignore relation.relationId [source, target] adjudication
    | _, _ => ignore relation.relationId (source.toList ++ target.toList) adjudication

/-- The summary of one category, scope and subject. -/
def project (adjudication : Adjudication) (projectionKey : String) (first : Assessment)
    (items : List Assessment) : EffectiveAssessmentProjection :=
  let ordered := items.insertionSort fun a b =>
    earlier r a.createdAt a.assessmentId b.createdAt b.assessmentId
  let active := ordered.filter fun a => a.assessmentId ∉ adjudication.superseded
  let effective := if active ≠ [] then active else ordered.getLast?.toList
  let head := ordered.headD first
  { projectionKey
    category := head.category
    scope := head.scope
    subjectRef := head.subjectRef.filter (· ≠ "")
    conclusion := (resolveConclusion effective).1
    effectiveAssessmentIds := effective.map (·.assessmentId)
    supersededAssessmentIds := (ordered.filter fun a => a.assessmentId ∈ adjudication.superseded).map
      (·.assessmentId)
    conflictAssessmentIds := (resolveConclusion effective).2
    ignoredRelationIds := sortTexts (successors adjudication.ignoredByKey projectionKey) }

def projectEffectiveAssessments (assessments : List Assessment)
    (relations : List AssessmentRelation) : List EffectiveAssessmentProjection :=
  let sorted := relations.insertionSort fun a b =>
    earlier r a.createdAt a.relationId b.createdAt b.relationId
  let adjudication := sorted.foldl (adjudicate r assessments) .none
  let projected := (groupBy keyOf assessments).filterMap fun (projectionKey, items) =>
    items.head?.map fun first => project r adjudication projectionKey first items
  projected.insertionSort fun a b =>
    (r.collation.localeCompare a.projectionKey b.projectionKey).isLE

/-- Every summary rests on some assessment. -/
theorem effectiveAssessmentIds_ne_nil {assessments : List Assessment}
    {relations : List AssessmentRelation} {p : EffectiveAssessmentProjection}
    (h : p ∈ projectEffectiveAssessments r assessments relations) : p.effectiveAssessmentIds ≠ [] := by
  rw [projectEffectiveAssessments, (List.perm_insertionSort _ _).mem_iff, List.mem_filterMap] at h
  obtain ⟨⟨projectionKey, items⟩, hgroup, hp⟩ := h
  obtain ⟨first, hfirst, rfl⟩ := Option.map_eq_some_iff.1 hp
  have hitems : items ≠ [] := (grouped_groupBy keyOf assessments _ hgroup).1
  simp only [project, ne_eq, List.map_eq_nil_iff]
  split
  · assumption
  · have hordered : items.insertionSort (fun a b =>
        earlier r a.createdAt a.assessmentId b.createdAt b.assessmentId) ≠ [] := by
      rw [ne_eq, ← List.length_eq_zero_iff, List.length_insertionSort, List.length_eq_zero_iff]
      exact hitems
    rw [List.getLast?_eq_some_getLast hordered]
    simp

end HuntWarden.Projection
