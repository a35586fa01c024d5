import HuntWarden.Report.ReportService

/-! When the fallback passes the validator. It shows everything that the validator looks for, except for a
    category without coverage; and it refers to what its own texts refer to, known or not. -/

namespace HuntWarden.Report

open Outcome References

def patterns : List Pattern := kinds.map ReferenceKind.pattern

/-! ### What is put in -/

namespace ReportProjection

def checkpointTexts (checkpoint : Playbooks.DiscoveryCheckpoint) : List String :=
  checkpoint.checkpointId :: checkpoint.remainingDescription.toList

def hypothesisTexts (hypothesis : Playbooks.InvestigationHypothesis) : List String :=
  [hypothesis.hypothesisId, hypothesis.subjectRef, hypothesis.claim]

def obligationTexts (obligation : InvestigationObligation) : List String :=
  obligation.obligationId :: obligation.obligationKind :: obligation.gapRefs

def actionTexts (action : QueuedAction) : List String :=
  action.actionId :: action.operationRef :: action.error.toList

def assessmentTexts (item : RecordedAssessment) : List String :=
  item.assessmentId :: item.subjectRef.toList ++ item.factRefs ++ item.evidenceRefs ++ [item.rationale]

def effectiveTexts (item : Projection.EffectiveAssessmentProjection) : List String :=
  item.projectionKey :: item.effectiveAssessmentIds ++ item.supersededAssessmentIds ++ item.ignoredRelationIds

def gapTexts (gap : InvestigationGap) : List String := [gap.gapId, gap.reasonCode]

def evidenceTexts (item : TypedEvidence) : List String :=
  item.evidenceId :: item.type :: item.sha256.toList

variable (p : ReportProjection)

def investigationTexts : List String :=
  p.completion.toList.map (·.snapshotRef) ++ p.discovery.flatMap checkpointTexts ++
  p.hypotheses.flatMap hypothesisTexts ++ p.obligations.flatMap obligationTexts ++
  p.actions.flatMap actionTexts

/-- The ids and free texts of the projection that the report prints. -/
def texts (r : Runtime) : List String :=
  [p.taskId, p.epochId, p.target, p.request] ++ (p.checks.filterMap p.runOf).map (·.coverageId) ++
  p.investigationTexts ++ p.assessments.flatMap assessmentTexts ++
  p.effectiveAssessments.flatMap effectiveTexts ++ p.investigationGaps.flatMap gapTexts ++
  p.evidence.flatMap evidenceTexts ++ p.writes.map (·.actionId) ++ p.recovery.map r.stringify

/-- What a text refers to is in the projection. -/
def Known (text : String) : Prop :=
  ∀ kind ∈ kinds, ∀ id ∈ kind.pattern.references text.toList, String.ofList id ∈ p.allowed kind

/-- So it is for all that a line puts in. -/
def Clean (line : List Piece) : Prop := ∀ text ∈ vals line, p.Known text

end ReportProjection

/-! ### Texts that refer to nothing -/

variable {p : ReportProjection}

theorem ReportProjection.Known.of_quiet {text : String} (h : quiet patterns text) : p.Known text := by
  intro kind hkind id hid
  have hempty := List.all_eq_true.1 h kind.pattern (List.mem_map_of_mem hkind)
  rw [List.isEmpty_iff.1 hempty] at hid
  cases hid

theorem quiet_of_not_mem {text : String} (h : '-' ∉ text.toList) : quiet patterns text := by
  rw [quiet, List.all_eq_true]
  intro pattern hpattern
  obtain ⟨kind, -, rfl⟩ := List.mem_map.1 hpattern
  have hyphen : ['-'] ∈ kind.pattern.head := by cases kind <;> decide
  rw [Pattern.references_eq_nil hyphen h]
  rfl

namespace ReportProjection

/-- Every reference has a hyphen. -/
theorem Known.of_not_mem {text : String} (h : '-' ∉ text.toList) : p.Known text :=
  .of_quiet (quiet_of_not_mem h)

theorem Known.empty : p.Known "" := .of_not_mem (by decide)

@[simp] theorem known_repr (n : ℕ) : p.Known n.repr := by
  apply Known.of_not_mem
  intro h
  have hdigit := Nat.isDigit_of_mem_toDigits (by decide) (by decide) (Nat.toList_repr ▸ h)
  revert hdigit
  decide

@[simp] theorem known_bool (b : Bool) : p.Known (toString b) := .of_not_mem (by cases b <;> decide)

@[simp] theorem known_category (category : CheckCategory) : p.Known category.name :=
  .of_not_mem (by cases category <;> decide)

@[simp] theorem known_namespace (namespace_ : NamespaceName) : p.Known namespace_.name :=
  .of_not_mem (by cases namespace_ <;> decide)

@[simp] theorem known_mode (mode : TaskMode) : p.Known mode.name := .of_not_mem (by cases mode <;> decide)

@[simp] theorem known_coverageStatus (status : CoverageStatus) : p.Known status.name :=
  .of_not_mem (by cases status <;> decide)

@[simp] theorem known_applicability (applicability : Applicability) : p.Known applicability.name :=
  .of_not_mem (by cases applicability <;> decide)

@[simp] theorem known_modelState (state : ModelState) : p.Known ("MODEL: " ++ state.name) :=
  .of_not_mem (by cases state <;> decide)

@[simp] theorem known_investigationStatus (status : CompletionValidator.InvestigationStatus) :
    p.Known status.name :=
  .of_not_mem (by cases status <;> decide)

@[simp] theorem known_checkpointStatus (status : CompletionValidator.CheckpointStatus) : p.Known status.name :=
  .of_not_mem (by cases status <;> decide)

@[simp] theorem known_hypothesisStatus (status : Playbooks.HypothesisStatus) : p.Known status.name :=
  .of_not_mem (by cases status <;> decide)

@[simp] theorem known_obligationStatus (status : ObligationStatus) : p.Known status.name :=
  .of_not_mem (by cases status <;> decide)

@[simp] theorem known_actionStatus (status : ActionStatus) : p.Known status.name :=
  .of_not_mem (by cases status <;> decide)

@[simp] theorem known_authorType (author : AuthorType) : p.Known author.name :=
  .of_not_mem (by cases author <;> decide)

@[simp] theorem known_verdict (v : AssessmentVerdict) : p.Known v.name :=
  .of_not_mem (by cases v <;> decide)

@[simp] theorem known_severity (severity : Severity) : p.Known severity.name :=
  .of_not_mem (by cases severity <;> decide)

@[simp] theorem known_conclusion : ∀ conclusion : Projection.Conclusion, p.Known conclusion.name
  | .verdict v => known_verdict v
  | .conflict => .of_not_mem (by decide)

@[simp] theorem known_gapCode (code : InvestigationGapCode) : p.Known code.name :=
  .of_not_mem (by cases code <;> decide)

@[simp] theorem known_approvalStatus (status : ApprovalStatus) : p.Known status.name :=
  .of_not_mem (by cases status <;> decide)

@[simp] theorem known_receiptStatus (status : ActionReceiptStatus) : p.Known status.name :=
  .of_not_mem (by cases status <;> decide)

@[simp] theorem known_writeStatus : ∀ item : WriteRecord, p.Known item.status
  | .approval ticket => known_approvalStatus ticket.status
  | .receipt record => known_receiptStatus record.status

/-! ### The texts of a line -/

@[simp] theorem clean_nil : p.Clean [] := fun _ h => nomatch h

@[simp] theorem clean_lit (text : String) (rest : List Piece) : p.Clean (.lit text :: rest) ↔ p.Clean rest :=
  Iff.rfl

@[simp] theorem clean_val (text : String) (rest : List Piece) :
    p.Clean (.val text :: rest) ↔ p.Known text ∧ p.Clean rest :=
  List.forall_mem_cons

@[simp] theorem clean_append (line line' : List Piece) :
    p.Clean (line ++ line') ↔ p.Clean line ∧ p.Clean line' := by
  rw [Clean, vals_append, List.forall_mem_append]
  rfl

@[simp] theorem clean_listed (refs : List String) : p.Clean (listed refs) ↔ ∀ ref ∈ refs, p.Known ref := by
  induction refs with
  | nil => simp [listed]
  | cons ref rest ih =>
    cases rest with
    | nil => simp [listed]
    | cons next rest =>
      have hlisted : listed (ref :: next :: rest) = .val ref :: .lit ", " :: listed (next :: rest) := rfl
      rw [hlisted, clean_val, clean_lit, ih]
      exact List.forall_mem_cons.symm

/-- Where nothing is listed there is nothing to refer to. -/
theorem eq_empty_of_intercalate {refs : List String} (h : String.intercalate ", " refs = "") :
    ∀ ref ∈ refs, ref = "" := by
  cases refs with
  | nil => simp
  | cons ref rest =>
    cases rest with
    | nil =>
      rw [String.intercalate_singleton] at h
      simpa using h
    | cons next rest =>
      rw [String.intercalate_cons_cons] at h
      have hlength := congrArg String.length h
      simp only [String.length_append] at hlength
      have hcomma : ", ".length = 2 := by decide
      rw [hcomma] at hlength
      simp at hlength

@[simp] theorem clean_listedOrNone (refs : List String) :
    p.Clean (listedOrNone refs) ↔ ∀ ref ∈ refs, p.Known ref := by
  rw [listedOrNone]
  split
  · rename_i h
    simp only [clean_lit, clean_nil, true_iff]
    intro ref href
    rw [eq_empty_of_intercalate h ref href]
    exact .empty
  · exact clean_listed refs

@[simp] theorem clean_listedAfter (label : String) (refs : List String) :
    p.Clean (listedAfter label refs) ↔ ∀ ref ∈ refs, p.Known ref := by
  rw [listedAfter]
  split
  · rename_i h
    simp [List.isEmpty_iff.1 h]
  · rw [clean_lit, clean_listed]

@[simp] theorem clean_noted (text : Option String) :
    p.Clean (noted text) ↔ ∀ note ∈ text, p.Known note := by
  cases text with
  | none => simp [noted, Js.truthyText]
  | some text =>
    by_cases h : text = ""
    · subst h
      have hnone : Js.truthyText (some "") = none := rfl
      rw [noted, hnone]
      simp [Known.empty]
    · have hsome : Js.truthyText (some text) = some text := by
        rw [Js.truthyText, Option.filter_some, if_pos (by simpa using h)]
      rw [noted, hsome]
      simp

theorem known_getD {text : Option String} {default : String} (h : p.Known default) :
    p.Known (text.getD default) ↔ ∀ own ∈ text, p.Known own := by
  cases text with
  | none => simp [h]
  | some own => simp

@[simp] theorem clean_ite (c : Prop) [Decidable c] (text : String) :
    p.Clean (if c then [.lit text] else []) := by
  by_cases h : c <;> simp [h]

theorem clean_coverageLine (category : CheckCategory) :
    p.Clean (p.coverageLine category) ↔ ∀ run ∈ p.runOf category, p.Known run.coverageId := by
  rw [coverageLine]
  cases p.runOf category with
  | none => simp
  | some run => simp

theorem clean_completionLine :
    p.Clean p.completionLine ↔ ∀ completion ∈ p.completion, p.Known completion.snapshotRef := by
  rw [completionLine]
  cases p.completion with
  | none => simp
  | some completion => simp

theorem clean_checkpointLine (checkpoint : Playbooks.DiscoveryCheckpoint) :
    p.Clean (checkpointLine checkpoint) ↔ ∀ text ∈ checkpointTexts checkpoint, p.Known text := by
  simp [checkpointLine, checkpointTexts]

theorem clean_hypothesisLine (hypothesis : Playbooks.InvestigationHypothesis) :
    p.Clean (hypothesisLine hypothesis) ↔ ∀ text ∈ hypothesisTexts hypothesis, p.Known text := by
  simp [hypothesisLine, hypothesisTexts]

theorem clean_obligationLine (obligation : InvestigationObligation) :
    p.Clean (obligationLine obligation) ↔ ∀ text ∈ obligationTexts obligation, p.Known text := by
  simp [obligationLine, obligationTexts]

theorem clean_actionLine (action : QueuedAction) :
    p.Clean (actionLine action) ↔ ∀ text ∈ actionTexts action, p.Known text := by
  simp [actionLine, actionTexts]

theorem clean_assessmentLine (item : RecordedAssessment) :
    p.Clean (assessmentLine item) ↔ ∀ text ∈ assessmentTexts item, p.Known text := by
  have hsubject : p.Known (item.subjectRef.getD "OBSERVED_CATEGORY") ↔ ∀ ref ∈ item.subjectRef, p.Known ref :=
    known_getD (.of_not_mem (by decide))
  simp [assessmentLine, assessmentTexts, hsubject, or_imp, forall_and]

theorem clean_effectiveLine (item : Projection.EffectiveAssessmentProjection) :
    p.Clean (effectiveLine item) ↔ ∀ text ∈ effectiveTexts item, p.Known text := by
  simp [effectiveLine, effectiveTexts, or_imp, forall_and]

theorem clean_gapLine (gap : InvestigationGap) :
    p.Clean (gapLine gap) ↔ ∀ text ∈ gapTexts gap, p.Known text := by
  have hcategory : p.Known ((gap.category.map (·.name)).getD "task") := by
    cases gap.category with
    | none => exact .of_not_mem (by decide)
    | some category => exact known_category category
  simp [gapLine, gapTexts, hcategory]

theorem clean_evidenceLine (item : TypedEvidence) :
    p.Clean (evidenceLine item) ↔ ∀ text ∈ evidenceTexts item, p.Known text := by
  have hdigest : p.Known (item.sha256.getD "N/A") ↔ ∀ digest ∈ item.sha256, p.Known digest :=
    known_getD (.of_not_mem (by decide))
  simp [evidenceLine, evidenceTexts, hdigest]

theorem clean_writeLine (item : WriteRecord) : p.Clean (writeLine item) ↔ p.Known item.actionId := by
  simp [writeLine]

/-! ### What is put in keeps apart -/

theorem apart_listed (refs : List String) : apart patterns true (listed refs) := by
  have hcomma : quiet patterns ", " && starts ", " := by decide
  have hends : ends ", " = true := by decide
  induction refs with
  | nil => rfl
  | cons ref rest ih =>
    cases rest with
    | nil => rfl
    | cons next rest =>
      have hlisted : listed (ref :: next :: rest) = [.val ref] ++ .lit ", " :: listed (next :: rest) := rfl
      rw [hlisted]
      exact apart_append rfl (apart_lit hcomma (hends ▸ ih) _)

theorem apart_listedOrNone (refs : List String) : apart patterns true (listedOrNone refs) := by
  rw [listedOrNone]
  split
  · decide
  · exact apart_listed refs

theorem apart_listedAfter {label : String} (h : quiet patterns label && starts label) (hends : ends label = true)
    (refs : List String) (fresh : Bool) : apart patterns fresh (listedAfter label refs) := by
  rw [listedAfter]
  split
  · cases fresh <;> rfl
  · exact apart_lit h (hends ▸ apart_listed refs) fresh

theorem apart_noted (text : Option String) (fresh : Bool) : apart patterns fresh (noted text) := by
  rw [noted]
  cases Js.truthyText text with
  | none => cases fresh <;> rfl
  | some text =>
    refine apart_lit (by decide) ?_ fresh
    have hends : ends " / " = true := by decide
    rw [hends]
    rfl

theorem apart_ite {c : Prop} [Decidable c] {text : String} (h : quiet patterns text && starts text)
    (fresh : Bool) : apart patterns fresh (if c then [.lit text] else []) := by
  split
  · exact apart_lit h (by cases ends text <;> rfl) fresh
  · cases fresh <;> rfl

/-- A template whose own texts are given in full. -/
theorem apart_of_erase {fresh : Bool} {pieces : List Piece}
    (h : apart patterns fresh (pieces.map Piece.erase)) : apart patterns fresh pieces := by
  rwa [apart_erase] at h

theorem apart_checkpointLine (checkpoint : Playbooks.DiscoveryCheckpoint) :
    apart patterns true (checkpointLine checkpoint) := by
  refine apart_append (apart_of_erase ?_) (apart_noted _ _)
  simp only [List.map_cons, List.map_nil, Piece.erase]
  decide

theorem apart_coverageLine (category : CheckCategory) : apart patterns true (p.coverageLine category) := by
  rw [coverageLine]
  cases p.runOf category with
  | none =>
    apply apart_of_erase
    simp only [List.map_cons, List.map_nil, Piece.erase]
    decide
  | some run =>
    refine apart_append (apart_append (apart_of_erase ?_) (apart_ite (by decide) _))
      (apart_lit (by decide) ?_ _)
    · simp only [List.map_cons, List.map_nil, Piece.erase]
      decide
    · have hends : ends "；" = true := by decide
      rw [hends]
      rfl

theorem apart_completionLine : apart patterns true p.completionLine := by
  rw [completionLine]
  cases p.completion with
  | none => decide
  | some completion =>
    apply apart_of_erase
    simp only [List.map_cons, List.map_nil, Piece.erase]
    decide

theorem apart_hypothesisLine (hypothesis : Playbooks.InvestigationHypothesis) :
    apart patterns true (hypothesisLine hypothesis) := by
  apply apart_of_erase
  simp only [hypothesisLine, List.map_cons, List.map_nil, Piece.erase]
  decide

theorem apart_obligationLine (obligation : InvestigationObligation) :
    apart patterns true (obligationLine obligation) := by
  refine apart_append (apart_of_erase ?_) (apart_listedAfter (by decide) (by decide) _ _)
  simp only [List.map_cons, List.map_nil, Piece.erase]
  decide

theorem apart_actionLine (action : QueuedAction) : apart patterns true (actionLine action) := by
  refine apart_append (apart_of_erase ?_) (apart_noted _ _)
  simp only [List.map_cons, List.map_nil, Piece.erase]
  decide

theorem apart_assessmentLine (item : RecordedAssessment) : apart patterns true (assessmentLine item) := by
  have hevidence : quiet patterns " / Evidence " && starts " / Evidence " := by decide
  have hrationale : quiet patterns "\n  " && starts "\n  " := by decide
  have hends : ends " / Facts " = true ∧ ends " / Evidence " = true ∧ ends "\n  " = true := by decide
  refine apart_append (apart_append (apart_append (apart_append (apart_of_erase ?_) ?_)
    (apart_lit hevidence rfl _)) ?_) (apart_lit hrationale ?_ _)
  · simp only [List.map_cons, List.map_nil, Piece.erase]
    decide
  · simp only [after, hends.1]
    exact apart_listedOrNone _
  · rw [after_append]
    simp only [after, hends.2.1]
    exact apart_listedOrNone _
  · rw [hends.2.2]
    rfl

theorem apart_effectiveLine (item : Projection.EffectiveAssessmentProjection) :
    apart patterns true (effectiveLine item) := by
  have heffective : quiet patterns " / effective " && starts " / effective " := by decide
  have hsuperseded : quiet patterns " / superseded " && starts " / superseded " := by decide
  have hends : ends " / effective " = true ∧ ends " / superseded " = true := by decide
  refine apart_append (apart_append (apart_append (apart_append (apart_append (apart_append (apart_of_erase ?_)
    (apart_ite (by decide) _)) (apart_lit heffective rfl _)) ?_) (apart_lit hsuperseded rfl _)) ?_)
    (apart_listedAfter (by decide) (by decide) _ _)
  · simp only [List.map_cons, List.map_nil, Piece.erase]
    decide
  · rw [after_append]
    simp only [after, hends.1]
    exact apart_listedOrNone _
  · rw [after_append]
    simp only [after, hends.2]
    exact apart_listedOrNone _

theorem apart_gapLine (gap : InvestigationGap) : apart patterns true (gapLine gap) := by
  apply apart_of_erase
  simp only [gapLine, List.map_cons, List.map_nil, Piece.erase]
  decide

theorem apart_evidenceLine (item : TypedEvidence) : apart patterns true (evidenceLine item) := by
  apply apart_of_erase
  simp only [evidenceLine, List.map_cons, List.map_nil, Piece.erase]
  decide

theorem apart_writeLine (item : WriteRecord) : apart patterns true (writeLine item) := by
  apply apart_of_erase
  simp only [writeLine, List.map_cons, List.map_nil, Piece.erase]
  decide

theorem apart_linesOf {α : Type} {none : String} {line : α → List Piece} {items : List α}
    (hnone : quiet patterns none) (hline : ∀ item, apart patterns true (line item)) :
    ∀ pieces ∈ linesOf none line items, apart patterns true pieces := by
  intro pieces hpieces
  rw [linesOf] at hpieces
  split at hpieces
  · rw [List.mem_singleton.1 hpieces, apart, hnone]
    cases ends none <;> rfl
  · obtain ⟨item, -, rfl⟩ := List.mem_map.1 hpieces
    exact hline item

theorem apart_heading {text : String} (h : quiet patterns text) :
    ∀ pieces ∈ heading text, apart patterns true pieces := by
  have hempty : apart patterns true [.lit ""] := by decide
  have htext : apart patterns true [.lit text] := by
    rw [apart, h]
    cases ends text <;> rfl
  simp [heading, hempty, htext]

theorem apart_map {α : Type} {line : α → List Piece} {items : List α}
    (hline : ∀ item, apart patterns true (line item)) :
    ∀ pieces ∈ items.map line, apart patterns true pieces := by
  intro pieces hpieces
  obtain ⟨item, -, rfl⟩ := List.mem_map.1 hpieces
  exact hline item

/-- The headings, and what is said where there is nothing to list. -/
def ownTexts : List String :=
  ["# HuntWarden v2 主机取证报告", "## 任务与 Epoch", "## Coverage 与模型状态", "## 调查闭合与调度状态",
    "## Assessment Ledger", "- 尚无 RULE / MODEL / HUMAN Assessment；不得推断为无风险。",
    "## Effective Assessment Projection", "- 尚无有效结论投影；不得推断为无风险。", "## Investigation Gaps",
    "- 无模型调查限制记录。", "## Evidence", "## 审批、动作与恢复", "- 无写操作。", "- 未发生恢复流程。",
    "## 固定限制", "Coverage 完整性与风险判断正交；不完整、未调查和不适用均不等于安全。", ""]

theorem quiet_own {text : String} (h : text ∈ ownTexts) : quiet patterns text := by
  have hall : ∀ text ∈ ownTexts, quiet patterns text := by decide +kernel
  exact hall text h

theorem apart_own {text : String} (h : text ∈ ownTexts) : apart patterns true [.lit text] := by
  rw [apart, quiet_own h]
  cases ends text <;> rfl

variable (p) (r : Runtime)

theorem apart_taskSection : ∀ line ∈ p.taskSection, apart patterns true line := by
  rw [taskSection, List.forall_mem_append]
  refine ⟨apart_heading (quiet_own (by simp [ownTexts])), ?_⟩
  have hlabels : ∀ label ∈ ["- 任务：", "- Epoch：", "- 目标：", "- 模式：", "- 请求："],
      apart patterns true [.lit label, .val ""] := by decide
  intro line hline
  apply apart_of_erase
  simp only [List.mem_cons, List.not_mem_nil, or_false] at hline
  rcases hline with rfl | rfl | rfl | rfl | rfl <;> exact hlabels _ (by simp)

theorem apart_coverageSection : ∀ line ∈ p.coverageSection, apart patterns true line := by
  rw [coverageSection, List.forall_mem_append]
  exact ⟨apart_heading (quiet_own (by simp [ownTexts])), apart_map apart_coverageLine⟩

theorem apart_investigationSection : ∀ line ∈ p.investigationSection, apart patterns true line := by
  simp only [investigationSection, List.forall_mem_append, and_assoc]
  exact ⟨apart_heading (quiet_own (by simp [ownTexts])), List.forall_mem_singleton.2 apart_completionLine,
    apart_map apart_checkpointLine, apart_map apart_hypothesisLine, apart_map apart_obligationLine,
    apart_map apart_actionLine⟩

theorem apart_assessmentSection : ∀ line ∈ p.assessmentSection, apart patterns true line := by
  rw [assessmentSection, List.forall_mem_append]
  exact ⟨apart_heading (quiet_own (by simp [ownTexts])),
    apart_linesOf (quiet_own (by simp [ownTexts])) apart_assessmentLine⟩

theorem apart_effectiveSection : ∀ line ∈ p.effectiveSection, apart patterns true line := by
  rw [effectiveSection, List.forall_mem_append]
  exact ⟨apart_heading (quiet_own (by simp [ownTexts])),
    apart_linesOf (quiet_own (by simp [ownTexts])) apart_effectiveLine⟩

theorem apart_gapSection : ∀ line ∈ p.gapSection, apart patterns true line := by
  rw [gapSection, List.forall_mem_append]
  exact ⟨apart_heading (quiet_own (by simp [ownTexts])),
    apart_linesOf (quiet_own (by simp [ownTexts])) apart_gapLine⟩

theorem apart_evidenceSection : ∀ line ∈ p.evidenceSection, apart patterns true line := by
  rw [evidenceSection, List.forall_mem_append]
  exact ⟨apart_heading (quiet_own (by simp [ownTexts])), apart_map apart_evidenceLine⟩

theorem apart_recoveryLine (event : AuditEvent) : apart patterns true (recoveryLine r event) := by
  apply apart_of_erase
  simp only [recoveryLine, List.map_cons, List.map_nil, Piece.erase]
  decide

theorem apart_writeSection : ∀ line ∈ p.writeSection r, apart patterns true line := by
  simp only [writeSection, List.forall_mem_append, and_assoc]
  exact ⟨apart_heading (quiet_own (by simp [ownTexts])),
    apart_linesOf (quiet_own (by simp [ownTexts])) apart_writeLine,
    apart_linesOf (quiet_own (by simp [ownTexts])) (apart_recoveryLine r)⟩

theorem apart_limitSection : ∀ line ∈ limitSection, apart patterns true line := by
  rw [limitSection, List.forall_mem_append]
  refine ⟨apart_heading (quiet_own (by simp [ownTexts])), ?_⟩
  intro line hline
  simp only [List.mem_cons, List.not_mem_nil, or_false] at hline
  rcases hline with rfl | rfl <;> exact apart_own (by simp [ownTexts])

theorem apart_lines : ∀ line ∈ p.lines r, apart patterns true line := by
  simp only [lines, List.forall_mem_append, and_assoc]
  exact ⟨List.forall_mem_singleton.2 (apart_own (by simp [ownTexts])), apart_taskSection p,
    apart_coverageSection p, apart_investigationSection p, apart_assessmentSection p, apart_effectiveSection p,
    apart_gapSection p, apart_evidenceSection p, apart_writeSection p r, apart_limitSection⟩

/-! ### The references of the fallback -/

variable {p}

theorem clean_heading (text : String) : (∀ line ∈ heading text, p.Clean line) ↔ True := by
  simp [heading]

theorem clean_map {α : Type} {line : α → List Piece} {texts : α → List String}
    (h : ∀ item, p.Clean (line item) ↔ ∀ text ∈ texts item, p.Known text) (items : List α) :
    (∀ pieces ∈ items.map line, p.Clean pieces) ↔ ∀ text ∈ items.flatMap texts, p.Known text := by
  simp only [List.forall_mem_map, h, List.mem_flatMap]
  exact ⟨fun hall text ⟨item, hitem, htext⟩ => hall item hitem text htext,
    fun hall item hitem text htext => hall text ⟨item, hitem, htext⟩⟩

theorem clean_linesOf {α : Type} {line : α → List Piece} {texts : α → List String}
    (h : ∀ item, p.Clean (line item) ↔ ∀ text ∈ texts item, p.Known text) (none : String) (items : List α) :
    (∀ pieces ∈ linesOf none line items, p.Clean pieces) ↔ ∀ text ∈ items.flatMap texts, p.Known text := by
  rw [linesOf]
  split
  · rename_i hempty
    simp [List.isEmpty_iff.1 hempty]
  · exact clean_map h items

theorem clean_section {own : String} {lines : List (List Piece)} {texts : List String}
    (h : (∀ line ∈ lines, p.Clean line) ↔ ∀ text ∈ texts, p.Known text) :
    (∀ line ∈ heading own ++ lines, p.Clean line) ↔ ∀ text ∈ texts, p.Known text := by
  rw [List.forall_mem_append, h]
  exact and_iff_right ((clean_heading own).2 trivial)

theorem clean_taskSection :
    (∀ line ∈ p.taskSection, p.Clean line) ↔ ∀ text ∈ [p.taskId, p.epochId, p.target, p.request], p.Known text :=
  clean_section (by simp)

theorem clean_coverageSection : (∀ line ∈ p.coverageSection, p.Clean line) ↔
    ∀ text ∈ (p.checks.filterMap p.runOf).map (·.coverageId), p.Known text := by
  apply clean_section
  simp only [List.forall_mem_map, clean_coverageLine, List.mem_filterMap]
  exact ⟨fun hall run ⟨category, hcategory, hrun⟩ => hall category hcategory run hrun,
    fun hall category hcategory run hrun => hall run ⟨category, hcategory, hrun⟩⟩

theorem clean_investigationSection :
    (∀ line ∈ p.investigationSection, p.Clean line) ↔ ∀ text ∈ p.investigationTexts, p.Known text := by
  have hcompletion : (∀ line ∈ [p.completionLine], p.Clean line) ↔
      ∀ text ∈ p.completion.toList.map (·.snapshotRef), p.Known text := by
    simp [clean_completionLine]
  rw [investigationSection, investigationTexts, List.append_assoc, List.append_assoc, List.append_assoc,
    List.append_assoc]
  apply clean_section
  simp only [List.forall_mem_append, hcompletion, clean_map clean_checkpointLine,
    clean_map clean_hypothesisLine, clean_map clean_obligationLine, clean_map clean_actionLine, and_assoc]

theorem clean_writeSection : (∀ line ∈ p.writeSection r, p.Clean line) ↔
    ∀ text ∈ p.writes.map (·.actionId) ++ p.recovery.map r.stringify, p.Known text := by
  have hwrites : ∀ item, p.Clean (writeLine item) ↔ ∀ text ∈ [item.actionId], p.Known text := by
    simp [clean_writeLine]
  have hrecovery : ∀ event, p.Clean (recoveryLine r event) ↔ ∀ text ∈ [r.stringify event], p.Known text := by
    simp [recoveryLine]
  rw [writeSection, List.append_assoc, List.map_eq_flatMap, List.map_eq_flatMap]
  apply clean_section
  simp only [List.forall_mem_append, clean_linesOf hwrites, clean_linesOf hrecovery]

theorem clean_lines : (∀ line ∈ p.lines r, p.Clean line) ↔ ∀ text ∈ p.texts r, p.Known text := by
  have htitle : ∀ line ∈ [[Piece.lit "# HuntWarden v2 主机取证报告"]], p.Clean line :=
    List.forall_mem_singleton.2 ((clean_lit _ _).2 clean_nil)
  have hlimits : (∀ line ∈ limitSection, p.Clean line) ↔ ∀ text ∈ ([] : List String), p.Known text :=
    clean_section (by simp)
  have hassessments : (∀ line ∈ p.assessmentSection, p.Clean line) ↔ _ :=
    clean_section (clean_linesOf clean_assessmentLine _ p.assessments)
  have heffective : (∀ line ∈ p.effectiveSection, p.Clean line) ↔ _ :=
    clean_section (clean_linesOf clean_effectiveLine _ p.effectiveAssessments)
  have hgaps : (∀ line ∈ p.gapSection, p.Clean line) ↔ _ :=
    clean_section (clean_linesOf clean_gapLine _ p.investigationGaps)
  have hevidence : (∀ line ∈ p.evidenceSection, p.Clean line) ↔ _ :=
    clean_section (clean_map clean_evidenceLine p.evidence)
  rw [texts, List.append_assoc]
  simp only [lines, List.forall_mem_append, clean_taskSection, clean_coverageSection,
    clean_investigationSection, hassessments, heffective, hgaps, hevidence, clean_writeSection, and_assoc]
  exact ⟨fun h => ⟨h.2.1, h.2.2.1, h.2.2.2.1, h.2.2.2.2.1, h.2.2.2.2.2.1, h.2.2.2.2.2.2.1,
      h.2.2.2.2.2.2.2.1, h.2.2.2.2.2.2.2.2.1, h.2.2.2.2.2.2.2.2.2.1⟩,
    fun h => ⟨htitle, h.1, h.2.1, h.2.2.1, h.2.2.2.1, h.2.2.2.2.1, h.2.2.2.2.2.1, h.2.2.2.2.2.2.1,
      h.2.2.2.2.2.2.2.1, h.2.2.2.2.2.2.2.2, hlimits.2 (by simp)⟩⟩

theorem referenceErrors_eq_nil {markdown : String} : p.referenceErrors markdown = [] ↔
    ∀ kind ∈ kinds, ∀ id ∈ kind.pattern.references markdown.toList, String.ofList id ∈ p.allowed kind := by
  simp [referenceErrors, List.flatMap_eq_nil_iff, List.filterMap_eq_nil_iff]

/-- The fallback refers to what its texts refer to. -/
theorem referenceErrors_fallback :
    p.referenceErrors (p.fallbackV2 r) = [] ↔ ∀ text ∈ p.texts r, p.Known text := by
  rw [referenceErrors_eq_nil, ← clean_lines, fallbackV2]
  have hreferences : ∀ kind ∈ kinds, kind.pattern.references (String.ofList (joined (p.lines r))).toList =
      (p.lines r).flatMap fun line =>
        (vals line).flatMap fun text => kind.pattern.references text.toList := by
    intro kind hkind
    rw [String.toList_ofList]
    exact references_joined (List.mem_map_of_mem hkind) (apart_lines p r)
  constructor
  · intro h line hline text htext kind hkind id hid
    apply h kind hkind id
    rw [hreferences kind hkind]
    exact List.mem_flatMap.2 ⟨line, hline, List.mem_flatMap.2 ⟨text, htext, hid⟩⟩
  · intro h kind hkind id hid
    rw [hreferences kind hkind] at hid
    obtain ⟨line, hline, hid⟩ := List.mem_flatMap.1 hid
    obtain ⟨text, htext, hid⟩ := List.mem_flatMap.1 hid
    exact h line hline text htext kind hkind id hid

/-! ### What the fallback shows -/

theorem includes_of_line {line : List Piece} (h : line ∈ p.lines r) {text : String}
    (htext : text.toList <:+: chars line) : includes (p.fallbackV2 r) text := by
  rw [includes, fallbackV2, String.toList_ofList]
  exact decide_eq_true (htext.trans (infix_joined h))

theorem includes_of_val {line : List Piece} (h : line ∈ p.lines r) {text : String}
    (htext : Piece.val text ∈ line) : includes (p.fallbackV2 r) text := by
  have hinfix := infix_chars htext
  exact includes_of_line r h hinfix

theorem includes_of_lit {line : List Piece} (h : line ∈ p.lines r) (own : String) {text : String}
    (hown : Piece.lit own ∈ line) (htext : text.toList <:+: own.toList) :
    includes (p.fallbackV2 r) text := by
  have hinfix := infix_chars hown
  exact includes_of_line r h (htext.trans hinfix)

theorem mem_linesOf {α : Type} (none : String) (line : α → List Piece) {items : List α} {item : α}
    (h : item ∈ items) : line item ∈ linesOf none line items := by
  rw [linesOf, if_neg (by simpa using List.ne_nil_of_mem h)]
  exact List.mem_map_of_mem h

theorem coverageLine_mem {category : CheckCategory} (h : category ∈ p.checks) :
    p.coverageLine category ∈ p.lines r := by
  have hline := List.mem_map_of_mem (f := p.coverageLine) h
  simp only [lines, coverageSection, List.mem_append, hline, or_true, true_or]

theorem mem_of_investigation {line : List Piece} (h : line ∈ p.investigationSection) : line ∈ p.lines r := by
  simp only [lines, List.mem_append, h, or_true, true_or]

theorem shown_eq_nil {markdown error : String} {texts : List String}
    (h : ∀ text ∈ texts, includes markdown text) : shown markdown texts error = [] :=
  if_pos (List.all_eq_true.2 h)

theorem epoch_shown : includes (p.fallbackV2 r) p.epochId := by
  have hline : [Piece.lit "- Epoch：", .val p.epochId] ∈ p.lines r := by
    simp [lines, taskSection]
  exact includes_of_val r hline (by simp)

theorem categoryErrors_eq_nil {category : CheckCategory} (h : category ∈ p.checks) :
    p.categoryErrors (p.fallbackV2 r) category = [] ↔ (p.runOf category).isSome := by
  have hline := coverageLine_mem r h
  rw [categoryErrors]
  rw [coverageLine] at hline
  cases hrun : p.runOf category with
  | none => simp
  | some run =>
    rw [hrun] at hline
    have hid : ∀ text ∈ [run.coverageId], includes (p.fallbackV2 r) text :=
      List.forall_mem_singleton.2 (includes_of_val r hline (by simp))
    have hstatus : ∀ text ∈ [run.status.name, run.applicability.name], includes (p.fallbackV2 r) text :=
      List.forall_mem_cons.2 ⟨includes_of_val r hline (by simp),
        List.forall_mem_singleton.2 (includes_of_val r hline (by simp))⟩
    have hstate : ∀ text ∈ ["MODEL: " ++ (p.stateOf category).name], includes (p.fallbackV2 r) text :=
      List.forall_mem_singleton.2 (includes_of_val r hline (by simp))
    dsimp only
    rw [shown_eq_nil hid, shown_eq_nil hstatus, shown_eq_nil hstate]
    simp

theorem assessmentErrors_eq_nil {assessment : RecordedAssessment} (h : assessment ∈ p.assessments) :
    assessmentErrors (p.fallbackV2 r) assessment = [] := by
  have hline : assessmentLine assessment ∈ p.lines r := by
    have hmem := mem_linesOf "- 尚无 RULE / MODEL / HUMAN Assessment；不得推断为无风险。" assessmentLine h
    simp only [lines, assessmentSection, List.mem_append, hmem, or_true, true_or]
  rw [assessmentErrors, shown_eq_nil, shown_eq_nil]
  · rfl
  · exact List.forall_mem_singleton.2 (includes_of_val r hline (by simp [assessmentLine]))
  · exact List.forall_mem_singleton.2 (includes_of_val r hline (by simp [assessmentLine]))

theorem effectiveErrors_eq_nil {effective : Projection.EffectiveAssessmentProjection}
    (h : effective ∈ p.effectiveAssessments) : effectiveErrors (p.fallbackV2 r) effective = [] := by
  have hline : effectiveLine effective ∈ p.lines r := by
    have hmem := mem_linesOf "- 尚无有效结论投影；不得推断为无风险。" effectiveLine h
    simp only [lines, effectiveSection, List.mem_append, hmem, or_true, true_or]
  rw [effectiveErrors, shown_eq_nil, List.nil_append]
  · split
    · rename_i hconflict
      apply shown_eq_nil
      refine List.forall_mem_singleton.2 (includes_of_lit r hline " / UNRESOLVED" ?_ ?_)
      · simp [effectiveLine, hconflict]
      · decide
    · rfl
  · exact List.forall_mem_cons.2 ⟨includes_of_val r hline (by simp [effectiveLine]),
      List.forall_mem_singleton.2 (includes_of_val r hline (by simp [effectiveLine]))⟩

theorem gap_shown {gap : InvestigationGap} (h : gap ∈ p.investigationGaps) :
    ∀ text ∈ [gap.gapId, gap.code.name], includes (p.fallbackV2 r) text := by
  have hline : gapLine gap ∈ p.lines r := by
    have hmem := mem_linesOf "- 无模型调查限制记录。" gapLine h
    simp only [lines, gapSection, List.mem_append, hmem, or_true, true_or]
  exact List.forall_mem_cons.2 ⟨includes_of_val r hline (by simp [gapLine]),
    List.forall_mem_singleton.2 (includes_of_val r hline (by simp [gapLine]))⟩

theorem writeErrors_eq_nil {item : WriteRecord} (h : item ∈ p.writes) :
    writeErrors (p.fallbackV2 r) item = [] := by
  have hline : writeLine item ∈ p.lines r := by
    have hmem := mem_linesOf "- 无写操作。" writeLine h
    simp only [lines, writeSection, List.mem_append, hmem, or_true, true_or]
  rw [writeErrors]
  split
  · rfl
  · exact shown_eq_nil (List.forall_mem_cons.2 ⟨includes_of_val r hline (by simp [writeLine]),
      List.forall_mem_singleton.2 (includes_of_val r hline (by simp [writeLine]))⟩)

theorem completionErrors_eq_nil : p.completionErrors (p.fallbackV2 r) = [] := by
  have hline : p.completionLine ∈ p.lines r :=
    mem_of_investigation r (by simp [investigationSection])
  rw [completionErrors]
  rw [completionLine] at hline
  cases hcompletion : p.completion with
  | none =>
    rw [hcompletion] at hline
    refine shown_eq_nil (List.forall_mem_singleton.2 ?_)
    exact includes_of_lit r hline "- INVESTIGATION: OPEN / INCOMPLETE" (by simp) (by decide)
  | some completion =>
    rw [hcompletion] at hline
    exact shown_eq_nil (List.forall_mem_cons.2 ⟨includes_of_val r hline (by simp),
      List.forall_mem_singleton.2 (includes_of_val r hline (by simp))⟩)

theorem obligation_shown {obligation : InvestigationObligation} (h : obligation ∈ p.obligations) :
    ∀ text ∈ [obligation.obligationId, obligation.status.name], includes (p.fallbackV2 r) text := by
  have hline : obligationLine obligation ∈ p.lines r := by
    have hmem := List.mem_map_of_mem (f := obligationLine) h
    exact mem_of_investigation r (by simp only [investigationSection, List.mem_append, hmem, or_true, true_or])
  exact List.forall_mem_cons.2 ⟨includes_of_val r hline (by simp [obligationLine]),
    List.forall_mem_singleton.2 (includes_of_val r hline (by simp [obligationLine]))⟩

theorem action_shown {action : QueuedAction} (h : action ∈ p.actions) :
    ∀ text ∈ [action.actionId, action.status.name], includes (p.fallbackV2 r) text := by
  have hline : actionLine action ∈ p.lines r := by
    have hmem := List.mem_map_of_mem (f := actionLine) h
    exact mem_of_investigation r (by simp only [investigationSection, List.mem_append, hmem, or_true])
  exact List.forall_mem_cons.2 ⟨includes_of_val r hline (by simp [actionLine]),
    List.forall_mem_singleton.2 (includes_of_val r hline (by simp [actionLine]))⟩

theorem checkpoint_shown {checkpoint : Playbooks.DiscoveryCheckpoint} (h : checkpoint ∈ p.discovery) :
    ∀ text ∈ [checkpoint.checkpointId, checkpoint.status.name], includes (p.fallbackV2 r) text := by
  have hline : checkpointLine checkpoint ∈ p.lines r := by
    have hmem := List.mem_map_of_mem (f := checkpointLine) h
    exact mem_of_investigation r (by simp only [investigationSection, List.mem_append, hmem, or_true, true_or])
  exact List.forall_mem_cons.2 ⟨includes_of_val r hline (by simp [checkpointLine]),
    List.forall_mem_singleton.2 (includes_of_val r hline (by simp [checkpointLine]))⟩

/-- Each run of the coverage is printed with its category. -/
theorem incompleteErrors_eq_nil
    (hcoverage : ∀ run ∈ p.coverage, ∃ category ∈ p.checks, p.runOf category = some run) :
    p.incompleteErrors (p.fallbackV2 r) = [] := by
  rw [incompleteErrors]
  split
  · rename_i hany
    obtain ⟨run, hrun, hrefused⟩ := List.any_eq_true.1 hany
    obtain ⟨category, hcategory, hfound⟩ := hcoverage run hrun
    have hline := coverageLine_mem r hcategory
    rw [coverageLine, hfound] at hline
    refine shown_eq_nil (List.forall_mem_singleton.2 ?_)
    refine includes_of_lit r hline " / INCOMPLETE" ?_ (by decide)
    simp [hrefused]
  · rfl

theorem flatMap_eq_nil {α : Type} {items : List α} {errors : α → List String}
    (h : ∀ item ∈ items, errors item = []) : items.flatMap errors = [] :=
  List.flatMap_eq_nil_iff.2 h

theorem valid_iff {markdown : String} : (p.validateV2 markdown).valid ↔ p.errors markdown = [] := by
  rw [validateV2]
  generalize p.errors markdown = errors
  exact List.isEmpty_iff

/-- A text with an unknown reference spoils the report, whatever else it shows. -/
theorem not_valid_of_not_known {text : String} (htext : text ∈ p.texts r) (h : ¬ p.Known text) :
    (p.validateV2 (p.fallbackV2 r)).valid = false := by
  rw [Bool.eq_false_iff]
  intro hvalid
  rw [valid_iff, errors] at hvalid
  simp only [List.append_eq_nil_iff, and_assoc] at hvalid
  exact h ((referenceErrors_fallback r).1 hvalid.1 text htext)

theorem errors_fallback
    (hcoverage : ∀ run ∈ p.coverage, ∃ category ∈ p.checks, p.runOf category = some run) :
    p.errors (p.fallbackV2 r) = [] ↔
      (∀ category ∈ p.checks, (p.runOf category).isSome) ∧ ∀ text ∈ p.texts r, p.Known text := by
  have hcategories : p.checks.flatMap (p.categoryErrors (p.fallbackV2 r)) = [] ↔
      ∀ category ∈ p.checks, (p.runOf category).isSome := by
    rw [List.flatMap_eq_nil_iff]
    exact forall₂_congr fun category hcategory => categoryErrors_eq_nil r hcategory
  rw [errors, shown_eq_nil (List.forall_mem_singleton.2 (epoch_shown r)),
    flatMap_eq_nil fun assessment h => assessmentErrors_eq_nil r h,
    flatMap_eq_nil fun effective h => effectiveErrors_eq_nil r h,
    flatMap_eq_nil fun gap h => shown_eq_nil (gap_shown r h),
    flatMap_eq_nil fun item h => writeErrors_eq_nil r h, completionErrors_eq_nil,
    flatMap_eq_nil fun obligation h => shown_eq_nil (obligation_shown r h),
    flatMap_eq_nil fun action h => shown_eq_nil (action_shown r h),
    flatMap_eq_nil fun checkpoint h => shown_eq_nil (checkpoint_shown r h), incompleteErrors_eq_nil r hcoverage]
  simp only [List.append_nil]
  rw [List.append_eq_nil_iff, referenceErrors_fallback, hcategories, and_comm]

end ReportProjection

/-! ### The fallback of a store -/

variable {s : ReportStore} {task : ReportTask}

theorem coverageOf_category {category : CheckCategory} {run : CoverageRun}
    (h : s.coverageOf category = some run) : run ∈ s.coverageRuns ∧ run.category = category := by
  have hmem := List.mem_of_getLast? h
  rw [List.mem_filter] at hmem
  exact ⟨hmem.1, of_decide_eq_true hmem.2⟩

theorem coverageOf_isSome {category : CheckCategory} :
    (s.coverageOf category).isSome ↔ ∃ run ∈ s.coverageRuns, run.category = category := by
  rw [ReportStore.coverageOf, List.getLast?_isSome]
  constructor
  · intro h
    obtain ⟨run, hrun⟩ := List.exists_mem_of_ne_nil _ h
    rw [List.mem_filter] at hrun
    exact ⟨run, hrun.1, of_decide_eq_true hrun.2⟩
  · rintro ⟨run, hrun, rfl⟩
    exact List.ne_nil_of_mem (List.mem_filter.2 ⟨hrun, decide_eq_true rfl⟩)

/-- The run of a category is found where it is the last of its category. -/
theorem find_coverage (checks : List CheckCategory) {category : CheckCategory} (h : category ∈ checks) :
    (checks.filterMap s.coverageOf).find? (fun run => run.category = category) = s.coverageOf category := by
  cases hrun : s.coverageOf category with
  | none =>
    rw [List.find?_eq_none]
    intro run hmem heq
    obtain ⟨other, -, hother⟩ := List.mem_filterMap.1 hmem
    obtain rfl : run.category = category := of_decide_eq_true heq
    rw [(coverageOf_category hother).2, hother] at hrun
    cases hrun
  | some run =>
    induction checks with
    | nil => cases h
    | cons first rest ih =>
      by_cases hfirst : first = category
      · subst hfirst
        rw [List.filterMap_cons_some hrun, List.find?_cons_of_pos]
        exact decide_eq_true (coverageOf_category hrun).2
      · have hrest := ih ((List.mem_cons.1 h).resolve_left fun heq => hfirst heq.symm)
        cases hother : s.coverageOf first with
        | none => rw [List.filterMap_cons_none hother, hrest]
        | some other =>
          rw [List.filterMap_cons_some hother, List.find?_cons_of_neg, hrest]
          rw [(coverageOf_category hother).2]
          simpa using hfirst

/-- The deterministic fallback passes the validator exactly when each category that is checked has a coverage
    run and what its texts refer to is in the projection. -/
theorem fallback_valid_iff {r : Runtime} {p : ReportProjection} (h : s.projectionV2 r task = .ok p) :
    (p.validateV2 (p.fallbackV2 r)).valid ↔
      (∀ category ∈ task.checks, ∃ run ∈ s.coverageRuns, run.category = category) ∧
      ∀ text ∈ p.texts r, p.Known text := by
  obtain ⟨epochId, -, hp⟩ := bind_ok.1 h
  have hchecks : p.checks = task.checks := by rw [← pure_ok.1 hp]
  have hrunOf : ∀ category ∈ p.checks, p.runOf category = s.coverageOf category := by
    rw [← pure_ok.1 hp]
    exact fun category hcategory => find_coverage task.checks hcategory
  have hcoverage : ∀ run ∈ p.coverage, ∃ category ∈ p.checks, p.runOf category = some run := by
    intro run hrun
    rw [← pure_ok.1 hp] at hrun
    obtain ⟨category, hcategory, hfound⟩ := List.mem_filterMap.1 hrun
    rw [← hchecks] at hcategory
    exact ⟨category, hcategory, (hrunOf category hcategory).trans hfound⟩
  rw [ReportProjection.valid_iff, ReportProjection.errors_fallback r hcoverage, ← hchecks]
  refine and_congr_left fun _ => forall₂_congr fun category hcategory => ?_
  rw [hrunOf category hcategory, coverageOf_isSome]

/-! ### Two stores -/

def sampleTask : ReportTask where
  taskId := "TASK-1"
  host := "host"
  mode := .scan
  checks := [.webshell]
  request := "r"
  protocolVersion := some 2
  activeEpochId := some "EPOCH-1"

def sampleEvidence : TypedEvidence where
  evidenceId := "EV-00000000-0000-4000-8000-000000000002"
  taskId := "TASK-1"
  metadata := some (.obj [("epochId", .str "EPOCH-1")])
  type := "FILE"

/-- An assessment that names its evidence twice. -/
def sampleAssessment : RecordedAssessment where
  assessmentId := "ASM-00000000-0000-4000-8000-000000000003"
  taskId := "TASK-1"
  epochId := "EPOCH-1"
  authorType := .model
  category := .webshell
  subjectRef := none
  scope := .observedCategory
  verdict := .suspicious
  createdAt := "2026-01-01T00:00:00Z"
  severity := .medium
  confidence := 1 / 2
  rationale := "see EV-00000000-0000-4000-8000-000000000002"
  evidenceRefs := [sampleEvidence.evidenceId]
  factRefs := []
  queryRefs := []

/-- A finished category, an assessment of it and, if so, a gap. -/
def sampleStore (gaps : List InvestigationGap) : ReportStore where
  coverageRuns := [⟨"COV-00000000-0000-4000-8000-000000000004", .webshell, .complete, .applicable⟩]
  assessments := [sampleAssessment]
  assessmentRelations := []
  session := none
  snapshots := .empty
  gaps
  hypotheses := [⟨"HYP-1", "OBJ-1", "uploaded", .model, [], [], [], .supported, 1⟩]
  obligations := [⟨"OBL-1", "key", "INSPECT_WEBROOT", [], true, .limited, [], ["GRANT_DENIED"]⟩]
  actions := []
  checkpoints := []
  evidence := [sampleEvidence]
  approvals := []
  receipts := []
  toolRuns := []
  audit := []

def sampleRuntime : Runtime where
  projection := ⟨Js.codeUnitCollation, fun _ => none⟩
  stringify _ := "\x7b\x7d"

instance (p : ReportProjection) (text : String) : Decidable (p.Known text) :=
  inferInstanceAs (Decidable (∀ kind ∈ kinds, ∀ id ∈ kind.pattern.references text.toList,
    String.ofList id ∈ p.allowed kind))

def deniedGap : InvestigationGap where
  gapId := "IGAP-00000000-0000-4000-8000-000000000005"
  category := some .webshell
  code := .grantDenied
  reasonCode := "GRANT_DENIED"

theorem fallback_valid_sample : ∃ p, (sampleStore [deniedGap]).projectionV2 sampleRuntime sampleTask = .ok p ∧
    (p.validateV2 (p.fallbackV2 sampleRuntime)).valid := by
  obtain ⟨p, hp⟩ : ∃ p, (sampleStore [deniedGap]).projectionV2 sampleRuntime sampleTask = .ok p := ⟨_, rfl⟩
  refine ⟨p, hp, (fallback_valid_iff hp).2 ?_⟩
  obtain rfl := Except.ok.inj hp
  decide +kernel

/-- The gap that the store itself records when the queue of actions is full. -/
def queueGap : InvestigationGap where
  gapId := "IGAP-ACT-00000000-0000-4000-8000-000000000001"
  category := none
  code := .queueCapacity
  reasonCode := "ACTIVE_ACTION_LIMIT:1000"

theorem fallback_invalid_queue_gap :
    ∃ p, (sampleStore [queueGap]).projectionV2 sampleRuntime sampleTask = .ok p ∧
      (p.validateV2 (p.fallbackV2 sampleRuntime)).valid = false := by
  obtain ⟨p, hp⟩ : ∃ p, (sampleStore [queueGap]).projectionV2 sampleRuntime sampleTask = .ok p := ⟨_, rfl⟩
  have hgap : queueGap.gapId ∈ p.texts sampleRuntime := by
    rw [← Except.ok.inj hp]
    decide
  refine ⟨p, hp, ReportProjection.not_valid_of_not_known sampleRuntime hgap ?_⟩
  obtain rfl := Except.ok.inj hp
  decide

end HuntWarden.Report
