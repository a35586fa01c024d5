import HuntWarden.Playbooks.Planned

/-! Whether the planner covers the risks. A call that leaves a complete checkpoint has taken every
    candidate; but a subject that has been planned once, for whatever category, is no candidate any
    more when a risk of another category is recorded about it. -/

namespace HuntWarden.Playbooks

variable {r : PlanRuntime} {s s' : PlannerStore} {fact : FactRecord} {category : CheckCategory}

/-- The subject has an effective risk in an enabled category for which something can be planned. -/
structure AtRisk (r : PlanRuntime) (s : PlannerStore) (fact : FactRecord) (category : CheckCategory) :
    Prop where
  risk : category ∈ riskCategories r s fact.subjectRef
  enabled : category ∈ s.checks
  plannable : operationsForFact r.texts fact category s.edges ≠ []

/-- The hypothesis and the obligations of the subject in the category are there. -/
structure HasPlan (r : PlanRuntime) (s : PlannerStore) (fact : FactRecord) (category : CheckCategory) :
    Prop where
  hypothesis : HasHypothesis s fact.subjectRef (claimFor category fact.namespace_)
  obligations : ∀ operation ∈ operationsForFact r.texts fact category s.edges,
    HasObligation s (dedupeKey operation fact.subjectRef)

/-- Every risk for which something can be planned has its hypothesis and its obligations. -/
def Covered (r : PlanRuntime) (s : PlannerStore) : Prop :=
  ∀ fact ∈ latestBySubject s.facts, ∀ category, AtRisk r s fact category → HasPlan r s fact category

/-- Nothing new is known about the subject, and the playbook has a hypothesis about it, be it of another
    category. -/
structure PassedOver (s : PlannerStore) (fact : FactRecord) : Prop where
  old : fact.factSeq ≤ processedFactSeq s
  planned : fact.subjectRef ∈ plannedRiskSubjects s

/-! ### Keys -/

/-- A kind that cannot be mistaken for another one in front of a subject. -/
def plainKind (kind : String) : Bool := ':' ∉ kind.toList && kind ≠ "CATEGORY_SCOPE"

theorem plain_trustOperations {t : Texts} :
    ((trustOperations t fact).map (·.obligationKind)).all plainKind = true := by
  rw [trustOperations]
  split
  · dsimp only [project, relate, queryFacts, List.cons_append, List.nil_append, List.map]
    decide +kernel
  · dsimp only [project, queryFacts, List.cons_append, List.nil_append, List.map]
    decide +kernel

theorem plain_javaComponentOperations {t : Texts} {edges : List EdgeRecord} :
    ((javaComponentOperations t fact edges).map (·.obligationKind)).all plainKind = true := by
  rw [javaComponentOperations]
  dsimp only
  split
  · dsimp only [probe, List.map]
    decide +kernel
  · rfl

theorem plain_webshellOperations :
    ((webshellOperations fact).map (·.obligationKind)).all plainKind = true := by
  rw [webshellOperations]
  split
  · dsimp only [collect, project, verify, relate, queryFacts, List.map]
    decide +kernel
  · dsimp only [relate, List.map]
    decide +kernel

theorem plain_operations {t : Texts} {edges : List EdgeRecord} :
    ((operationsForFact t fact category edges).map (·.obligationKind)).all plainKind = true := by
  rw [operationsForFact.eq_def]
  split
  case h_1 => exact plain_webshellOperations
  case h_7 | h_8 => exact plain_trustOperations
  case h_13 => exact plain_javaComponentOperations
  all_goals
    dsimp only [persistenceFileOperations, triageFileOperations, accountFileOperations,
      accountOperations, sshKeyOperations, persistenceOperations, socketOperations, processOperations,
      collect, project, verify, relate, queryFacts, probe, resolveDerived, List.map]
    decide +kernel

theorem plainKind_of_mem {t : Texts} {edges : List EdgeRecord} {operation : PlannedOperation}
    (h : operation ∈ operationsForFact t fact category edges) :
    ':' ∉ operation.obligationKind.toList ∧ operation.obligationKind ≠ "CATEGORY_SCOPE" := by
  have hplain := List.all_eq_true.1 plain_operations _ (List.mem_map_of_mem h)
  simpa [plainKind] using hplain

/-- Texts before the first colon, and what comes after it. -/
theorem append_colon_inj {a b c d : List Char} (ha : ':' ∉ a) (hc : ':' ∉ c)
    (h : a ++ ':' :: b = c ++ ':' :: d) : a = c ∧ b = d := by
  induction a generalizing c with
  | nil =>
    cases c with
    | nil => exact ⟨rfl, (List.cons.inj h).2⟩
    | cons x c => exact absurd (List.cons.inj h).1 fun hx => hc (hx ▸ List.mem_cons_self)
  | cons x a ih =>
    cases c with
    | nil => exact absurd (List.cons.inj h).1 fun hx => ha (hx ▸ List.mem_cons_self)
    | cons y c =>
      obtain ⟨hxy, hrest⟩ := List.cons.inj h
      obtain ⟨hac, hbd⟩ := ih (fun hx => ha (List.mem_cons_of_mem _ hx))
        (fun hx => hc (List.mem_cons_of_mem _ hx)) hrest
      exact ⟨by rw [hxy, hac], hbd⟩

theorem colon_inj {a b c d : String} (ha : ':' ∉ a.toList) (hc : ':' ∉ c.toList)
    (h : a ++ ":" ++ b = c ++ ":" ++ d) : a = c ∧ b = d := by
  have hlist := congrArg String.toList h
  simp only [String.toList_append, List.append_assoc] at hlist
  obtain ⟨hac, hbd⟩ := append_colon_inj ha hc hlist
  exact ⟨String.toList_inj.1 hac, String.toList_inj.1 hbd⟩

/-! ### What a call adds for one subject -/

theorem claim_of_risk (hrisk : AtRisk r s fact category) : category ∈ categoriesOf r s fact := by
  rw [categoriesOf, categoriesForFact]
  refine Js.mem_distinct.2 ?_
  simp only [List.append_assoc]
  exact List.mem_append_left _ (List.mem_filter.2 ⟨hrisk.risk, decide_eq_true hrisk.enabled⟩)

theorem hasRisk_of_risk (hrisk : AtRisk r s fact category) :
    hasRisk r s fact.subjectRef = true := by
  obtain ⟨a, ha, -⟩ := List.mem_map.1 (Js.mem_distinct.1 hrisk.risk)
  obtain ⟨ha, hsubject⟩ := List.mem_filter.1 ha
  exact List.any_eq_true.2 ⟨a, ha, hsubject⟩

theorem atRisk_congr (h : s'.inputs = s.inputs) : AtRisk r s' fact category ↔ AtRisk r s fact category := by
  constructor
  · rintro ⟨hrisk, henabled, hplannable⟩
    rw [riskCategories_congr h] at hrisk
    rw [inputs_checks h] at henabled
    rw [inputs_edges h] at hplannable
    exact ⟨hrisk, henabled, hplannable⟩
  · rintro ⟨hrisk, henabled, hplannable⟩
    rw [← riskCategories_congr h] at hrisk
    rw [← inputs_checks h] at henabled
    rw [← inputs_edges h] at hplannable
    exact ⟨hrisk, henabled, hplannable⟩

/-- A selected subject gets its hypothesis and its obligations. -/
theorem hasPlan_selected (h : Planned r s s') (hselected : fact ∈ selected r s)
    (hrisk : AtRisk r s fact category) : HasPlan r s' fact category := by
  have hcategory := claim_of_risk hrisk
  refine ⟨(h.hypothesis _ _).2 (Or.inr ⟨fact, hselected, category, hcategory, hrisk.plannable,
    rfl, rfl⟩), fun operation hoperation => ?_⟩
  rw [inputs_edges h.inputs] at hoperation
  exact (h.obligation _).2 (Or.inr (Or.inl ⟨fact, hselected, category, hcategory, operation,
    hoperation, rfl⟩))

/-- Any other subject has what it had. -/
theorem hasPlan_other (h : Planned r s s')
    (hother : ∀ fact' ∈ selected r s, fact'.subjectRef ≠ fact.subjectRef) :
    HasPlan r s' fact category ↔ HasPlan r s fact category := by
  have hhypothesis : ∀ claim, HasHypothesis s' fact.subjectRef claim ↔
      HasHypothesis s fact.subjectRef claim := by
    intro claim
    rw [h.hypothesis]
    refine ⟨fun hcases => ?_, Or.inl⟩
    rcases hcases with hold | ⟨fact', hfact', -, -, -, hsubject, -⟩
    · exact hold
    · exact absurd hsubject (hother fact' hfact')
  have hobligation : ∀ operation ∈ operationsForFact r.texts fact category s.edges,
      (HasObligation s' (dedupeKey operation fact.subjectRef) ↔
        HasObligation s (dedupeKey operation fact.subjectRef)) := by
    intro operation hoperation
    obtain ⟨hcolon, hscope⟩ := plainKind_of_mem hoperation
    rw [h.obligation]
    refine ⟨fun hcases => ?_, Or.inl⟩
    rcases hcases with hold | ⟨fact', hfact', category', -, operation', hoperation', hkey⟩ |
      ⟨category', -, hkey⟩
    · exact hold
    · have hsubject := (colon_inj (plainKind_of_mem hoperation').1 hcolon hkey).2
      exact absurd hsubject (hother fact' hfact')
    · have hkind := (colon_inj (a := "CATEGORY_SCOPE") (by decide) hcolon hkey).1
      exact absurd hkind.symm hscope
  have hedges := inputs_edges h.inputs
  constructor
  · rintro ⟨hclaim, hobligations⟩
    rw [hedges] at hobligations
    exact ⟨(hhypothesis _).1 hclaim, fun operation hoperation =>
      (hobligation operation hoperation).1 (hobligations operation hoperation)⟩
  · rintro ⟨hclaim, hobligations⟩
    refine ⟨(hhypothesis _).2 hclaim, fun operation hoperation => ?_⟩
    rw [hedges] at hoperation
    exact (hobligation operation hoperation).2 (hobligations operation hoperation)

/-! ### The risks a call covers -/

/-- A call that completes the checkpoint has taken every candidate. -/
theorem selected_of_complete (h : Planned r s s') (hcomplete : Complete s') :
    selected r s = candidates r s :=
  List.take_of_length_le ((status_planned h).1 hcomplete)

/-- A subject at risk is a candidate or is passed over. -/
theorem candidate_or_passedOver (hfact : fact ∈ latestBySubject s.facts)
    (hrisk : AtRisk r s fact category) : fact ∈ candidates r s ∨ PassedOver s fact := by
  by_cases hpassed : PassedOver s fact
  · exact Or.inr hpassed
  · refine Or.inl (mem_candidates.2 ⟨hfact, ?_⟩)
    have hopen : processedFactSeq s < fact.factSeq ∨ fact.subjectRef ∉ plannedRiskSubjects s := by
      by_contra hboth
      rw [not_or, not_lt, not_not] at hboth
      exact hpassed ⟨hboth.1, hboth.2⟩
    simp [isCandidate, isPlaybookCandidate, hasRisk_of_risk hrisk, hopen]

theorem not_candidate_of_passedOver (h : PassedOver s fact) : fact ∉ candidates r s := by
  intro hcandidate
  have hopen := (mem_candidates.1 hcandidate).2
  have hold := h.old
  simp only [isCandidate, Bool.and_eq_true, Bool.or_eq_true, decide_eq_true_eq] at hopen
  rcases hopen.1 with hnew | ⟨-, hunplanned⟩
  · omega
  · exact hunplanned h.planned

/-- A call that completes the checkpoint covers the risks exactly when each subject that it passes over
    had the plan for each of its risks before. -/
theorem covered_iff (r : PlanRuntime) (s : PlannerStore)
    (hcomplete : Complete ((plan r).run s).2) :
    Covered r ((plan r).run s).2 ↔
      ∀ fact ∈ latestBySubject s.facts, PassedOver s fact →
        ∀ category, AtRisk r s fact category → HasPlan r s fact category := by
  obtain ⟨result, s', hrun, hplanned⟩ := plan_planned r s
  rw [hrun] at hcomplete ⊢
  have hselected := selected_of_complete hplanned hcomplete
  rw [Covered, inputs_facts hplanned.inputs]
  have hother : ∀ fact ∈ latestBySubject s.facts, PassedOver s fact →
      ∀ fact' ∈ selected r s, fact'.subjectRef ≠ fact.subjectRef := by
    intro fact hfact hpassed fact' hfact' hsubject
    rw [hselected] at hfact'
    have hsame : fact' = fact := List.inj_on_of_nodup_map latestBySubject_keyed
      (mem_candidates.1 hfact').1 hfact hsubject
    exact not_candidate_of_passedOver hpassed (hsame ▸ hfact')
  constructor
  · intro hcovered fact hfact hpassed category hrisk
    have hplan := hcovered fact hfact category ((atRisk_congr hplanned.inputs).2 hrisk)
    exact (hasPlan_other hplanned (hother fact hfact hpassed)).1 hplan
  · intro hbefore fact hfact category hrisk
    rw [atRisk_congr hplanned.inputs] at hrisk
    rcases candidate_or_passedOver hfact hrisk with hcandidate | hpassed
    · exact hasPlan_selected hplanned (hselected ▸ hcandidate) hrisk
    · exact (hasPlan_other hplanned (hother fact hfact hpassed)).2
        (hbefore fact hfact hpassed category hrisk)

/-! ### A second risk -/

/-- A file with a risk of the first category. -/
def firstRisk : PlannerStore :=
  sampleStore [sampleFact 5 .file "OBJ-1"] (by decide) [.webshell, .linuxPersistence]
    [sampleRisk "ASM-1" .webshell "OBJ-1"] 0

/-- It has been planned, and then a risk of another category is recorded about it. -/
def secondRisk : PlannerStore :=
  { ((plan sampleRuntime).run firstRisk).2 with
    assessments := [sampleRisk "ASM-1" .webshell "OBJ-1", sampleRisk "ASM-2" .linuxPersistence "OBJ-1"] }

theorem covered_iff_firstRisk : Covered sampleRuntime ((plan sampleRuntime).run firstRisk).2 := by
  refine (covered_iff sampleRuntime firstRisk (by decide +kernel)).2 fun fact hfact hpassed => ?_
  have hnone : plannedRiskSubjects firstRisk = [] := rfl
  have hplanned := hpassed.planned
  rw [hnone] at hplanned
  cases hplanned

/-- The checkpoint is complete, and the file has no hypothesis for its second risk. -/
theorem second_risk_uncovered : Complete ((plan sampleRuntime).run secondRisk).2 ∧
    ¬ Covered sampleRuntime ((plan sampleRuntime).run secondRisk).2 := by
  let s := ((plan sampleRuntime).run secondRisk).2
  have hrun : Complete s ∧ sampleFact 5 .file "OBJ-1" ∈ latestBySubject s.facts ∧
      .linuxPersistence ∈ riskCategories sampleRuntime s "OBJ-1" ∧ .linuxPersistence ∈ s.checks ∧
      operationsForFact sampleRuntime.texts (sampleFact 5 .file "OBJ-1") .linuxPersistence s.edges ≠ [] ∧
      ¬ HasHypothesis s "OBJ-1" (claimFor .linuxPersistence .file) := by
    unfold HasHypothesis
    decide +kernel
  obtain ⟨hcomplete, hfact, hrisk, henabled, hplannable, hmissing⟩ := hrun
  exact ⟨hcomplete, fun h => hmissing (h _ hfact _ ⟨hrisk, henabled, hplannable⟩).hypothesis⟩

end HuntWarden.Playbooks
