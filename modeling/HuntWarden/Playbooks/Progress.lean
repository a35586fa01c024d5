import HuntWarden.Lib.Scan
import HuntWarden.Playbooks.Planned

/-! Progress of the planner. Its calls scan the latest facts in batches: the checkpoint is the watermark,
    a subject with an effective risk is late, and it settles when a hypothesis is written for it. The scan
    gets stuck on a risk for which nothing can be planned, and it falls back when a risk is about an
    old fact. -/

namespace HuntWarden.Playbooks

variable {r r' : PlanRuntime} {s s' : PlannerStore}

/-! ### The facts in order -/

theorem factSeq_injOn {a b : FactRecord} (ha : a ∈ s.facts) (hb : b ∈ s.facts)
    (h : a.factSeq = b.factSeq) : a = b := by
  by_contra hne
  rcases List.pairwise_iff_getElem.1 s.numbered with hnumbered
  obtain ⟨i, hi, rfl⟩ := List.mem_iff_getElem.1 ha
  obtain ⟨j, hj, rfl⟩ := List.mem_iff_getElem.1 hb
  rcases lt_trichotomy i j with hij | rfl | hij
  · have := hnumbered i j hi hj hij
    omega
  · exact hne rfl
  · have := hnumbered j i hj hi hij
    omega

theorem latest_injOn {a b : FactRecord} (ha : a ∈ latestBySubject s.facts)
    (hb : b ∈ latestBySubject s.facts) (h : a.factSeq = b.factSeq) : a = b :=
  factSeq_injOn (latestBySubject_subset ha) (latestBySubject_subset hb) h

/-- The latest facts in order that a call could select. -/
def scanned (r : PlanRuntime) (s : PlannerStore) : List FactRecord :=
  ((latestBySubject s.facts).filter fun fact =>
    isPlaybookCandidate r.texts fact (hasRisk r s fact.subjectRef) s.edges).insertionSort
      fun a b => a.factSeq ≤ b.factSeq

theorem mem_scanned {fact : FactRecord} : fact ∈ scanned r s ↔ fact ∈ latestBySubject s.facts ∧
    isPlaybookCandidate r.texts fact (hasRisk r s fact.subjectRef) s.edges = true := by
  rw [scanned, (List.perm_insertionSort _ _).mem_iff, List.mem_filter]

/-- Facts in the order of their numbers, each of them once. -/
theorem insertionSort_factSeq {facts : List FactRecord} (hnodup : facts.Nodup)
    (hinj : ∀ a ∈ facts, ∀ b ∈ facts, a.factSeq = b.factSeq → a = b) :
    (facts.insertionSort fun a b => a.factSeq ≤ b.factSeq).Pairwise
      fun a b => a.factSeq < b.factSeq := by
  have hperm := List.perm_insertionSort (fun a b : FactRecord => a.factSeq ≤ b.factSeq) facts
  have hsorted := List.pairwise_insertionSort (fun a b : FactRecord => a.factSeq ≤ b.factSeq) facts
  refine (hsorted.and (hperm.nodup_iff.2 hnodup)).imp_of_mem fun ha hb hab => ?_
  have hne : ¬ _ := fun h => hab.2 (hinj _ (hperm.mem_iff.1 ha) _ (hperm.mem_iff.1 hb) h)
  omega

theorem latest_nodup : (latestBySubject s.facts).Nodup :=
  List.Nodup.of_map _ latestBySubject_keyed

theorem scanned_sorted : (scanned r s).Pairwise fun a b => a.factSeq < b.factSeq := by
  refine insertionSort_factSeq (latest_nodup.filter _) fun a ha b hb => ?_
  exact latest_injOn (List.mem_filter.1 ha).1 (List.mem_filter.1 hb).1

/-- The candidates are those of them above the watermark or late. -/
theorem candidates_eq : candidates r s = (scanned r s).filter fun fact =>
    decide (processedFactSeq s < fact.factSeq) ||
      (hasRisk r s fact.subjectRef && decide (fact.subjectRef ∉ plannedRiskSubjects s)) := by
  have hcandidates : (candidates r s).Pairwise fun a b => a.factSeq < b.factSeq := by
    refine insertionSort_factSeq (latest_nodup.filter _) fun a ha b hb => ?_
    exact latest_injOn (List.mem_filter.1 ha).1 (List.mem_filter.1 hb).1
  refine List.Perm.eq_of_pairwise (fun a b _ _ hab hba => ?_) hcandidates (scanned_sorted.filter _) ?_
  · omega
  · rw [candidates, scanned]
    refine (List.perm_insertionSort _ _).trans ?_
    refine List.Perm.trans ?_ ((List.perm_insertionSort _ _).filter _).symm
    rw [List.filter_filter]
    exact List.Perm.refl _

/-! ### A call as a step of the scan -/

/-- Something is planned for the fact. -/
def Plannable (r : PlanRuntime) (s : PlannerStore) (fact : FactRecord) : Prop :=
  ∃ category ∈ categoriesOf r s fact, operationsForFact r.texts fact category s.edges ≠ []

theorem foldl_max_eq {facts : List FactRecord} {n : ℕ} :
    (facts.map (·.factSeq)).foldl max n = max n ((facts.map (·.factSeq)).foldl max 0) := by
  rw [← @List.foldl_assoc ℕ max, Nat.max_zero]

def source (r : PlanRuntime) (s : PlannerStore) : Source FactRecord where
  seq := FactRecord.factSeq
  items := scanned r s
  late fact := hasRisk r s fact.subjectRef = true
  settles := Plannable r s
  top := maxFactSeq 0 (latestBySubject s.facts)
  size := playbookCandidateBatchSize
  sorted := scanned_sorted
  bounded fact hfact := Js.le_foldl_max.2 _ (List.mem_map_of_mem (mem_scanned.1 hfact).1)
  size_pos := by decide

def scan (r : PlanRuntime) (s : PlannerStore) : Scan FactRecord where
  watermark := processedFactSeq s
  settled := { fact | fact ∈ scanned r s ∧ fact.subjectRef ∈ plannedRiskSubjects s }

theorem due_eq : Scan.due (source r s) (scan r s) = candidates r s := by
  rw [candidates_eq]
  refine Scan.due_eq_filter fun fact hfact => ?_
  have hsettled : fact ∉ (scan r s).settled ↔ fact.subjectRef ∉ plannedRiskSubjects s :=
    not_congr (and_iff_right hfact)
  rw [Scan.Due, hsettled]
  simp [source, scan]

theorem batch_eq : Scan.batch (source r s) (scan r s) = selected r s := by
  rw [Scan.batch, due_eq]
  rfl

theorem mem_plannedRiskSubjects {subjectRef : String} :
    subjectRef ∈ plannedRiskSubjects s ↔ ∃ claim, HasHypothesis s subjectRef claim := by
  simp [plannedRiskSubjects, HasHypothesis, and_assoc]

theorem processedFactSeq_planned (h : Planned r s s') :
    processedFactSeq s' = processedAfterBatch r s := by
  rw [processedFactSeq, checkpoint_planned h]
  rfl

theorem mem_plannedRiskSubjects_planned (h : Planned r s s') {subjectRef : String} :
    subjectRef ∈ plannedRiskSubjects s' ↔ subjectRef ∈ plannedRiskSubjects s ∨
      ∃ fact ∈ selected r s, Plannable r s fact ∧ fact.subjectRef = subjectRef := by
  rw [mem_plannedRiskSubjects, mem_plannedRiskSubjects]
  simp only [h.hypothesis, Plannable]
  constructor
  · rintro ⟨claim, hold | ⟨fact, hfact, category, hcategory, hplanned, hsubject, -⟩⟩
    · exact Or.inl ⟨claim, hold⟩
    · exact Or.inr ⟨fact, hfact, ⟨category, hcategory, hplanned⟩, hsubject⟩
  · rintro (⟨claim, hold⟩ | ⟨fact, hfact, ⟨category, hcategory, hplanned⟩, hsubject⟩)
    · exact ⟨claim, Or.inl hold⟩
    · exact ⟨_, Or.inr ⟨fact, hfact, category, hcategory, hplanned, hsubject, rfl⟩⟩

theorem scanned_congr (h : s'.inputs = s.inputs) : scanned r s' = scanned r s := by
  rw [scanned, scanned, inputs_facts h]
  simp only [hasRisk_congr h, inputs_edges h]

theorem source_congr (h : s'.inputs = s.inputs) : source r s' = source r s := by
  have hrisk : (fun fact : FactRecord => hasRisk r s' fact.subjectRef = true) =
      fun fact => hasRisk r s fact.subjectRef = true := funext fun fact => by rw [hasRisk_congr h]
  have hplannable : Plannable r s' = Plannable r s := funext fun fact => by
    rw [Plannable, Plannable, categoriesOf_congr h, inputs_edges h]
  simp only [source, scanned_congr h, hrisk, hplannable, inputs_facts h]

/-- A call takes the next batch of the scan. -/
theorem scan_planned (h : Planned r s s') :
    scan r s' = Scan.next (source r s) (scan r s) := by
  rw [scan, Scan.next, batch_eq, processedFactSeq_planned h, processedAfterBatch,
    scanned_congr h.inputs]
  congr 1
  · cases (selected r s).getLast? with
    | none => exact foldl_max_eq
    | some fact => rfl
  · ext fact
    simp only [Set.mem_ofPred_eq, mem_plannedRiskSubjects_planned h, scan]
    have hselected : ∀ fact ∈ selected r s, fact ∈ scanned r s := by
      intro fact hfact
      have hcandidate := List.mem_of_mem_take hfact
      rw [candidates_eq] at hcandidate
      exact (List.mem_filter.1 hcandidate).1
    constructor
    · rintro ⟨hfact, hold | ⟨fact', hfact', hplannable, hsubject⟩⟩
      · exact Or.inl ⟨hfact, hold⟩
      · have hsame : fact' = fact := List.inj_on_of_nodup_map latestBySubject_keyed
          (mem_scanned.1 (hselected fact' hfact')).1 (mem_scanned.1 hfact).1 hsubject
        rw [← hsame]
        exact Or.inr ⟨hfact', hplannable⟩
    · rintro (⟨hfact, hold⟩ | ⟨hfact, hplannable⟩)
      · exact ⟨hfact, Or.inl hold⟩
      · exact ⟨hselected fact hfact, Or.inr ⟨fact, hfact, hplannable, rfl⟩⟩

/-! ### Call after call -/

/-- Nothing changes that is planned from, neither the checkpoint nor which subjects the playbook has
    hypotheses about. -/
structure Quiet (s s' : PlannerStore) : Prop where
  inputs : s'.inputs = s.inputs
  checkpoint : checkpoint s' = checkpoint s
  planned : ∀ subjectRef, subjectRef ∈ plannedRiskSubjects s' ↔ subjectRef ∈ plannedRiskSubjects s

/-- Calls one after another with quiet times between them. -/
structure Calls where
  runtime : ℕ → PlanRuntime
  store : ℕ → PlannerStore
  texts : ∀ n, (runtime n).texts = (runtime 0).texts
  projection : ∀ n, (runtime n).projection = (runtime 0).projection
  quiet : ∀ n, Quiet ((plan (runtime n)).run (store n)).2 (store (n + 1))

namespace Calls

variable (calls : Calls)

def called (n : ℕ) : Except Thrown PlaybookPlanResult × PlannerStore :=
  (plan (calls.runtime n)).run (calls.store n)

def candidatesAt (n : ℕ) : List FactRecord := candidates (calls.runtime n) (calls.store n)

/-- Every call returns, and the checkpoint never goes back. Once as many batches as hold the candidates
    have been planned, each call leaves a complete checkpoint and finds no candidate any more; and every
    candidate is in one of these batches. -/
structure Progresses : Prop where
  returned : ∀ n, ∃ result, (calls.called n).1 = .ok result
  monotone : ∀ n, processedFactSeq (calls.store n) ≤ processedFactSeq (calls.called n).2
  complete : ∀ n, (calls.candidatesAt 0).length ≤ (n + 1) * playbookCandidateBatchSize →
    Complete (calls.called n).2
  drained : ∀ n, (calls.candidatesAt 0).length ≤ n * playbookCandidateBatchSize →
    calls.candidatesAt n = []
  taken : ∀ fact ∈ calls.candidatesAt 0, ∃ n,
    n * playbookCandidateBatchSize < (calls.candidatesAt 0).length ∧
      fact ∈ selected (calls.runtime n) (calls.store n)

end Calls

/-- Something is planned for every candidate that has a risk and no hypothesis, and the next batch does not
    end below the watermark: there is no candidate, or fewer of them than a batch holds lie below it and
    another does not. -/
structure Advancing (r : PlanRuntime) (s : PlannerStore) : Prop where
  plannable : ∀ fact ∈ candidates r s, hasRisk r s fact.subjectRef = true →
    fact.subjectRef ∉ plannedRiskSubjects s → Plannable r s fact
  forward : candidates r s = [] ∨
    (((candidates r s).filter (·.factSeq < processedFactSeq s)).length < playbookCandidateBatchSize ∧
      ∃ fact ∈ candidates r s, processedFactSeq s ≤ fact.factSeq)

theorem drainable_iff : Scan.Drainable (source r s) (scan r s) ↔ Advancing r s := by
  have hoverdue : Scan.overdue (source r s) (scan r s) =
      (candidates r s).filter (·.factSeq < processedFactSeq s) := by
    rw [← due_eq]
    exact Scan.overdue_eq_filter fun fact => decide_eq_true_iff.symm
  have hsettled : ∀ fact ∈ candidates r s,
      (fact ∉ (scan r s).settled ↔ fact.subjectRef ∉ plannedRiskSubjects s) := by
    intro fact hfact
    rw [candidates_eq] at hfact
    exact not_congr (and_iff_right (List.mem_filter.1 hfact).1)
  constructor
  · rintro ⟨hsettling, hforward⟩
    rw [due_eq] at hsettling
    rw [due_eq, hoverdue] at hforward
    exact ⟨fun fact hfact hrisk hnew => hsettling fact hfact hrisk ((hsettled fact hfact).2 hnew),
      hforward⟩
  · rintro ⟨hplannable, hforward⟩
    refine ⟨fun fact hfact hrisk hnew => ?_, by rwa [due_eq, hoverdue]⟩
    rw [due_eq] at hfact
    exact hplannable fact hfact hrisk ((hsettled fact hfact).1 hnew)

/-- What a call looks at outside the store are the texts and the projection. -/
theorem source_runtime (htexts : r'.texts = r.texts) (hprojection : r'.projection = r.projection) :
    source r' s = source r s ∧ scan r' s = scan r s := by
  cases r
  cases r'
  dsimp only at htexts hprojection
  subst htexts hprojection
  exact ⟨rfl, rfl⟩

theorem scan_quiet (h : Quiet s s') : scan r s' = scan r s := by
  simp only [scan, processedFactSeq, h.checkpoint, scanned_congr h.inputs, h.planned]

namespace Calls

variable {calls : Calls}

theorem planned_called (n : ℕ) :
    Planned (calls.runtime n) (calls.store n) (calls.called n).2 ∧
      ∃ result, (calls.called n).1 = .ok result := by
  obtain ⟨result, s', hrun, hplanned⟩ := plan_planned (calls.runtime n) (calls.store n)
  rw [called, hrun]
  exact ⟨hplanned, result, rfl⟩

theorem inputs_store (n : ℕ) : (calls.store n).inputs = (calls.store 0).inputs := by
  induction n with
  | zero => rfl
  | succ n ih =>
    have hcalled := (@planned_called calls n).1.inputs
    exact ((calls.quiet n).inputs.trans hcalled).trans ih

/-- What the calls scan. -/
def scannedSource (calls : Calls) : Source FactRecord := source (calls.runtime 0) (calls.store 0)

/-- How far the scan has come before a call. -/
def scanAt (calls : Calls) (n : ℕ) : Scan FactRecord := scan (calls.runtime n) (calls.store n)

theorem source_eq (n : ℕ) : source (calls.runtime n) (calls.store n) = scannedSource calls := by
  rw [(source_runtime (calls.texts n) (calls.projection n)).1, source_congr (inputs_store n),
    scannedSource]

theorem scanAt_succ (n : ℕ) :
    scanAt calls (n + 1) = Scan.next (scannedSource calls) (scanAt calls n) := by
  have htexts := (calls.texts (n + 1)).trans (calls.texts n).symm
  have hprojection := (calls.projection (n + 1)).trans (calls.projection n).symm
  rw [scanAt, (source_runtime htexts hprojection).2, scan_quiet (calls.quiet n),
    ← source_eq n]
  exact scan_planned (planned_called n).1

theorem due_scanAt (n : ℕ) :
    Scan.due (scannedSource calls) (scanAt calls n) = calls.candidatesAt n := by
  rw [← source_eq n]
  exact due_eq

theorem batch_scanAt (n : ℕ) : Scan.batch (scannedSource calls) (scanAt calls n) =
    selected (calls.runtime n) (calls.store n) := by
  rw [← source_eq n]
  exact batch_eq

theorem watermark_called (n : ℕ) :
    processedFactSeq (calls.called n).2 = (scanAt calls (n + 1)).watermark := by
  rw [scanAt, scan, processedFactSeq, processedFactSeq, (calls.quiet n).checkpoint]
  rfl

theorem drains_scanAt : Scan.Drains (scannedSource calls) (scanAt calls) ↔ calls.Progresses := by
  constructor
  · intro h
    refine ⟨fun n => (planned_called n).2, fun n => ?_, fun n hn => ?_, fun n hn => ?_,
      fun fact hfact => ?_⟩
    · rw [watermark_called]
      exact h.monotone n
    · rw [status_planned (planned_called n).1]
      have hcomplete := h.complete n (by rwa [due_scanAt])
      rwa [due_scanAt] at hcomplete
    · have hdrained := h.drained n (by rwa [due_scanAt])
      rwa [due_scanAt] at hdrained
    · obtain ⟨n, hn, hbatch⟩ := h.taken fact (by rwa [due_scanAt])
      rw [due_scanAt] at hn
      rw [batch_scanAt] at hbatch
      exact ⟨n, hn, hbatch⟩
  · intro h
    refine ⟨fun n => ?_, fun n hn => ?_, fun n hn => ?_, fun fact hfact => ?_⟩
    · have hmonotone := h.monotone n
      rwa [watermark_called] at hmonotone
    · rw [due_scanAt] at hn ⊢
      exact (status_planned (planned_called n).1).1 (h.complete n hn)
    · rw [due_scanAt] at hn ⊢
      exact h.drained n hn
    · rw [due_scanAt] at hfact ⊢
      obtain ⟨n, hn, hselected⟩ := h.taken fact hfact
      exact ⟨n, hn, by rwa [batch_scanAt]⟩

/-- Calls with quiet times between them make progress exactly when the first one advances. -/
theorem progresses_iff (calls : Calls) :
    calls.Progresses ↔ Advancing (calls.runtime 0) (calls.store 0) := by
  rw [← drains_scanAt, Scan.drains_iff_drainable scanAt_succ]
  exact drainable_iff

end Calls

/-! ### A late risk -/

/-- Calls with nothing at all between them. -/
def Calls.repeated (r : PlanRuntime) (s : PlannerStore) : Calls where
  runtime _ := r
  store n := n.rec s fun _ s => ((plan r).run s).2
  texts _ := rfl
  projection _ := rfl
  quiet _ := ⟨rfl, rfl, fun _ => Iff.rfl⟩

/-- The planner has come to fact 100; then a risk is recorded about the subject of fact 5. -/
def lateRisk : PlannerStore :=
  sampleStore [sampleFact 5 .account "OBJ-1", sampleFact 100 .account "OBJ-2"] (by decide)
    [.backdoorAccount] [sampleRisk "ASM-1" .backdoorAccount "OBJ-1"] 100

/-- The call puts the checkpoint back from 100 to 5. -/
theorem watermark_falls : processedFactSeq lateRisk = 100 ∧
    processedFactSeq ((plan sampleRuntime).run lateRisk).2 = 5 ∧
    ¬ (Calls.repeated sampleRuntime lateRisk).Progresses := by
  have hbefore : processedFactSeq lateRisk = 100 := by decide
  have hafter : processedFactSeq ((plan sampleRuntime).run lateRisk).2 = 5 := by decide
  refine ⟨hbefore, hafter, fun h => ?_⟩
  have hmonotone := h.monotone 0
  have hcalled : (Calls.repeated sampleRuntime lateRisk).called 0 =
      (plan sampleRuntime).run lateRisk := rfl
  have hstore : (Calls.repeated sampleRuntime lateRisk).store 0 = lateRisk := rfl
  rw [hcalled, hstore, hbefore, hafter] at hmonotone
  omega

end HuntWarden.Playbooks
