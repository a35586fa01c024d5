import HuntWarden.Rules.Evaluation

/-! What `CONFIRMED_MALICIOUS` should cost: complete evidence of the object, and a strong signal or two
    independent ones that were observed on the target. The check counts every cited fact that is not
    `EXTERNAL`, so what the task itself was given counts as well; the rule engine asks for the origin of
    a fact instead. -/

namespace HuntWarden.Confirmation

open Outcome AssessmentValidation Rules

variable (context : Context)

/-! ### Earned confirmations -/

def Strong (fact : FactRecord) : Prop :=
  fact.modelPayload.lookup "signalStrength" = some (.str "STRONG")

instance : DecidablePred Strong := fun _ => inferInstanceAs (Decidable (_ = _))

/-- Observed on the target, and not reported by somebody else. -/
def isHostObservation (fact : FactRecord) : Bool :=
  isTargetObservation fact && fact.source.kind ≠ .external

/-- Two signals that are not one collector's word on one object. -/
def Independent (f g : FactRecord) : Prop :=
  f.collector.name ≠ g.collector.name ∨ f.subjectRef ≠ g.subjectRef

/-- Evidence taken from a virtual machine speaks for a class that the machine was observed to load and
    that it names by name and loader. -/
structure ThroughClassEdge (metadata : Json) (source subject : String) : Prop where
  capture : metadata.get? "captureMethod" = some (.str "JVM_RETRANSFORM")
  edge : ∃ edge ∈ context.edges, edge.relation = "loads_class" ∧
    (edge.fromRef = source ∧ edge.toRef = subject ∨ edge.toRef = source ∧ edge.fromRef = subject) ∧
    ∃ p ∈ context.relationProvenance, p.edgeRef = edge.edgeId ∧ p.derivation = .observed
  names : ∃ fact ∈ context.facts, fact.subjectRef = subject ∧ fact.namespace_ = .class_ ∧
    Js.identical (fact.privatePayload.lookup "className") (metadata.get? "className") = true ∧
    Js.identical (fact.privatePayload.lookup "loaderId") (metadata.get? "classLoaderId") = true

/-- Complete evidence of the epoch, of the object or of the machine that loads it. -/
structure Proves (item : EvidenceRecord) (subject : String) : Prop where
  complete : completeEvidenceMetadata item = true
  supports : ∃ metadata, item.metadata = some metadata ∧
    metadata.get? "epochId" = some (.str context.epochId) ∧
    ∃ source, metadata.get? "subjectRef" = some (.str source) ∧
      (source = subject ∨ ThroughClassEdge context metadata source subject)

structure Earned (a : RecordedAssessment) : Prop where
  evidence : ∃ subject, a.subjectRef = some subject ∧
    ∃ item ∈ context.evidence, item.evidenceId ∈ a.evidenceRefs ∧ Proves context item subject
  signals : (∃ f ∈ context.facts, f.factId ∈ a.factRefs ∧ isHostObservation f ∧ Strong f) ∨
    ∃ f ∈ context.facts, ∃ g ∈ context.facts, f.factId ∈ a.factRefs ∧ g.factId ∈ a.factRefs ∧
      isHostObservation f ∧ isHostObservation g ∧ Independent f g

/-- Some object of the epoch can be proved at all. -/
def Provable : Prop :=
  ∃ ref ∈ context.refs, ref.ref ≠ "" ∧ ∃ item ∈ context.evidence, Proves context item ref.ref

/-- The text by which the check tells signals apart. -/
def signalKey (fact : FactRecord) : String := s!"{fact.collector.name}:{fact.subjectRef}"

/-- A fact the check counts although it was not observed on the target. -/
def miscounted (fact : FactRecord) : Bool :=
  fact.source.kind ≠ .external && !isTargetObservation fact

/-- What is counted by mistake decides nothing: it is not strong, and whatever stands beside it is. -/
def MiscountedIdle : Prop :=
  ∀ f ∈ context.facts, miscounted f → ¬ Strong f ∧
    ∀ g ∈ context.facts, g.source.kind ≠ .external → signalKey g ≠ signalKey f → Strong g

/-! ### What the check counts -/

variable {context}

theorem two_le_distinct {α : Type} [DecidableEq α] {l : List α} :
    2 ≤ (Js.distinct l).length ↔ ∃ x ∈ l, ∃ y ∈ l, x ≠ y := by
  constructor
  · intro h
    have hnodup : (Js.distinct l).Nodup := Js.nodup_addAll List.nodup_nil
    match hl : Js.distinct l, h with
    | x :: y :: rest, _ =>
      rw [hl] at hnodup
      have hmem : ∀ z ∈ x :: y :: rest, z ∈ l := fun z hz => Js.mem_distinct.1 (hl ▸ hz)
      refine ⟨x, hmem x List.mem_cons_self, y, hmem y (by simp), ?_⟩
      rintro rfl
      exact (List.nodup_cons.1 hnodup).1 List.mem_cons_self
  · rintro ⟨x, hx, y, hy, hne⟩
    have hx' : x ∈ Js.distinct l := Js.mem_distinct.2 hx
    have hy' : y ∈ Js.distinct l := Js.mem_distinct.2 hy
    match hl : Js.distinct l with
    | [] => rw [hl] at hx'; cases hx'
    | [z] =>
      rw [hl, List.mem_singleton] at hx' hy'
      exact absurd (hx'.trans hy'.symm) hne
    | _ :: _ :: rest => simp

theorem mem_hostFacts {a : RecordedAssessment} {f : FactRecord} :
    f ∈ hostFacts context a ↔ f ∈ context.facts ∧ f.factId ∈ a.factRefs ∧ f.source.kind ≠ .external := by
  rw [hostFacts, List.mem_filter, Bool.and_eq_true, decide_eq_true_iff, decide_eq_true_iff]

theorem independentSignals_iff {a : RecordedAssessment} :
    independentSignals context a = true ↔ (∃ f ∈ hostFacts context a, Strong f) ∨
      ∃ f ∈ hostFacts context a, ∃ g ∈ hostFacts context a, signalKey f ≠ signalKey g := by
  rw [independentSignals, Bool.or_eq_true, List.any_eq_true, decide_eq_true_iff, two_le_distinct]
  refine or_congr ?_ ?_
  · exact exists_congr fun f => and_congr_right fun _ => decide_eq_true_iff
  · constructor
    · rintro ⟨x, hx, y, hy, hne⟩
      obtain ⟨f, hf, rfl⟩ := List.mem_map.1 hx
      obtain ⟨g, hg, rfl⟩ := List.mem_map.1 hy
      exact ⟨f, hf, g, hg, hne⟩
    · rintro ⟨f, hf, g, hg, hne⟩
      exact ⟨_, List.mem_map_of_mem hf, _, List.mem_map_of_mem hg, hne⟩

theorem requireAll_ok {known : String → Bool} {kind : String} : ∀ {refs : List String},
    requireAll known kind refs = .ok () ↔ ∀ ref ∈ refs, known ref = true
  | [] => ⟨fun _ _ h => (nomatch h), fun _ => rfl⟩
  | ref :: refs => by
      rw [requireAll, bind_ok, List.forall_mem_cons]
      simp only [require_ok, requireAll_ok, exists_const]

theorem observedEdges_any {source subject : String} :
    (observedEdges context source subject).any (fun edge => edge.relation = "loads_class") = true ↔
      ∃ edge ∈ context.edges, edge.relation = "loads_class" ∧
        (edge.fromRef = source ∧ edge.toRef = subject ∨
          edge.toRef = source ∧ edge.fromRef = subject) ∧
        ∃ p ∈ context.relationProvenance, p.edgeRef = edge.edgeId ∧ p.derivation = .observed := by
  simp only [observedEdges, List.any_eq_true, List.mem_filter, Bool.and_eq_true, Bool.or_eq_true,
    decide_eq_true_iff]
  constructor
  · rintro ⟨edge, ⟨hedge, hends, hp⟩, hrelation⟩
    exact ⟨edge, hedge, hrelation, hends, hp⟩
  · rintro ⟨edge, hedge, hrelation, hends, hp⟩
    exact ⟨edge, ⟨hedge, hends, hp⟩, hrelation⟩

theorem namesClass_iff {metadata : Json} {subject : String} :
    namesClass context metadata subject = true ↔
      ∃ fact ∈ context.facts, fact.subjectRef = subject ∧ fact.namespace_ = .class_ ∧
        Js.identical (fact.privatePayload.lookup "className") (metadata.get? "className") = true ∧
        Js.identical (fact.privatePayload.lookup "loaderId") (metadata.get? "classLoaderId") = true := by
  simp only [namesClass, List.any_eq_true, Bool.and_eq_true, decide_eq_true_iff, and_assoc]

theorem evidenceSupportsSubject_iff {metadata : Json} {subject : String} (hsubject : subject ≠ "") :
    evidenceSupportsSubject context metadata (some subject) = true ↔
      ∃ source, metadata.get? "subjectRef" = some (.str source) ∧
        (source = subject ∨ ThroughClassEdge context metadata source subject) := by
  have htruthy : Js.truthyText (some subject) = some subject := by simp [Js.truthyText, hsubject]
  rw [evidenceSupportsSubject, htruthy]
  cases hget : metadata.get? "subjectRef" with
  | none => simp
  | some value =>
    cases value with
    | str source =>
      simp only [Option.bind_some, Json.asString?, Bool.or_eq_true, decide_eq_true_iff,
        Bool.and_eq_true, observedEdges_any, namesClass_iff, Option.some.injEq, Json.str.injEq,
        exists_eq_left']
      refine or_congr_right ⟨?_, ?_⟩
      · rintro ⟨⟨hcapture, hedge⟩, hnames⟩
        exact ⟨hcapture, hedge, hnames⟩
      · rintro ⟨hcapture, hedge, hnames⟩
        exact ⟨⟨hcapture, hedge⟩, hnames⟩
    | _ => simp [Json.asString?]

theorem completeEvidence_iff {a : RecordedAssessment} {subject : String}
    (ha : a.subjectRef = some subject) (hsubject : subject ≠ "") :
    completeEvidence context a = true ↔
      ∃ item ∈ context.evidence, item.evidenceId ∈ a.evidenceRefs ∧ Proves context item subject := by
  simp only [completeEvidence, List.any_eq_true, Bool.and_eq_true, decide_eq_true_iff, ha,
    Option.any_eq_true]
  constructor
  · rintro ⟨id, hid, item, hitem, ⟨rfl, hcomplete⟩, metadata, hmetadata, hepoch, hsupports⟩
    exact ⟨item, hitem, hid, hcomplete, metadata, hmetadata, hepoch,
      (evidenceSupportsSubject_iff hsubject).1 hsupports⟩
  · rintro ⟨item, hitem, hid, hcomplete, metadata, hmetadata, hepoch, hsupports⟩
    exact ⟨_, hid, item, hitem, ⟨rfl, hcomplete⟩, metadata, hmetadata, hepoch,
      (evidenceSupportsSubject_iff hsubject).2 hsupports⟩

/-! ### Accepted confirmations -/

/-- What the acceptance of a confirmation says. -/
theorem accepted_cases {a : RecordedAssessment} (hverdict : a.verdict = .confirmedMalicious)
    (h : validateAssessment context a = .ok ()) :
    ∃ subject, a.subjectRef = some subject ∧ subject ≠ "" ∧ knownSubject context subject = true ∧
      completeEvidence context a = true ∧ independentSignals context a = true := by
  obtain ⟨_, -, h⟩ := bind_ok.1 h
  obtain ⟨_, -, h⟩ := bind_ok.1 h
  obtain ⟨_, -, h⟩ := bind_ok.1 h
  obtain ⟨_, -, h⟩ := bind_ok.1 h
  obtain ⟨_, -, h⟩ := bind_ok.1 h
  obtain ⟨_, hsubject, h⟩ := bind_ok.1 h
  obtain ⟨_, -, h⟩ := bind_ok.1 h
  obtain ⟨_, hknown, h⟩ := bind_ok.1 h
  obtain ⟨_, -, h⟩ := bind_ok.1 h
  obtain ⟨_, -, h⟩ := bind_ok.1 h
  obtain ⟨_, -, h⟩ := bind_ok.1 h
  rw [validateConfirmed, if_pos hverdict] at h
  obtain ⟨_, hevidence, hsignals⟩ := bind_ok.1 h
  rw [require_ok] at hsubject hknown hevidence hsignals
  rw [hverdict] at hsubject
  obtain ⟨subject, htruthy⟩ := Option.isSome_iff_exists.1 hsubject
  obtain ⟨hsome, hne⟩ := Option.filter_eq_some_iff.1 htruthy
  rw [htruthy] at hknown
  exact ⟨subject, hsome, of_decide_eq_true hne, hknown, hevidence, hsignals⟩

/-- A confirmation that rests on one piece of evidence and on the given facts. -/
def confirmationOf (context : Context) (subject evidenceId : String) (factRefs : List String) :
    RecordedAssessment where
  assessmentId := "ASM-1"
  taskId := context.taskId
  epochId := context.epochId
  authorType := .model
  category := .webshell
  subjectRef := some subject
  scope := .subject
  verdict := .confirmedMalicious
  createdAt := "1"
  severity := .critical
  confidence := 1
  rationale := "webshell"
  evidenceRefs := [evidenceId]
  factRefs
  queryRefs := []

theorem confirmationOf_accepted {subject evidenceId : String} {factRefs : List String}
    (hsubject : subject ≠ "") (hknown : knownSubject context subject = true)
    (hfacts : ∀ factId ∈ factRefs, knownFact context factId = true)
    (hevidence : knownEvidence context evidenceId = true)
    (hcomplete : completeEvidence context (confirmationOf context subject evidenceId factRefs) = true)
    (hsignals :
      independentSignals context (confirmationOf context subject evidenceId factRefs) = true) :
    validateAssessment context (confirmationOf context subject evidenceId factRefs) = .ok () := by
  have htruthy : Js.truthyText (some subject) = some subject := by simp [Js.truthyText, hsubject]
  have hrationale : isRationale "webshell" = true := by decide
  refine bind_ok.2 ⟨(), require_ok.2 ?_, bind_ok.2 ⟨(), require_ok.2 ?_, bind_ok.2 ⟨(),
    require_ok.2 hrationale, bind_ok.2 ⟨(), require_ok.2 ?_, bind_ok.2 ⟨(), require_ok.2 ?_,
    bind_ok.2 ⟨(), require_ok.2 ?_, bind_ok.2 ⟨(), require_ok.2 ?_, bind_ok.2 ⟨(),
    require_ok.2 ?_, bind_ok.2 ⟨(), requireAll_ok.2 hfacts, bind_ok.2 ⟨(),
    requireAll_ok.2 ?_, bind_ok.2 ⟨(), requireAll_ok.2 ?_, ?_⟩⟩⟩⟩⟩⟩⟩⟩⟩⟩⟩
  · simp [confirmationOf]
  · simp [confirmationOf]
  · simp [confirmationOf, htruthy]
  · simp [confirmationOf]
  · simp [confirmationOf, htruthy]
  · simp [confirmationOf]
  · simp [confirmationOf, htruthy, hknown]
  · simp [confirmationOf, hevidence]
  · exact fun _ h => (nomatch h)
  · have hverdict :
        (confirmationOf context subject evidenceId factRefs).verdict = .confirmedMalicious := rfl
    rw [validateConfirmed, if_pos hverdict]
    exact bind_ok.2 ⟨(), require_ok.2 hcomplete, require_ok.2 hsignals⟩

/-! ### Every confirmation of a store -/

/-- What the store lists for a task and an epoch is of the task and the epoch, each fact once. -/
structure Listed (context : Context) : Prop where
  facts : ∀ f ∈ context.facts, f.taskId = context.taskId ∧ f.epochId = context.epochId
  facts_once : ∀ f ∈ context.facts, ∀ g ∈ context.facts, f.factId = g.factId → f = g
  refs : ∀ ref ∈ context.refs, ref.taskId = context.taskId ∧ ref.epochId = context.epochId
  evidence : ∀ item ∈ context.evidence, item.taskId = context.taskId

theorem knownFact_of_mem (hlisted : Listed context) {f : FactRecord} (hf : f ∈ context.facts) :
    knownFact context f.factId = true := by
  obtain ⟨htask, hepoch⟩ := hlisted.facts f hf
  rw [knownFact, List.any_eq_true]
  exact ⟨f, hf, by simp [htask, hepoch]⟩

theorem isHostObservation_iff {f : FactRecord} :
    isHostObservation f = true ↔ f.source.kind ≠ .external ∧ miscounted f = false := by
  rw [isHostObservation, miscounted]
  cases isTargetObservation f <;> simp

/-- What is not idle can be cited for a confirmation. -/
theorem exists_unearned (cited : List String) (hlisted : Listed context)
    (hprovable : Provable context) {f : FactRecord} (hf : f ∈ context.facts)
    (hmiscounted : miscounted f = true)
    (hcited : ∀ factId ∈ cited, ∃ g ∈ context.facts, g.factId = factId)
    (hself : f.factId ∈ cited)
    (hsignals : Strong f ∨ ∃ g ∈ context.facts, g.factId ∈ cited ∧ g.source.kind ≠ .external ∧
      signalKey g ≠ signalKey f)
    (hothers : ∀ g ∈ context.facts, g.factId ∈ cited → isHostObservation g = true → ¬ Strong g ∧
      ∀ g' ∈ context.facts, g'.factId ∈ cited → isHostObservation g' = true → g = g') :
    ∃ a, a.verdict = .confirmedMalicious ∧ validateAssessment context a = .ok () ∧
      ¬ Earned context a := by
  obtain ⟨ref, href, hne, item, hitem, hproves⟩ := hprovable
  have hkind : f.source.kind ≠ .external :=
    of_decide_eq_true (Bool.and_eq_true_iff.1 hmiscounted).1
  refine ⟨confirmationOf context ref.ref item.evidenceId cited, rfl,
    confirmationOf_accepted hne ?_ ?_ ?_ ?_ ?_, ?_⟩
  · obtain ⟨htask, hepoch⟩ := hlisted.refs ref href
    rw [knownSubject, List.any_eq_true]
    exact ⟨ref, href, by simp [htask, hepoch]⟩
  · intro factId hfactId
    obtain ⟨g, hg, rfl⟩ := hcited factId hfactId
    exact knownFact_of_mem hlisted hg
  · rw [knownEvidence, List.any_eq_true]
    exact ⟨item, hitem, by simp [hlisted.evidence item hitem]⟩
  · exact (completeEvidence_iff rfl hne).2 ⟨item, hitem, List.mem_singleton_self _, hproves⟩
  · have hhost : f ∈ hostFacts context (confirmationOf context ref.ref item.evidenceId cited) :=
      mem_hostFacts.2 ⟨hf, hself, hkind⟩
    rw [independentSignals_iff]
    rcases hsignals with hstrong | ⟨g, hg, hgcited, hgkind, hkey⟩
    · exact Or.inl ⟨f, hhost, hstrong⟩
    · exact Or.inr ⟨g, mem_hostFacts.2 ⟨hg, hgcited, hgkind⟩, f, hhost, hkey⟩
  · rintro ⟨-, ⟨g, hg, hgcited, hghost, hstrong⟩ | ⟨g, hg, g', hg', hgcited, hgcited', hghost,
      hghost', hindependent⟩⟩
    · exact (hothers g hg hgcited hghost).1 hstrong
    · obtain rfl := (hothers g hg hgcited hghost).2 g' hg' hgcited' hghost'
      rcases hindependent with h | h <;> exact h rfl

/-- Every accepted confirmation is earned exactly when no object can be proved, or what is counted
    without having been observed on the target decides nothing. -/
theorem earned_iff_idle (hlisted : Listed context) :
    (∀ a, a.verdict = .confirmedMalicious → validateAssessment context a = .ok () →
        Earned context a) ↔
      (Provable context → MiscountedIdle context) := by
  constructor
  · intro h hprovable f hf hmiscounted
    have hfhost : isHostObservation f = false := by
      rw [Bool.eq_false_iff, Ne, isHostObservation_iff, hmiscounted]
      exact fun h => Bool.noConfusion h.2
    constructor
    · intro hstrong
      obtain ⟨a, hverdict, haccepted, hunearned⟩ :=
        exists_unearned [f.factId] hlisted hprovable hf hmiscounted
          (fun factId hid => ⟨f, hf, (List.mem_singleton.1 hid).symm⟩) (List.mem_singleton_self _)
          (Or.inl hstrong) fun g hg hgcited hghost => by
            obtain rfl := hlisted.facts_once g hg f hf (List.mem_singleton.1 hgcited)
            rw [hfhost] at hghost
            cases hghost
      exact hunearned (h a hverdict haccepted)
    · intro g hg hgkind hkey
      by_contra hgstrong
      have hcited : ∀ g' ∈ context.facts, g'.factId ∈ [f.factId, g.factId] →
          isHostObservation g' = true → g' = g := by
        intro g' hg' hgcited' hghost'
        rcases List.mem_cons.1 hgcited' with hid | hid
        · obtain rfl := hlisted.facts_once g' hg' f hf hid
          rw [hfhost] at hghost'
          cases hghost'
        · exact hlisted.facts_once g' hg' g hg (List.mem_singleton.1 hid)
      obtain ⟨a, hverdict, haccepted, hunearned⟩ :=
        exists_unearned [f.factId, g.factId] hlisted hprovable hf hmiscounted
          (by simp only [List.mem_cons, List.not_mem_nil, or_false, forall_eq_or_imp, forall_eq]
              exact ⟨⟨f, hf, rfl⟩, g, hg, rfl⟩)
          List.mem_cons_self (Or.inr ⟨g, hg, by simp, hgkind, hkey⟩)
          fun g' hg' hgcited' hghost' => by
            obtain rfl := hcited g' hg' hgcited' hghost'
            exact ⟨hgstrong, fun g'' hg'' hgcited'' hghost'' =>
              (hcited g'' hg'' hgcited'' hghost'').symm⟩
      exact hunearned (h a hverdict haccepted)
  · intro h a hverdict haccepted
    obtain ⟨subject, hsubject, hne, hknown, hevidence, hsignals⟩ := accepted_cases hverdict haccepted
    have hproved := (completeEvidence_iff hsubject hne).1 hevidence
    have hprovable : Provable context := by
      obtain ⟨item, hitem, -, hproves⟩ := hproved
      obtain ⟨ref, href, hboth⟩ := List.any_eq_true.1 hknown
      simp only [Bool.and_eq_true, decide_eq_true_iff] at hboth
      exact ⟨ref, href, hboth.1.1 ▸ hne, item, hitem, hboth.1.1 ▸ hproves⟩
    have hidle := h hprovable
    refine ⟨⟨subject, hsubject, hproved⟩, ?_⟩
    have hhost : ∀ f ∈ hostFacts context a, miscounted f = true ∨ isHostObservation f = true := by
      intro f hf
      obtain ⟨-, -, hkind⟩ := mem_hostFacts.1 hf
      cases hm : miscounted f with
      | true => exact Or.inl rfl
      | false => exact Or.inr (isHostObservation_iff.2 ⟨hkind, hm⟩)
    -- a strong signal is never one of the miscounted facts
    have hstrong : ∀ f ∈ hostFacts context a, Strong f →
        ∃ f ∈ context.facts, f.factId ∈ a.factRefs ∧ isHostObservation f ∧ Strong f := by
      intro f hf hfstrong
      obtain ⟨hmem, hcited, -⟩ := mem_hostFacts.1 hf
      rcases hhost f hf with hm | hobserved
      · exact absurd hfstrong (hidle f hmem hm).1
      · exact ⟨f, hmem, hcited, hobserved, hfstrong⟩
    rcases independentSignals_iff.1 hsignals with ⟨f, hf, hfstrong⟩ | ⟨f, hf, g, hg, hkey⟩
    · exact Or.inl (hstrong f hf hfstrong)
    · obtain ⟨hfmem, hfcited, hfkind⟩ := mem_hostFacts.1 hf
      obtain ⟨hgmem, hgcited, hgkind⟩ := mem_hostFacts.1 hg
      rcases hhost f hf with hm | hfobserved
      · exact Or.inl (hstrong g hg ((hidle f hfmem hm).2 g hgmem hgkind hkey.symm))
      · rcases hhost g hg with hm | hgobserved
        · exact Or.inl (hstrong f hf ((hidle g hgmem hm).2 f hfmem hfkind hkey))
        · refine Or.inr ⟨f, hfmem, g, hgmem, hfcited, hgcited, hfobserved, hgobserved, ?_⟩
          by_contra hdependent
          obtain ⟨hname, hsubj⟩ := not_or.1 hdependent
          exact hkey (by rw [signalKey, signalKey, not_not.1 hname, not_not.1 hsubj])

theorem listed_validationContext (s : RuleStore) (taskId epochId : String) :
    Listed (s.validationContext taskId epochId) := by
  have hfact : ∀ f ∈ (s.validationContext taskId epochId).facts,
      f ∈ s.batch.factStore.facts.rows ∧ f.taskId = taskId ∧ f.epochId = epochId := by
    intro f hf
    have hf' := List.mem_filter.1 ((List.mem_insertionSort _).1 hf)
    have hadmits := hf'.2
    simp only [FactStore.ListFactsOptions.admits, Bool.and_eq_true, decide_eq_true_iff] at hadmits
    exact ⟨hf'.1, by tauto, by tauto⟩
  exact {
    facts := fun f hf => (hfact f hf).2
    facts_once := fun f hf g hg hid =>
      s.batch.factStore.facts.eq_of_alt (hfact f hf).1 (hfact g hg).1 hid
    refs := fun ref href => by
      obtain ⟨htask, hepoch⟩ := Bool.and_eq_true_iff.1 (List.mem_filter.1 href).2
      exact ⟨of_decide_eq_true htask, of_decide_eq_true hepoch⟩
    evidence := fun item hitem => of_decide_eq_true (List.mem_filter.1 hitem).2 }

/-- In every state of the store. -/
theorem confirmations_earned_iff (s : RuleStore) (taskId epochId : String) :
    (∀ a, a.verdict = .confirmedMalicious →
        validateAssessment (s.validationContext taskId epochId) a = .ok () →
        Earned (s.validationContext taskId epochId) a) ↔
      (Provable (s.validationContext taskId epochId) →
        MiscountedIdle (s.validationContext taskId epochId)) :=
  earned_iff_idle (listed_validationContext s taskId epochId)

/-- What a task was told to look for, as the controller records it. -/
def iocBatch (values : List String) : BatchInput :=
  { BatchSystem.cronBatch "1" "" with
    sourceRunId := "SYSTEM-IOC-TASK-1"
    source := { kind := .system, evidenceOrigin := some "CONTROL_PLANE_INPUT" }
    requestId := "SYSTEM-IOC-TASK-1"
    collector := ⟨"task_ioc_materializer", "2.0.0"⟩
    observations := values.map fun value => {
      namespace_ := .taskIoc
      identity := [("kind", .str "ip"), ("valueDigest", .str value)]
      fields := [("kind", .str "ip"), ("valueDigest", .str value), ("value", .str value)]
      unavailableFields := []
      observedAt := "1"
      consistency := .pointInTime }
    edges := [] }

/-- A cron job is observed, and its file is collected. -/
def jobBatch : BatchInput :=
  { BatchSystem.cronBatch "2" "sh" with
    source := { kind := .model, evidenceOrigin := some "TARGET_OBSERVATION" } }

def jobEvidence (subjectRef : String) : EvidenceRecord where
  evidenceId := "EVD-1"
  taskId := "TASK-1"
  metadata := some (.obj [("epochId", .str "EPOCH-1"), ("subjectRef", .str subjectRef),
    ("complete", .bool true), ("artifactSize", .num 4),
    ("range", .obj [("start", .num 0), ("length", .num 4), ("complete", .bool true)]),
    ("artifactDigest", .str "0000000000000000000000000000000000000000000000000000000000000000")])

def iocStore : RuleStore :=
  runOps (deterministicRulesV2 ⟨Js.plainCoercions, fun text => text⟩) strokeIds
    BatchSystem.sampleBatchEnv
    [.createTask ⟨"TASK-1", [.webshell], none⟩,
      .createScanEpoch ⟨"EPOCH-1", "TASK-1", "SHA256:host", .running⟩,
      .commitFactBatch (iocBatch ["192.0.2.1", "192.0.2.2"]) fun _ => none,
      .commitFactBatch jobBatch fun _ => none,
      .putEvidence (jobEvidence "11111")]

/-- The cron job is confirmed on the two addresses the task was given. -/
def iocConfirmation : RecordedAssessment :=
  confirmationOf (iocStore.validationContext "TASK-1" "EPOCH-1") "11111" "EVD-1" ["11", "1111"]

theorem confirmation_unearned : iocConfirmation.verdict = .confirmedMalicious ∧
    validateAssessment (iocStore.validationContext "TASK-1" "EPOCH-1") iocConfirmation = .ok () ∧
    ¬ Earned (iocStore.validationContext "TASK-1" "EPOCH-1") iocConfirmation := by
  have hcited : ∀ f ∈ (iocStore.validationContext "TASK-1" "EPOCH-1").facts,
      f.factId ∈ iocConfirmation.factRefs → isHostObservation f = false := by decide +kernel
  refine ⟨rfl, by decide +kernel, ?_⟩
  rintro ⟨-, ⟨f, hf, hfcited, hobserved, -⟩ | ⟨f, hf, g, hg, hfcited, -, hobserved, -⟩⟩
  · rw [hcited f hf hfcited] at hobserved
    cases hobserved
  · rw [hcited f hf hfcited] at hobserved
    cases hobserved

end HuntWarden.Confirmation
