import HuntWarden.Storage.BatchRuns

/-! The versions of one object. The one that is open is always the last that was inserted, and has the
    content of the last fact; but a version is closed at the time of the next observation, whenever that
    was, and the latest version is found by its beginning. Both go wrong when an object is observed
    earlier than the version that is open. -/

namespace HuntWarden

open Outcome Normalizer

namespace BatchStore

variable (digestObject : Json → String)

/-- No fact closes a version that begins after the fact was observed. -/
def InOrder : List EntityVersion → List FactRecord → Prop
  | _, [] => True
  | versions, fact :: rest =>
    (∀ version ∈ versions, openFor fact version = true → version.contentDigest ≠ fact.payloadDigest →
      version.validFrom ≤ fact.observedAt) ∧
    InOrder (versioned digestObject versions fact) rest

def ofSubject (taskId epochId entityRef : String) (fact : FactRecord) : Bool :=
  fact.taskId = taskId && fact.epochId = epochId && fact.subjectRef = entityRef

/-- The versions of one object: earlier ones, all of them closed, and an open one with the content of the
    last fact. -/
structure Timeline (facts : List FactRecord) (versions : List EntityVersion)
    (taskId epochId entityRef : String) : Prop where
  start : facts.filter (ofSubject taskId epochId entityRef) = [] →
    versions.filter (ofEntity taskId epochId entityRef) = []
  current : ∀ fact, (facts.filter (ofSubject taskId epochId entityRef)).getLast? = some fact →
    ∃ earlier version, versions.filter (ofEntity taskId epochId entityRef) = earlier ++ [version] ∧
      version.validTo = none ∧ version.contentDigest = fact.payloadDigest ∧
      ∀ old ∈ earlier, old.validTo.isSome

/-- The versions of one object follow each other. -/
structure Ordered (versions : List EntityVersion) (taskId epochId entityRef : String) : Prop where
  ended : ∀ version ∈ versions.filter (ofEntity taskId epochId entityRef), ∀ validTo,
    version.validTo = some validTo → version.validFrom ≤ validTo
  latest : ∀ version ∈ versions.filter (ofEntity taskId epochId entityRef), version.validTo = none →
    ∀ old ∈ versions.filter (ofEntity taskId epochId entityRef), old.validFrom ≤ version.validFrom

variable {digestObject} {facts : List FactRecord} {versions : List EntityVersion} {fact : FactRecord}
  {taskId epochId entityRef : String}

/-! ### One fact -/

theorem ofEntity_closed (version : EntityVersion) :
    ofEntity taskId epochId entityRef (closed fact version) = ofEntity taskId epochId entityRef version := by
  rw [closed]
  split <;> rfl

theorem filter_map_closed :
    (versions.map (closed fact)).filter (ofEntity taskId epochId entityRef) =
      (versions.filter (ofEntity taskId epochId entityRef)).map (closed fact) := by
  rw [List.filter_map]
  refine congrArg (List.map (closed fact)) (List.filter_congr fun version _ => ?_)
  exact ofEntity_closed version

theorem closed_of_isSome {version : EntityVersion} (h : version.validTo.isSome) :
    closed fact version = version := by
  rw [closed, if_neg]
  rw [openFor, Bool.and_eq_true]
  rintro ⟨-, hopen⟩
  rw [Option.isNone_iff_eq_none.1 hopen] at h
  cases h

/-- The versions of another object are left alone. -/
theorem filter_versioned_other (hother : ofSubject taskId epochId entityRef fact = false) :
    (versioned digestObject versions fact).filter (ofEntity taskId epochId entityRef) =
      versions.filter (ofEntity taskId epochId entityRef) := by
  have hclosed : ∀ version ∈ versions.filter (ofEntity taskId epochId entityRef),
      closed fact version = version := by
    intro version hversion
    rw [closed, if_neg]
    intro hopen
    have hof := (List.mem_filter.1 hversion).2
    simp only [openFor, ofEntity, Bool.and_eq_true, decide_eq_true_eq] at hopen hof
    simp_all [ofSubject]
  have hnew : ofEntity taskId epochId entityRef (entityVersion digestObject fact) = false := hother
  rw [versioned]
  split
  · rfl
  · rw [List.filter_append, filter_map_closed, List.map_congr_left hclosed, List.map_id',
      List.filter_cons_of_neg (by rw [hnew]; exact Bool.false_ne_true), List.filter_nil, List.append_nil]

theorem openFor_iff {version : EntityVersion} : openFor fact version = true ↔
    ofEntity fact.taskId fact.epochId fact.subjectRef version = true ∧ version.validTo = none := by
  rw [openFor, Bool.and_eq_true, Option.isNone_iff_eq_none]

/-- A fact about the object itself. -/
theorem ofSubject_iff : ofSubject taskId epochId entityRef fact = true ↔
    fact.taskId = taskId ∧ fact.epochId = epochId ∧ fact.subjectRef = entityRef := by
  simp [ofSubject, and_assoc]

theorem Timeline.next (h : Timeline facts versions taskId epochId entityRef) (fact : FactRecord) :
    Timeline (facts ++ [fact]) (versioned digestObject versions fact) taskId epochId entityRef := by
  by_cases hown : ofSubject taskId epochId entityRef fact = true
  · obtain ⟨rfl, rfl, rfl⟩ := ofSubject_iff.1 hown
    have hfilter : (facts ++ [fact]).filter (ofSubject fact.taskId fact.epochId fact.subjectRef) =
        facts.filter (ofSubject fact.taskId fact.epochId fact.subjectRef) ++ [fact] := by
      rw [List.filter_append, List.filter_cons_of_pos hown, List.filter_nil]
    refine ⟨fun hnil => ?_, fun last hlast => ?_⟩
    · rw [hfilter] at hnil
      simp at hnil
    · rw [hfilter, List.getLast?_concat, Option.some.injEq] at hlast
      subst hlast
      rw [versioned]
      split
      · rename_i hany
        obtain ⟨version, hmem, hsame⟩ := List.any_eq_true.1 hany
        obtain ⟨hopen, hcontent⟩ := Bool.and_eq_true_iff.1 hsame
        obtain ⟨hof, hnone⟩ := openFor_iff.1 hopen
        have hversion := List.mem_filter.2 ⟨hmem, hof⟩
        cases hfacts : (facts.filter (ofSubject fact.taskId fact.epochId fact.subjectRef)).getLast? with
        | none =>
          rw [h.start (List.getLast?_eq_none_iff.1 hfacts)] at hversion
          cases hversion
        | some previous =>
          obtain ⟨earlier, current, heq, hopen', -, hclosed⟩ := h.current previous hfacts
          refine ⟨earlier, current, heq, hopen', ?_, hclosed⟩
          rw [heq] at hversion
          rcases List.mem_append.1 hversion with hearlier | hlast
          · have := hclosed version hearlier
            rw [hnone] at this
            cases this
          · rw [← List.mem_singleton.1 hlast]
            exact of_decide_eq_true hcontent
      · refine ⟨(versions.filter (ofEntity fact.taskId fact.epochId fact.subjectRef)).map (closed fact),
          entityVersion digestObject fact, ?_, rfl, rfl, ?_⟩
        · have hnew : ofEntity fact.taskId fact.epochId fact.subjectRef
              (entityVersion digestObject fact) = true := hown
          rw [List.filter_append, filter_map_closed, List.filter_cons_of_pos hnew, List.filter_nil]
        · intro old hold
          obtain ⟨version, hversion, rfl⟩ := List.mem_map.1 hold
          cases hvalid : version.validTo with
          | none =>
            rw [closed, if_pos (openFor_iff.2 ⟨(List.mem_filter.1 hversion).2, hvalid⟩)]
            rfl
          | some validTo =>
            have hsome : version.validTo.isSome := by rw [hvalid]; rfl
            rw [closed_of_isSome hsome]
            exact hsome
  · have hother : ofSubject taskId epochId entityRef fact = false := Bool.eq_false_iff.2 hown
    have hfilter : (facts ++ [fact]).filter (ofSubject taskId epochId entityRef) =
        facts.filter (ofSubject taskId epochId entityRef) := by
      rw [List.filter_append, List.filter_cons_of_neg hown, List.filter_nil, List.append_nil]
    constructor
    · rw [hfilter, filter_versioned_other hother]
      exact h.start
    · rw [hfilter, filter_versioned_other hother]
      exact h.current

/-- The open version of an object with versions. -/
theorem Timeline.exists_open (h : Timeline facts versions taskId epochId entityRef)
    {version : EntityVersion} (hversion : version ∈ versions.filter (ofEntity taskId epochId entityRef)) :
    ∃ current ∈ versions.filter (ofEntity taskId epochId entityRef), current.validTo = none := by
  cases hfacts : (facts.filter (ofSubject taskId epochId entityRef)).getLast? with
  | none =>
    rw [h.start (List.getLast?_eq_none_iff.1 hfacts)] at hversion
    cases hversion
  | some previous =>
    obtain ⟨earlier, current, heq, hopen, -⟩ := h.current previous hfacts
    exact ⟨current, heq ▸ List.mem_append_right _ List.mem_cons_self, hopen⟩

theorem Ordered.next (h : Ordered versions taskId epochId entityRef)
    (htimeline : Timeline facts versions taskId epochId entityRef) {fact : FactRecord}
    (hin : ∀ version ∈ versions, openFor fact version = true →
      version.contentDigest ≠ fact.payloadDigest → version.validFrom ≤ fact.observedAt) :
    Ordered (versioned digestObject versions fact) taskId epochId entityRef := by
  by_cases hown : ofSubject taskId epochId entityRef fact = true
  · obtain ⟨rfl, rfl, rfl⟩ := ofSubject_iff.1 hown
    rw [versioned]
    split
    · exact h
    · rename_i hnone
      have hnew : ofEntity fact.taskId fact.epochId fact.subjectRef
          (entityVersion digestObject fact) = true := hown
      have hbefore : ∀ version ∈ versions, openFor fact version = true →
          version.validFrom ≤ fact.observedAt := by
        intro version hversion hopen
        refine hin version hversion hopen fun hcontent => hnone ?_
        exact List.any_eq_true.2 ⟨version, hversion, by rw [hopen, hcontent]; simp⟩
      have hfilter : (versions.map (closed fact) ++ [entityVersion digestObject fact]).filter
          (ofEntity fact.taskId fact.epochId fact.subjectRef) =
          (versions.filter (ofEntity fact.taskId fact.epochId fact.subjectRef)).map (closed fact) ++
            [entityVersion digestObject fact] := by
        rw [List.filter_append, filter_map_closed, List.filter_cons_of_pos hnew, List.filter_nil]
      refine ⟨?_, ?_⟩
      · rw [hfilter]
        intro version hversion validTo hvalid
        rcases List.mem_append.1 hversion with hold | hlast
        · obtain ⟨old, hmem, rfl⟩ := List.mem_map.1 hold
          by_cases hopen : openFor fact old = true
          · rw [closed, if_pos hopen] at hvalid ⊢
            obtain rfl := Option.some.inj hvalid
            exact hbefore old (List.mem_filter.1 hmem).1 hopen
          · rw [closed, if_neg hopen] at hvalid ⊢
            exact h.ended old hmem validTo hvalid
        · obtain rfl := List.mem_singleton.1 hlast
          cases hvalid
      · rw [hfilter]
        intro version hversion hopen old hold
        have hversion' : version = entityVersion digestObject fact := by
          rcases List.mem_append.1 hversion with hmapped | hlast
          · obtain ⟨old, hmem, rfl⟩ := List.mem_map.1 hmapped
            by_cases hwas : openFor fact old = true
            · rw [closed, if_pos hwas] at hopen
              cases hopen
            · rw [closed, if_neg hwas] at hopen
              exact absurd (openFor_iff.2 ⟨(List.mem_filter.1 hmem).2, hopen⟩) hwas
          · exact List.mem_singleton.1 hlast
        subst hversion'
        rcases List.mem_append.1 hold with hmapped | hlast
        · obtain ⟨previous, hmem, rfl⟩ := List.mem_map.1 hmapped
          obtain ⟨current, hcurrent, hnone'⟩ := htimeline.exists_open hmem
          have hle := h.latest current hcurrent hnone' previous hmem
          have hstart : (closed fact previous).validFrom = previous.validFrom := by
            rw [closed]
            split <;> rfl
          rw [hstart]
          obtain ⟨hcurrent', hof⟩ := List.mem_filter.1 hcurrent
          exact String.le_trans hle (hbefore current hcurrent' (openFor_iff.2 ⟨hof, hnone'⟩))
        · obtain rfl := List.mem_singleton.1 hlast
          exact String.le_refl _
  · have hother : ofSubject taskId epochId entityRef fact = false := Bool.eq_false_iff.2 hown
    refine ⟨?_, ?_⟩
    · rw [filter_versioned_other hother]
      exact h.ended
    · rw [filter_versioned_other hother]
      exact h.latest

/-- The facts of a batch, one after the other. -/
theorem timeline_foldl (more : List FactRecord) (h : Timeline facts versions taskId epochId entityRef) :
    Timeline (facts ++ more) (more.foldl (versioned digestObject) versions) taskId epochId entityRef := by
  induction more generalizing facts versions with
  | nil =>
    rw [List.append_nil]
    exact h
  | cons fact rest ih =>
    rw [List.append_cons]
    exact ih (h.next fact)

theorem ordered_foldl (more : List FactRecord) (h : Ordered versions taskId epochId entityRef)
    (htimeline : Timeline facts versions taskId epochId entityRef)
    (hin : InOrder digestObject versions more) :
    Ordered (more.foldl (versioned digestObject) versions) taskId epochId entityRef := by
  induction more generalizing facts versions with
  | nil => exact h
  | cons fact rest ih => exact ih (h.next htimeline hin.1) (htimeline.next fact) hin.2

/-! ### The latest version -/

theorem getLast?_orderedInsert {α : Type} {r : α → α → Prop} [DecidableRel r] {a x : α} (l : List α)
    (h : r a x) : ((l ++ [x]).orderedInsert r a).getLast? = some x := by
  induction l with
  | nil => rw [List.nil_append, List.orderedInsert, if_pos h]; rfl
  | cons b l ih =>
    rw [List.cons_append, List.orderedInsert]
    split
    · rw [List.getLast?_cons_cons, ← List.cons_append, List.getLast?_concat]
    · rw [List.getLast?_cons, ih]
      rfl

/-- What is last, and not before anything else, is last once more when the list is sorted. -/
theorem getLast?_insertionSort {α : Type} {r : α → α → Prop} [DecidableRel r] {x : α} {l : List α}
    (h : ∀ a ∈ l, r a x) : ((l ++ [x]).insertionSort r).getLast? = some x := by
  induction l with
  | nil => rfl
  | cons a l ih =>
    obtain ⟨sorted, hsorted⟩ := List.getLast?_eq_some_iff.1 (ih fun b hb => h b (List.mem_cons_of_mem _ hb))
    rw [List.cons_append, List.insertionSort_cons, hsorted]
    exact getLast?_orderedInsert sorted (h a List.mem_cons_self)

/-- The version that is open, if the object has one. -/
def openRef (s : BatchStore) (taskId epochId entityRef : String) : Option String :=
  (s.openVersions taskId epochId entityRef).head?.map (·.versionRef)

theorem filter_open (s : BatchStore) : s.openVersions taskId epochId entityRef =
    (s.versions.rows.filter (ofEntity taskId epochId entityRef)).filter fun version =>
      version.validTo.isNone := by
  rw [openVersions, List.filter_filter]
  exact List.filter_congr fun version _ => Bool.and_comm _ _

/-- An object with facts has one open version. -/
theorem openVersions_eq {s : BatchStore} {earlier : List EntityVersion} {version : EntityVersion}
    (heq : s.versions.rows.filter (ofEntity taskId epochId entityRef) = earlier ++ [version])
    (hopen : version.validTo = none) (hclosed : ∀ old ∈ earlier, old.validTo.isSome) :
    s.openVersions taskId epochId entityRef = [version] := by
  have hnone : earlier.filter (fun version => version.validTo.isNone) = [] := by
    refine List.filter_eq_nil_iff.2 fun old hold hisNone => ?_
    have hsome := hclosed old hold
    rw [Option.isNone_iff_eq_none.1 hisNone] at hsome
    cases hsome
  rw [filter_open, heq, List.filter_append, hnone, List.nil_append,
    List.filter_cons_of_pos (by rw [hopen]; rfl), List.filter_nil]

/-- The latest version is the open one. -/
theorem latestVersion_eq {s : BatchStore}
    (htimeline : Timeline facts s.versions.rows taskId epochId entityRef)
    (hordered : Ordered s.versions.rows taskId epochId entityRef) :
    s.latestVersion taskId epochId entityRef = s.openRef taskId epochId entityRef := by
  cases hfacts : (facts.filter (ofSubject taskId epochId entityRef)).getLast? with
  | none =>
    have hnil := htimeline.start (List.getLast?_eq_none_iff.1 hfacts)
    rw [latestVersion, listEntityVersions, openRef, filter_open, hnil]
    rfl
  | some fact =>
    obtain ⟨earlier, version, heq, hopen, -, hclosed⟩ := htimeline.current fact hfacts
    have hmem : version ∈ s.versions.rows.filter (ofEntity taskId epochId entityRef) :=
      heq ▸ List.mem_append_right _ List.mem_cons_self
    have hlatest : ∀ old ∈ earlier, old.validFrom ≤ version.validFrom := fun old hold =>
      hordered.latest version hmem hopen old (heq ▸ List.mem_append_left _ hold)
    have hlast : ((earlier ++ [version]).insertionSort
        fun left right => left.validFrom ≤ right.validFrom).getLast? = some version :=
      getLast?_insertionSort hlatest
    rw [latestVersion, listEntityVersions, openRef, openVersions_eq heq hopen hclosed, heq, hlast]
    rfl

end BatchStore

namespace BatchSystem

variable (env : FactEnv)

/-- The facts of a batch close no version that begins after they were observed. -/
def InOrder (s : BatchSystem) : BatchOp → Prop
  | .commitFactBatch input _ =>
    ∀ prepared ∈ (prepareFactBatch env.normalizer input.toFactBatchInput
        (s.store.factStore.findObjectReferenceByIdentity input.taskId input.epochId)
        s.store.factStore.drawn).toOption,
      BatchStore.InOrder env.normalizer.digestObject s.store.versions.rows
        (FactStore.numbered (FactStore.maxSeq s.store.factStore.facts.rows + 1) prepared.1.facts)
  | _ => True

/-- The versions of every object follow each other, the last one being open. -/
structure Timelines (s : BatchSystem) : Prop where
  timeline : ∀ taskId epochId entityRef, BatchStore.Timeline s.store.factStore.facts.rows
    s.store.versions.rows taskId epochId entityRef
  ordered : ∀ taskId epochId entityRef, BatchStore.Ordered s.store.versions.rows taskId epochId entityRef

variable {env} {s : BatchSystem}

theorem timelines_empty : Timelines .empty where
  timeline _ _ _ := ⟨fun _ => rfl, fun _ h => by cases h⟩
  ordered _ _ _ := ⟨fun _ h => (nomatch h), fun _ h => (nomatch h)⟩

theorem Timelines.commit (h : Timelines s) {input : BatchInput} {fails : ℕ → Option Thrown}
    {store : BatchStore} (hcommit : s.store.commitFactBatch env fails input = .ok store)
    (hin : InOrder env s (.commitFactBatch input fails)) : Timelines (s.record input store) := by
  obtain ⟨prepared, drawn, hcommit⟩ := BatchStore.commitFactBatch_ok env hcommit
  rw [InOrder, hcommit.preparation] at hin
  have hfacts : (s.record input store).store.factStore.facts.rows = _ := hcommit.facts
  have hversions : (s.record input store).store.versions.rows = _ := hcommit.versions
  constructor
  · intro taskId epochId entityRef
    rw [hfacts, hversions]
    exact BatchStore.timeline_foldl _ (h.timeline taskId epochId entityRef)
  · intro taskId epochId entityRef
    rw [hversions]
    exact BatchStore.ordered_foldl _ (h.ordered taskId epochId entityRef)
      (h.timeline taskId epochId entityRef) (hin _ rfl)

theorem step_timelines (op : BatchOp) (h : Timelines s) (hin : InOrder env s op) :
    Timelines (step env s op) := by
  rcases @step_cases env s op with ⟨store, hstep, hfacts, -, -, hversions⟩ |
    ⟨input, fails, store, rfl, hcommit, hstep⟩
  · rw [hstep]
    constructor
    · rw [hfacts, hversions]
      exact h.timeline
    · rw [hversions]
      exact h.ordered
  · rw [hstep]
    exact h.commit hcommit hin

/-- As long as no fact closes a version that begins after the fact was observed: every object that was
    observed has one open version, with the content of its last fact; no version ends before it begins;
    and a commit records the open versions as the ends of its edges. -/
theorem timeline_in_order {ops : List BatchOp}
    (hops : Runs.Along (step env) (InOrder env) .empty ops) :
    (∀ taskId epochId entityRef fact, ((runOps env ops).store.factStore.facts.rows.filter
        (BatchStore.ofSubject taskId epochId entityRef)).getLast? = some fact →
      ∃ version, (runOps env ops).store.openVersions taskId epochId entityRef = [version] ∧
        version.contentDigest = fact.payloadDigest) ∧
    (∀ version ∈ (runOps env ops).store.versions.rows, ∀ validTo, version.validTo = some validTo →
      version.validFrom ≤ validTo) ∧
    (∀ taskId epochId entityRef, (runOps env ops).store.latestVersion taskId epochId entityRef =
      (runOps env ops).store.openRef taskId epochId entityRef) ∧
    ∀ input fails store, InOrder env (runOps env ops) (.commitFactBatch input fails) →
      (runOps env ops).store.commitFactBatch env fails input = .ok store →
      ∃ edges, store.factStore.edges.rows = (runOps env ops).store.factStore.edges.rows ++ edges ∧
        ∀ edge ∈ edges, ∃ provenance ∈ store.relationProvenance.rows,
          provenance.edgeRef = edge.edgeId ∧
          provenance.fromVersionRef = store.openRef edge.taskId edge.epochId edge.fromRef ∧
          provenance.toVersionRef = store.openRef edge.taskId edge.epochId edge.toRef := by
  have h : Timelines (runOps env ops) :=
    Runs.run_invariant (I := Timelines) (fun _ op h hin => step_timelines op h hin) ops _
      timelines_empty hops
  refine ⟨?_, ?_, ?_, ?_⟩
  · intro taskId epochId entityRef fact hfact
    obtain ⟨earlier, version, heq, hopen, hcontent, hclosed⟩ :=
      (h.timeline taskId epochId entityRef).current fact hfact
    exact ⟨version, BatchStore.openVersions_eq heq hopen hclosed, hcontent⟩
  · intro version hversion validTo hvalid
    refine (h.ordered version.taskId version.epochId version.entityRef).ended version ?_ validTo hvalid
    exact List.mem_filter.2 ⟨hversion, by simp [BatchStore.ofEntity]⟩
  · intro taskId epochId entityRef
    exact BatchStore.latestVersion_eq (h.timeline taskId epochId entityRef)
      (h.ordered taskId epochId entityRef)
  · intro input fails store hin hcommit
    have hafter := h.commit hcommit hin
    obtain ⟨prepared, drawn, hcommit⟩ := BatchStore.commitFactBatch_ok env hcommit
    refine ⟨prepared.edges, hcommit.edges, fun edge hedge => ?_⟩
    refine ⟨store.observedProvenance edge, ?_, rfl, ?_, ?_⟩
    · rw [hcommit.relationProvenance]
      exact List.mem_append_right _ (List.mem_map_of_mem hedge)
    · exact BatchStore.latestVersion_eq (hafter.timeline _ _ _) (hafter.ordered _ _ _)
    · exact BatchStore.latestVersion_eq (hafter.timeline _ _ _) (hafter.ordered _ _ _)

/-! ### Observed late, and observed early -/

instance decidableInOrder (digestObject : Json → String) : ∀ (versions : List EntityVersion)
    (facts : List FactRecord), Decidable (BatchStore.InOrder digestObject versions facts)
  | _, [] => .isTrue trivial
  | versions, fact :: rest =>
    have := decidableInOrder digestObject (BatchStore.versioned digestObject versions fact) rest
    inferInstanceAs (Decidable ((∀ version ∈ versions, _) ∧ BatchStore.InOrder digestObject _ rest))

instance (s : BatchSystem) : ∀ op : BatchOp, Decidable (InOrder env s op)
  | .commitFactBatch _ _ => inferInstanceAs (Decidable (∀ prepared ∈ Except.toOption _, _))
  | .createScanEpoch _ | .finishScanEpoch _ _ _ | .startToolRun _ | .finishToolRun _ _ _ _ =>
    .isTrue trivial

/-- The second observation of the cron job is later than the first. -/
theorem timeline_in_order_sample :
    (runOps sampleBatchEnv [opened, committed "1" "sh", committed "2" "bash"]).store.versions.rows.length
      = 2 ∧
    ∀ version ∈ (runOps sampleBatchEnv
      [opened, committed "1" "sh", committed "2" "bash"]).store.versions.rows,
      ∀ validTo, version.validTo = some validTo → version.validFrom ≤ validTo :=
  ⟨by decide +kernel, (timeline_in_order (by decide +kernel)).2.1⟩

/-- The second observation is earlier than the first: the first version ends before it begins, and the
    edge of the second batch names that version and not the open one. -/
theorem closed_before_opened :
    (∃ version ∈ (runOps sampleBatchEnv
        [opened, committed "2" "sh", committed "1" "bash"]).store.versions.rows,
      version.validFrom = "2" ∧ version.validTo = some "1") ∧
    ∃ provenance ∈ (runOps sampleBatchEnv
        [opened, committed "2" "sh", committed "1" "bash"]).store.relationProvenance.rows,
      ∃ edge ∈ (runOps sampleBatchEnv
          [opened, committed "2" "sh", committed "1" "bash"]).store.factStore.edges.rows,
        edge.edgeId = provenance.edgeRef ∧ edge.observedAt = "1" ∧
        provenance.fromVersionRef ≠ (runOps sampleBatchEnv
          [opened, committed "2" "sh", committed "1" "bash"]).store.openRef "TASK-1" "EPOCH-1"
            edge.fromRef := by
  decide +kernel

end BatchSystem

end HuntWarden
