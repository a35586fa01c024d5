import HuntWarden.Discovery.Attribution
import HuntWarden.Investigation.Attempts
import HuntWarden.Lib.Dedup

/-! Whether volatile discovery comes to an end of its candidates. What a call asks of the action queue are
    jobs for a store that keeps one entry per key: an operation whose key an action of somebody else holds
    is never counted as planned, and its candidate comes back in every call. -/

namespace HuntWarden.VolatileDiscovery

open Outcome Playbooks InvestigationStore Dedup

/-! ### The queue as a store of entries -/

/-- An operation that is planned for a subject. -/
abbrev Job := FactRecord × VolatileOperation

def jobKey (r : PlanRuntime) (job : Job) : String := idempotencyKey r (job.2.planned 0) job.1

def volatileJobs (r : PlanRuntime) : Jobs String ActionOrigin (String × String) Job where
  key := jobKey r
  value job := originOf r job.1.subjectRef job.2
  mark job := (job.1.subjectRef, operationText r job.2)
  covers origin mark := origin.covers mark.1 mark.2 = true
  covers_value job mark := by
    simp only [ActionOrigin.covers, originOf, operationText, Bool.and_eq_true, decide_eq_true_eq,
      List.mem_singleton, true_and]
    exact ⟨fun ⟨hsubject, htext⟩ => Prod.ext hsubject.symm (of_decide_eq_true htext),
      fun h => ⟨(congrArg Prod.fst h).symm, decide_eq_true (congrArg Prod.snd h)⟩⟩

/-- The stored actions by their keys. -/
def entries (s : VolatileStore) : List (String × ActionOrigin) :=
  s.planner.investigation.actions.rows.map fun a => (a.idempotencyKey, s.origin a.actionId)

variable {r : PlanRuntime} {s s' s'' : VolatileStore} {jobs rest : List Job}

theorem isPlanned_iff {subjectRef text : String} :
    isPlanned s subjectRef text = true ↔ Done (volatileJobs r) (entries s) (subjectRef, text) := by
  simp only [isPlanned, List.any_eq_true, mem_listInvestigationActions, Done, entries, List.mem_map]
  exact ⟨fun ⟨a, ha, hcovers⟩ => ⟨_, ⟨a, ha, rfl⟩, hcovers⟩, fun ⟨_, ⟨a, ha, he⟩, hcovers⟩ => by
    subst he
    exact ⟨a, ha, hcovers⟩⟩

theorem mem_keys {key : String} :
    key ∈ (entries s).map Prod.fst ↔ ∃ a ∈ s.planner.investigation.actions.rows, a.idempotencyKey = key := by
  rw [entries, List.map_map, List.mem_map]
  rfl

/-! ### What a part of a call adds -/

/-- What is planned from. -/
def inputs (s : VolatileStore) :=
  (s.planner.facts, s.planner.checks, s.planner.references, s.planner.coverage)

/-- The jobs have been asked for, and the inputs left alone. -/
structure Extended (r : PlanRuntime) (jobs : List Job) (s s' : VolatileStore) : Prop where
  inputs : inputs s' = inputs s
  entries : entries s' = addAll (volatileJobs r) (entries s) jobs

theorem Extended.refl : Extended r [] s s := ⟨rfl, rfl⟩

theorem Extended.trans (h : Extended r jobs s s') (h' : Extended r rest s' s'') :
    Extended r (jobs ++ rest) s s'' :=
  ⟨h'.inputs.trans h.inputs, by rw [h'.entries, h.entries, addAll_append]⟩

/-- The program returns, and has asked for these jobs. -/
def Extends {α : Type} (r : PlanRuntime) (p : VolatileProgram α) (jobs : List Job) (s : VolatileStore) : Prop :=
  Program.Ensures p s (fun _ s' => Extended r jobs s s') fun _ _ => False

theorem Extends.returned {α : Type} {p : VolatileProgram α} (h : Extends r p jobs s) :
    ∃ a s', p.run s = (.ok a, s') ∧ Extended r jobs s s' := by
  rw [Extends, Program.Ensures] at h
  split at h
  · next a s' hrun => exact ⟨a, s', hrun, h⟩
  · exact h.elim

theorem Extends.bind {α β : Type} {p : VolatileProgram α} {f : α → VolatileProgram β} (h : Extends r p jobs s)
    (rest : List Job)
    (hf : ∀ a s', p.run s = (.ok a, s') → Extended r jobs s s' → Extends r (f a) rest s') :
    Extends r (p >>= f) (jobs ++ rest) s := by
  obtain ⟨a, s', hrun, hextended⟩ := h.returned
  rw [Extends, Program.Ensures, Program.bind_returned hrun]
  exact (hf a s' hrun hextended).mono (fun _ _ hrest => hextended.trans hrest) fun _ _ he => he

theorem Extends.map {α β : Type} {p : VolatileProgram α} {f : α → β} (h : Extends r p jobs s) :
    Extends r (do let a ← p; return f a) jobs s := by
  have hbind : Extends r (do let a ← p; return f a) (jobs ++ []) s := h.bind [] fun _ _ _ _ => Extended.refl
  rwa [List.append_nil] at hbind

theorem extends_update {α : Type} {body : VolatileStore → Except Thrown (α × VolatileStore)} {a : α}
    (h : body s = .ok (a, s')) (hextended : Extended r jobs s s') : Extends r (Program.update body) jobs s := by
  rw [Extends, Program.Ensures, Program.update_returned h]
  exact hextended

/-- A loop asks for what its turns ask for. -/
theorem extends_gather {α β : Type} {body : α → VolatileProgram β} {jobsOf : α → List Job} {l : List α}
    (hbody : ∀ a ∈ l, ∀ s', inputs s' = inputs s → Extends r (body a) (jobsOf a) s') :
    Extends r (Program.gather body l) (l.flatMap jobsOf) s := by
  have hnone : Extended r (([] : List α).flatMap jobsOf) s s := Extended.refl
  refine Program.ensures_gather
    (I := fun (done : List α) (s' : VolatileStore) => Extended r (done.flatMap jobsOf) s s')
    hnone fun done s' a ha hdone => ?_
  refine (hbody a ha s' hdone.inputs).mono (fun _ s'' hextended => ?_) fun _ _ he => he
  rw [List.flatMap_append, List.flatMap_singleton]
  exact hdone.trans hextended

/-! ### The parts of a call -/

/-- The columns of an action that make its entry. -/
def columns (a : InvestigationAction) : String × String := (a.actionId, a.idempotencyKey)

theorem columns_modify {store : InvestigationStore} {selected : InvestigationAction → Bool} {f : ActionRewrite} :
    (store.actions.modify selected f).rows.map columns = store.actions.rows.map columns := by
  rw [IndexedTable.modify, List.map_map]
  refine List.map_congr_left fun a _ => ?_
  dsimp only [Function.comp]
  split
  · exact Prod.ext (f.key_apply a) (f.alt_apply a)
  · rfl

theorem columns_updateAction {store : InvestigationStore} {actionId : String} {f : ActionRewrite} :
    (store.updateAction actionId f).actions.rows.map columns = store.actions.rows.map columns :=
  columns_modify

theorem entries_congr (hcolumns : s'.planner.investigation.actions.rows.map columns =
    s.planner.investigation.actions.rows.map columns) (horigin : s'.origin = s.origin) :
    entries s' = entries s := by
  have hentries : ∀ s : VolatileStore, entries s =
      (s.planner.investigation.actions.rows.map columns).map fun c => (c.2, s.origin c.1) := by
    intro s
    rw [List.map_map]
    rfl
  rw [hentries, hentries, hcolumns, horigin]

/-- A proposal joins the queue under a new key, or leaves the columns of the queue as they are. -/
theorem putAction_columns {store store' : InvestigationStore} {value stored : InvestigationAction}
    (hfresh : ∀ a ∈ store.actions.rows, a.actionId ≠ value.actionId)
    (h : store.putInvestigationAction value = .ok (store', stored)) :
    (value.idempotencyKey ∈ store.actions.rows.map (·.idempotencyKey) ∧ stored.actionId ≠ value.actionId ∧
      store'.actions.rows.map columns = store.actions.rows.map columns) ∨
    (value.idempotencyKey ∉ store.actions.rows.map (·.idempotencyKey) ∧ stored.actionId = value.actionId ∧
      store'.actions.rows.map columns = store.actions.rows.map columns ++ [columns value]) := by
  simp only [putInvestigationAction, bind_ok, require_ok] at h
  obtain ⟨_, -, _, -, _, -, h⟩ := h
  split at h
  · next old hold =>
    have hmem := List.mem_of_find?_eq_some hold
    have hkey : old.idempotencyKey = value.idempotencyKey := by simpa using List.find?_some hold
    rw [pure_ok] at h
    have hmerge : stored.actionId = old.actionId ∧
        store'.actions.rows.map columns = store.actions.rows.map columns := by
      rw [mergeAction] at h
      dsimp only at h
      split at h
      · obtain ⟨rfl, rfl⟩ := Prod.mk.inj h
        exact ⟨rfl, rfl⟩
      · split at h
        · obtain ⟨rfl, rfl⟩ := Prod.mk.inj h
          exact ⟨rfl, columns_updateAction⟩
        · obtain ⟨rfl, rfl⟩ := Prod.mk.inj h
          exact ⟨rfl, columns_updateAction⟩
    exact Or.inl ⟨hkey ▸ List.mem_map_of_mem hmem, fun heq => hfresh old hmem (hmerge.1.symm.trans heq), hmerge.2⟩
  · next hnone =>
    have hnew : ∀ a ∈ store.actions.rows, a.idempotencyKey ≠ value.idempotencyKey :=
      fun a ha => by simpa using List.find?_eq_none.1 hnone a ha
    have hinserted : ∀ candidate : InvestigationAction, columns candidate = columns value →
        (store.actions.insertOrIgnore candidate).rows = store.actions.rows ++ [candidate] := by
      intro candidate hsame
      have hid : candidate.actionId = value.actionId := congrArg Prod.fst hsame
      have hkey : candidate.idempotencyKey = value.idempotencyKey := congrArg Prod.snd hsame
      exact IndexedTable.insertOrIgnore_fresh fun a ha =>
        ⟨fun heq => hfresh a ha (heq.trans hid), fun heq => hnew a ha (heq.trans hkey)⟩
    have hfind : ∀ candidate found : InvestigationAction, columns candidate = columns value →
        (store.actions.insertOrIgnore candidate).rows.find?
          (fun a => a.idempotencyKey = value.idempotencyKey) = some found → found = candidate := by
      intro candidate found hsame hfound
      have hkey : candidate.idempotencyKey = value.idempotencyKey := congrArg Prod.snd hsame
      rw [hinserted candidate hsame, List.find?_append, hnone] at hfound
      simpa [hkey] using hfound.symm
    simp only [insertAction, bind_ok, orThrow_ok] at h
    obtain ⟨found, hfound, h⟩ := h
    refine Or.inr ⟨fun hmem => ?_, ?_⟩
    · obtain ⟨a, ha, hkey⟩ := List.mem_map.1 hmem
      exact hnew a ha hkey
    · by_cases hcap : store.capacityExceeded value = true
      · rw [if_pos hcap, pure_ok] at h
        rw [if_pos hcap] at hfound
        obtain ⟨rfl, rfl⟩ := Prod.mk.inj h
        refine ⟨by rw [hfind (capacityBlocked value) found rfl hfound]; rfl, ?_⟩
        rw [if_pos hcap]
        have hrows := hinserted (capacityBlocked value) rfl
        rw [show ∀ (t : InvestigationStore) (p : InvestigationObligation → Bool) (c : Closing),
          (t.closeObligations p c).actions = t.actions from fun _ _ _ => rfl]
        rw [hrows, List.map_append]
        rfl
      · rw [if_neg hcap, pure_ok] at h
        rw [if_neg hcap] at hfound
        obtain ⟨rfl, rfl⟩ := Prod.mk.inj h
        refine ⟨by rw [hfind value found rfl hfound], ?_⟩
        rw [if_neg hcap, hinserted value rfl, List.map_append]
        rfl

theorem putInvestigationLead_returned (lead : InvestigationLead) (hsubject : lead.subjectRef ∈ s.planner.references)
    (hfresh : ∀ stored ∈ s.leads.rows, stored.leadId ≠ lead.leadId) :
    ∃ stored s', putInvestigationLead lead s = .ok (stored, s') ∧ Extended r [] s s' := by
  rw [putInvestigationLead, decide_eq_true hsubject]
  cases hfind : s.leads.rows.find? fun stored => stored.scope = lead.scope with
  | none =>
    have hinsert : ∃ leads, s.leads.insert? lead = some leads := by
      refine ⟨_, dif_pos fun stored hstored => ⟨hfresh stored hstored, ?_⟩⟩
      simpa using List.find?_eq_none.1 hfind stored hstored
    obtain ⟨leads, hinsert⟩ := hinsert
    refine ⟨lead, { s with leads }, ?_, ⟨rfl, rfl⟩⟩
    simp only [hinsert]
    rfl
  | some stored =>
    by_cases hmerged : ((mergeLead lead).apply stored).triggerFactRefs.length ≠ stored.triggerFactRefs.length ∨
        stored.priority < lead.priority
    · exact ⟨_, _, if_pos hmerged, ⟨rfl, rfl⟩⟩
    · exact ⟨_, _, if_neg hmerged, ⟨rfl, rfl⟩⟩

/-- An obligation that the planner puts: it returns one that is stored under the key, and asks for no action. -/
theorem putObligation_extends (value : InvestigationObligation)
    (hid : value.obligationId =
      r.ids.draw "OBL-" (s.planner.investigation.obligations.rows.map (·.obligationId))) :
    ∃ stored planner, putObligation value s.planner = .ok (stored, planner) ∧
      Extended r [] s { s with planner } ∧ stored ∈ planner.investigation.obligations.rows ∧
      stored.dedupeKey = value.dedupeKey ∧ planner.missingCriteria = s.planner.missingCriteria := by
  obtain ⟨investigation, stored, hput, -⟩ := putInvestigationObligation_total value fun o ho =>
    hid ▸ draw_fresh "OBL-" o ho
  obtain ⟨hstored, hactions, -⟩ := putInvestigationObligation_ok hput
  refine ⟨stored, { s.planner with investigation }, by rw [putObligation, hput]; rfl,
    ⟨rfl, entries_congr (congrArg (fun t => t.rows.map columns) hactions) rfl⟩, hstored, ?_, rfl⟩
  simp only [putInvestigationObligation, bind_ok, orThrow_ok, pure_ok] at hput
  obtain ⟨found, hfound, hput⟩ := hput
  obtain ⟨-, rfl⟩ := Prod.mk.inj hput
  simpa using List.find?_some hfound

theorem putVolatileAction_returned (job : Job) (value : InvestigationAction) (hdepends : value.dependsOn = [])
    (hid : value.actionId = r.ids.draw "IACT-" (s.planner.investigation.actions.rows.map (·.actionId)))
    (hkey : value.idempotencyKey = (volatileJobs r).key job)
    (hserves : ∀ id ∈ value.obligationIds,
      ∃ o ∈ s.planner.investigation.obligations.rows, o.obligationId = id) :
    ∃ stored s', putVolatileAction value (originOf r job.1.subjectRef job.2) s = .ok (stored, s') ∧
      Extended r [job] s s' := by
  have hfresh : ∀ a ∈ s.planner.investigation.actions.rows, a.actionId ≠ value.actionId := by
    rw [hid]
    exact draw_fresh "IACT-"
  obtain ⟨investigation, stored, hput, -⟩ := putInvestigationAction_total value hdepends hfresh hserves
  have hputAction : putAction value s.planner = .ok (stored, { s.planner with investigation }) := by
    rw [putAction, hput]
    rfl
  have hkeys : (entries s).map Prod.fst = s.planner.investigation.actions.rows.map (·.idempotencyKey) := by
    rw [entries, List.map_map]
    rfl
  rcases putAction_columns hfresh hput with ⟨hheld, hstored, hcolumns⟩ | ⟨hnew, hstored, hcolumns⟩
  · refine ⟨stored, { s with planner := { s.planner with investigation } }, ?_, rfl, ?_⟩
    · rw [putVolatileAction, hputAction]
      exact if_neg hstored
    · have hsame : add (volatileJobs r) (entries s) job = entries s := add_held (by rw [hkeys, ← hkey]; exact hheld)
      rw [addAll, List.foldl_cons, List.foldl_nil, hsame]
      exact entries_congr hcolumns rfl
  · refine ⟨stored, { s with
        planner := { s.planner with investigation }
        origin := Function.update s.origin value.actionId (originOf r job.1.subjectRef job.2) }, ?_, rfl, ?_⟩
    · rw [putVolatileAction, hputAction]
      exact if_pos hstored
    · have hadded : add (volatileJobs r) (entries s) job =
          entries s ++ [((volatileJobs r).key job, originOf r job.1.subjectRef job.2)] :=
        add_new (by rw [hkeys, ← hkey]; exact hnew)
      rw [addAll, List.foldl_cons, List.foldl_nil, hadded, ← hkey]
      have hold : ∀ a ∈ s.planner.investigation.actions.rows,
          Function.update s.origin value.actionId (originOf r job.1.subjectRef job.2) a.actionId =
            s.origin a.actionId := fun a ha => Function.update_of_ne (hfresh a ha) _ _
      have hmap : ∀ (rows : List InvestigationAction) (origin : String → ActionOrigin),
          (rows.map fun a => (a.idempotencyKey, origin a.actionId)) =
            (rows.map columns).map fun c => (c.2, origin c.1) := by
        intro rows origin
        rw [List.map_map]
        rfl
      rw [entries, hmap, hcolumns, List.map_append, ← hmap, List.map_singleton, columns]
      dsimp only
      rw [Function.update_self, entries]
      exact congrArg (· ++ _) (List.map_congr_left fun a ha => by rw [hold a ha])

theorem putOperation_extends (subject : FactRecord) (priority : ℤ) (entry : VolatileOperation × ℕ) :
    Extends r (putOperation r subject priority entry) [(subject, entry.1)] s := by
  let operation := entry.1.planned (priority - entry.2)
  obtain ⟨obligation, planner, hput, hextended, hstored, -⟩ := putObligation_extends (r := r) (s := s)
    (newObligation r operation subject.subjectRef s.planner) rfl
  have hupdate : onPlanner (fun s => putObligation (newObligation r operation subject.subjectRef s) s) s =
      .ok (obligation, { s with planner }) := by
    rw [onPlanner, hput]
    rfl
  have hbind := (extends_update hupdate hextended).bind (f := fun obligation => do
    let action ← Program.update fun s => putVolatileAction
      (newAction r operation subject obligation.obligationId s.planner) (originOf r subject.subjectRef entry.1) s
    return (obligation.obligationId, action.actionId)) [(subject, entry.1)] fun found s' hrun _ => by
      rw [Program.update_returned hupdate] at hrun
      obtain ⟨rfl, rfl⟩ : obligation = found ∧ { s with planner } = s' := by simpa using hrun
      obtain ⟨action, s'', haction, hextended'⟩ := putVolatileAction_returned (r := r) (s := { s with planner })
        (subject, entry.1) (newAction r operation subject obligation.obligationId planner) rfl rfl rfl
        fun id hid => ⟨obligation, hstored, (List.mem_singleton.1 hid).symm⟩
      exact (extends_update haction hextended').map
  exact hbind

/-- The jobs of a candidate. -/
def jobsOf (candidate : Candidate) : List Job := (operationsFor candidate.subject).map (candidate.subject, ·)

theorem planCandidate_extends {candidate : Candidate} (hsubject : candidate.subject.subjectRef ∈ s.planner.references) :
    Extends r (planCandidate r candidate) (jobsOf candidate) s := by
  obtain ⟨lead, s', hput, hextended⟩ := putInvestigationLead_returned (r := r) (newLead r candidate s) hsubject
    (draw_fresh "LEAD-")
  have hplan : Extends r (planSubject r candidate lead) (jobsOf candidate) s' := by
    have hjobs : jobsOf candidate =
        (operationsFor candidate.subject).zipIdx.flatMap fun entry => [(candidate.subject, entry.1)] := by
      rw [← List.map_eq_flatMap, jobsOf]
      conv_lhs => rw [← List.zipIdx_map_fst 0 (operationsFor candidate.subject), List.map_map]
      rfl
    rw [hjobs]
    exact extends_gather fun entry _ s'' _ => putOperation_extends candidate.subject lead.priority entry
  have hbind := (extends_update hput hextended).bind (f := fun lead => do
    let planned ← planSubject r candidate lead
    return (lead.leadId, planned)) (jobsOf candidate) fun found s'' hrun _ => by
      rw [Program.update_returned hput] at hrun
      obtain ⟨rfl, rfl⟩ : lead = found ∧ s' = s'' := by simpa using hrun
      exact hplan.map
  exact hbind

/-! ### A call -/

theorem discoveryStatus_congr (h : inputs s' = inputs s) (limitReached : Bool) :
    discoveryStatus s'.planner limitReached = discoveryStatus s.planner limitReached := by
  have hcoverage : s'.planner.coverage = s.planner.coverage := congrArg (·.2.2.2) h
  rw [discoveryStatus, discoveryStatus, coverageOf, coverageOf, hcoverage]

/-- The obligation of the scope has this status. -/
def ScopeHas (s : VolatileStore) (status : ObligationStatus) : Prop :=
  ∀ o ∈ s.planner.investigation.obligations.rows, o.dedupeKey = scopeKey → o.status = status

theorem settleScope_returned (limitReached : Bool) {obligation : InvestigationObligation}
    (hstored : obligation ∈ s.planner.investigation.obligations.rows) (hkey : obligation.dedupeKey = scopeKey) :
    ∃ s', settleScope r limitReached obligation s = .ok s' ∧ Extended r [] s s' ∧
      ScopeHas s' (discoveryStatus s.planner limitReached) := by
  have hself : ∀ o ∈ s.planner.investigation.obligations.rows, o.dedupeKey = scopeKey → o = obligation :=
    fun o ho hokey => s.planner.investigation.obligations.eq_of_alt ho hstored (hokey.trans hkey.symm)
  rw [settleScope]
  split
  · obtain ⟨obligations, hupdate, hrows⟩ := updateInvestigationObligation_ok hstored
      (scopeClosing s.planner limitReached)
    let investigation := { s.planner.investigation with obligations }
    refine ⟨{ s with planner := { s.planner with investigation } }, by rw [hupdate]; rfl, ⟨rfl, rfl⟩,
      fun o ho hokey => ?_⟩
    have ho : o ∈ obligations.rows := ho
    rw [hrows] at ho
    obtain ⟨x, hx, rfl⟩ := List.mem_map.1 ho
    by_cases hsame : x = obligation
    · rw [if_pos hsame]
      rfl
    · rw [if_neg hsame] at hokey
      exact absurd (hself x hx hokey) hsame
  · next hsame =>
    refine ⟨s, rfl, Extended.refl, fun o ho hokey => ?_⟩
    rw [hself o ho hokey]
    exact not_not.1 fun hne => hsame (Or.inl hne)

theorem subject_mem_references {candidate : Candidate} (h : candidate ∈ candidates r s) :
    candidate.subject.subjectRef ∈ s.planner.references := by
  have hlatest : ∀ {namespace_ : NamespaceName}, ∀ fact ∈ latestOf s namespace_,
      fact.subjectRef ∈ s.planner.references := fun fact hfact =>
    s.planner.referenced fact (List.mem_filter.1 (latestBySubject_subset hfact)).1
  have hunusual : ∀ (processes : List FactRecord) (known : List Candidate),
      processes ⊆ latestOf s .process → (∀ c ∈ known, c.subject.subjectRef ∈ s.planner.references) →
      ∀ c ∈ processes.foldl (addUnusual r) known, c.subject.subjectRef ∈ s.planner.references := by
    intro processes
    induction processes with
    | nil => exact fun known _ hknown => hknown
    | cons process rest ih =>
      intro known hsub hknown
      refine ih _ (fun p hp => hsub (List.mem_cons_of_mem _ hp)) fun c hc => ?_
      rw [addUnusual] at hc
      split at hc
      · rcases List.mem_append.1 hc with hold | hnew
        · exact hknown c hold
        · rw [List.mem_singleton.1 hnew]
          exact hlatest process (hsub List.mem_cons_self)
      · exact hknown c hc
  rw [candidates] at h
  split at h
  · refine hunusual _ _ (List.Subset.refl _) (fun c hc => ?_) candidate h
    obtain ⟨socket, hsocket, rfl⟩ := List.mem_map.1 hc
    rw [socketCandidate]
    split
    · next process howner =>
      obtain ⟨pid, -, hpid⟩ := Option.bind_eq_some_iff.1 howner
      exact hlatest process (List.mem_filter.1 (List.mem_of_getLast? hpid)).1
    · exact hlatest socket (List.mem_filter.1 hsocket).1
  · cases h

theorem admit_subset : ∀ (slots : ℤ) (pending : List Candidate), admitFrom r s slots pending ⊆ pending
  | _, [] => List.Subset.refl _
  | slots, candidate :: rest => by
    rw [admitFrom]
    split
    · exact fun c hc => List.mem_cons_of_mem _ (admit_subset _ rest hc)
    · exact List.cons_subset_cons _ (admit_subset _ rest)

theorem mem_admitted {candidate : Candidate} (h : candidate ∈ admitted r s) :
    candidate ∈ pendingCandidates r s :=
  List.mem_of_mem_take (admit_subset _ _ h)

/-- A call asks for the jobs of the candidates it admits, and brings the scope up to date. -/
theorem plan_extends (r : PlanRuntime) (s : VolatileStore) : ∃ result s', (plan r).run s = (.ok result, s') ∧
    Extended r ((admitted r s).flatMap jobsOf) s s' ∧
    (.linuxIntrusionTriage ∈ s.planner.checks → ScopeHas s' (discoveryStatus s.planner
      (decide ((admitted r s).length < (pendingCandidates r s).length)))) := by
  by_cases htriage : .linuxIntrusionTriage ∈ s.planner.checks
  · have hgather : Extends r (Program.gather (planCandidate r) (admitted r s))
        ((admitted r s).flatMap jobsOf) s := by
      refine extends_gather fun candidate hcandidate s' hinputs => planCandidate_extends ?_
      have href : s'.planner.references = s.planner.references := congrArg (·.2.2.1) hinputs
      rw [href]
      exact subject_mem_references (List.mem_filter.1 (mem_admitted hcandidate)).1
    obtain ⟨planned, s₁, hplanned, hextended⟩ := hgather.returned
    have hlength : planned.length = (admitted r s).length := Program.gather_length hplanned
    let limitReached := decide (planned.length < (pendingCandidates r s).length)
    obtain ⟨obligation, planner, hput, hextended₁, hstored, hkey, -⟩ := putObligation_extends (r := r) (s := s₁)
      (scopeObligation r limitReached s₁.planner) rfl
    have hupdate : onPlanner (fun s => putObligation (scopeObligation r limitReached s) s) s₁ =
        .ok (obligation, { s₁ with planner }) := by
      rw [onPlanner, hput]
      rfl
    obtain ⟨s₂, hsettle, hextended₂, hscope⟩ := settleScope_returned (r := r) (s := { s₁ with planner })
      limitReached hstored hkey
    have hall := (hextended.trans hextended₁).trans hextended₂
    rw [List.append_nil, List.append_nil] at hall
    let operations := planned.flatMap (·.2)
    refine ⟨⟨planned.map (·.1), Js.distinct (operations.map (·.1) ++ [obligation.obligationId]),
      Js.distinct (operations.map (·.2))⟩, putCheckpoint r s planned.length s₂, ?_,
      ⟨hall.inputs, hall.entries⟩, fun _ => ?_⟩
    · rw [plan, Program.gets_bind, id_eq, if_pos htriage, Program.bind_returned hplanned]
      rw [Program.bind_returned (Program.update_returned hupdate),
        Program.bind_returned (Program.write_returned hsettle)]
      exact Program.bind_returned (Program.write_returned rfl)
    · have hstatus := discoveryStatus_congr (hextended₁.inputs.trans hextended.inputs) limitReached
      rw [← hlength]
      intro o ho hokey
      exact (hscope o ho hokey).trans hstatus
  · have hnone : admitted r s = [] := by
      have hcandidates : candidates r s = [] := if_neg htriage
      rw [admitted, pendingCandidates, hcandidates]
      rfl
    refine ⟨⟨[], [], []⟩, s, ?_, ?_, fun h => absurd h htriage⟩
    · rw [plan, Program.gets_bind, id_eq, if_neg htriage]
      rfl
    · rw [hnone]
      exact Extended.refl

/-! ### Call after call -/

/-- The operations of the candidates. -/
def pool (r : PlanRuntime) (s : VolatileStore) (job : Job) : Prop :=
  ∃ candidate ∈ candidates r s, job ∈ jobsOf candidate

/-- Between two calls the facts stay, and what happens to the actions is that their work goes on. -/
structure Quiet (s s' : VolatileStore) : Prop where
  facts : s'.planner.facts = s.planner.facts
  checks : s'.planner.checks = s.planner.checks
  columns : s'.planner.investigation.actions.rows.map columns = s.planner.investigation.actions.rows.map columns
  origin : s'.origin = s.origin

/-- Calls one after another, with quiet times between them; the digests tell operations apart, and each call
    finds room for all the operations of a candidate. -/
structure Calls where
  runtime : ℕ → PlanRuntime
  store : ℕ → VolatileStore
  texts : ∀ n, (runtime n).texts = (runtime 0).texts
  digestObject : ∀ n, (runtime n).digestObject = (runtime 0).digestObject
  taskId : ∀ n, (runtime n).taskId = (runtime 0).taskId
  epochId : ∀ n, (runtime n).epochId = (runtime 0).epochId
  quiet : ∀ n, Quiet ((plan (runtime n)).run (store n)).2 (store (n + 1))
  room : ∀ n subject, ((operationsFor subject).length : ℤ) ≤ availableSlots (store n)
  separated : Separated (volatileJobs (runtime 0)) (pool (runtime 0) (store 0))

/-- No operation that discovery has still to request is held by an action of somebody else. -/
def Unclaimed (r : PlanRuntime) (s : VolatileStore) : Prop :=
  ∀ candidate ∈ candidates r s, ∀ operation ∈ missingOperations r s candidate,
    ∀ a ∈ s.planner.investigation.actions.rows, a.idempotencyKey ≠ jobKey r (candidate.subject, operation)

namespace Calls

variable (calls : Calls)

def called (n : ℕ) : Except Thrown DiscoveryPlanResult × VolatileStore :=
  (plan (calls.runtime n)).run (calls.store n)

def pendingAt (n : ℕ) : List Candidate := pendingCandidates (calls.runtime n) (calls.store n)

/-- From some call on no candidate is pending, and the scope is not limited for want of room in the queue. -/
def Drains : Prop := ∃ m, ∀ n, m ≤ n → calls.pendingAt n = [] ∧ (∃ result, (calls.called n).1 = .ok result) ∧
  (.linuxIntrusionTriage ∈ (calls.store n).planner.checks →
    ScopeHas (calls.called n).2 (discoveryStatus (calls.store n).planner false))

variable {calls}

theorem called_extends (n : ℕ) : (∃ result, (calls.called n).1 = .ok result) ∧
    Extended (calls.runtime n) ((admitted (calls.runtime n) (calls.store n)).flatMap jobsOf) (calls.store n)
      (calls.called n).2 ∧
    (.linuxIntrusionTriage ∈ (calls.store n).planner.checks → ScopeHas (calls.called n).2
      (discoveryStatus (calls.store n).planner
        (decide ((admitted (calls.runtime n) (calls.store n)).length < (calls.pendingAt n).length)))) := by
  obtain ⟨result, s', hrun, hextended, hscope⟩ := plan_extends (calls.runtime n) (calls.store n)
  rw [called, hrun]
  exact ⟨⟨result, rfl⟩, hextended, hscope⟩

theorem volatileJobs_runtime (n : ℕ) : volatileJobs (calls.runtime n) = volatileJobs (calls.runtime 0) := by
  have hkey : jobKey (calls.runtime n) = jobKey (calls.runtime 0) := by
    funext job
    rw [jobKey, jobKey, idempotencyKey, idempotencyKey, calls.digestObject n, calls.taskId n, calls.epochId n]
  simp only [volatileJobs, hkey, originOf, operationText, calls.digestObject n]

theorem candidates_eq {r r' : PlanRuntime} {s s' : VolatileStore} (htexts : r'.texts = r.texts)
    (hfacts : s'.planner.facts = s.planner.facts) (hchecks : s'.planner.checks = s.planner.checks) :
    candidates r' s' = candidates r s := by
  have hunusual : addUnusual r' = addUnusual r := by
    funext known process
    rw [addUnusual, addUnusual, isUnusual, isUnusual, htexts]
  rw [candidates, candidates, latestOf, latestOf, latestOf, latestOf, hfacts, hchecks, hunusual]

theorem candidates_at (n : ℕ) :
    candidates (calls.runtime n) (calls.store n) = candidates (calls.runtime 0) (calls.store 0) := by
  have hinputs : ∀ n, (calls.store n).planner.facts = (calls.store 0).planner.facts ∧
      (calls.store n).planner.checks = (calls.store 0).planner.checks := by
    intro n
    induction n with
    | zero => exact ⟨rfl, rfl⟩
    | succ n ih =>
      have hinputs := (@called_extends calls n).2.1.inputs
      exact ⟨((calls.quiet n).facts.trans (congrArg (·.1) hinputs)).trans ih.1,
        ((calls.quiet n).checks.trans (congrArg (·.2.1) hinputs)).trans ih.2⟩
  exact candidates_eq (calls.texts n) (hinputs n).1 (hinputs n).2

/-- The jobs of the first call are those of all of them. -/
def allJobs (calls : Calls) : Jobs String ActionOrigin (String × String) Job := volatileJobs (calls.runtime 0)

def jobPool (calls : Calls) : Job → Prop := pool (calls.runtime 0) (calls.store 0)

theorem entries_succ (n : ℕ) : entries (calls.store (n + 1)) = addAll (allJobs calls) (entries (calls.store n))
    ((admitted (calls.runtime n) (calls.store n)).flatMap jobsOf) := by
  rw [allJobs, ← volatileJobs_runtime n, ← (@called_extends calls n).2.1.entries]
  exact entries_congr (calls.quiet n).columns (calls.quiet n).origin

theorem admitted_pool (n : ℕ) :
    ∀ job ∈ (admitted (calls.runtime n) (calls.store n)).flatMap jobsOf, jobPool calls job := by
  intro job hjob
  obtain ⟨candidate, hcandidate, hjob⟩ := List.mem_flatMap.1 hjob
  have hmem := (List.mem_filter.1 (mem_admitted hcandidate)).1
  rw [candidates_at] at hmem
  exact ⟨candidate, hmem, hjob⟩

theorem mem_missing {n : ℕ} {candidate : Candidate} {operation : VolatileOperation} :
    operation ∈ missingOperations (calls.runtime n) (calls.store n) candidate ↔
      operation ∈ operationsFor candidate.subject ∧
        ¬ Done (allJobs calls) (entries (calls.store n)) ((allJobs calls).mark (candidate.subject, operation)) := by
  rw [missingOperations, List.mem_filter, Bool.not_eq_true', ← Bool.not_eq_true,
    isPlanned_iff (r := calls.runtime n), volatileJobs_runtime n]
  have hmark : operationText (calls.runtime n) operation = operationText (calls.runtime 0) operation := by
    rw [operationText, operationText, calls.digestObject n]
  rw [hmark]
  exact Iff.rfl

theorem mem_pendingAt {n : ℕ} {candidate : Candidate} : candidate ∈ calls.pendingAt n ↔
    candidate ∈ candidates (calls.runtime 0) (calls.store 0) ∧ ∃ job ∈ jobsOf candidate,
      ¬ Done (allJobs calls) (entries (calls.store n)) ((allJobs calls).mark job) := by
  rw [pendingAt, pendingCandidates, List.mem_filter, candidates_at, decide_eq_true_eq]
  refine and_congr_right fun _ => ?_
  constructor
  · intro hne
    obtain ⟨operation, hoperation⟩ := List.exists_mem_of_ne_nil _ hne
    obtain ⟨hmem, hnot⟩ := mem_missing.1 hoperation
    exact ⟨(candidate.subject, operation), List.mem_map_of_mem hmem, hnot⟩
  · rintro ⟨job, hjob, hnot⟩
    obtain ⟨operation, hoperation, rfl⟩ := List.mem_map.1 hjob
    exact List.ne_nil_of_mem (mem_missing.2 ⟨hoperation, hnot⟩)

/-- The first pending candidate is admitted. -/
theorem head_admitted {n : ℕ} {candidate : Candidate} {rest : List Candidate}
    (h : calls.pendingAt n = candidate :: rest) : candidate ∈ admitted (calls.runtime n) (calls.store n) := by
  have hroom := calls.room n candidate.subject
  have hmissing : ((missingOperations (calls.runtime n) (calls.store n) candidate).length : ℤ) ≤
      (operationsFor candidate.subject).length := by
    exact_mod_cast List.length_filter_le _ _
  have htake : (pendingCandidates (calls.runtime n) (calls.store n)).take candidateBatchSize =
      candidate :: rest.take (candidateBatchSize - 1) := by
    have hpending : pendingCandidates (calls.runtime n) (calls.store n) = candidate :: rest := h
    rw [hpending, candidateBatchSize]
    rfl
  rw [admitted, htake, admitFrom, if_neg (not_lt.2 (hmissing.trans hroom))]
  exact List.mem_cons_self

/-- Where no job is stuck, a call leaves none stuck and fewer candidates pending, if any were. -/
theorem clean_succ {n : ℕ} (h : Clean (allJobs calls) (jobPool calls) (entries (calls.store n))) :
    Clean (allJobs calls) (jobPool calls) (entries (calls.store (n + 1))) ∧
      (calls.pendingAt (n + 1)).length ≤ (calls.pendingAt n).length - 1 := by
  have hseparated : Separated (allJobs calls) (jobPool calls) := calls.separated
  obtain ⟨hclean, hdone⟩ := h.addAll hseparated (admitted_pool n)
  rw [← entries_succ] at hclean hdone
  refine ⟨hclean, ?_⟩
  have hfewer : ∀ candidate ∈ calls.pendingAt (n + 1), candidate ∈ calls.pendingAt n := by
    intro candidate hcandidate
    obtain ⟨hmem, job, hjob, hnot⟩ := mem_pendingAt.1 hcandidate
    refine mem_pendingAt.2 ⟨hmem, job, hjob, fun hbefore => hnot ?_⟩
    rw [entries_succ]
    exact done_addAll hbefore
  have hsublist : (calls.pendingAt (n + 1)).Sublist (calls.pendingAt n) := by
    have hfilter : calls.pendingAt (n + 1) =
        (calls.pendingAt n).filter fun candidate => candidate ∈ calls.pendingAt (n + 1) := by
      have hown : ∀ k, calls.pendingAt k = (candidates (calls.runtime 0) (calls.store 0)).filter
          fun candidate => candidate ∈ calls.pendingAt k := by
        intro k
        conv_lhs => rw [pendingAt, pendingCandidates, candidates_at]
        refine List.filter_congr fun candidate hcandidate => decide_eq_decide.2 ?_
        rw [pendingAt, pendingCandidates, List.mem_filter, candidates_at, decide_eq_true_eq,
          and_iff_right hcandidate]
      conv_rhs => rw [hown n, List.filter_filter]
      conv_lhs => rw [hown (n + 1)]
      refine List.filter_congr fun candidate _ => ?_
      rw [← Bool.decide_and]
      exact decide_eq_decide.2 ⟨fun h => ⟨h, hfewer candidate h⟩, And.left⟩
    rw [hfilter]
    exact List.filter_sublist
  cases hpending : calls.pendingAt n with
  | nil =>
    rw [hpending] at hsublist
    rw [List.sublist_nil.1 hsublist]
    exact Nat.zero_le _
  | cons candidate rest =>
    have hlt : (calls.pendingAt (n + 1)).length < (calls.pendingAt n).length := by
      refine lt_of_le_of_ne hsublist.length_le fun hlength => ?_
      have hsame := hsublist.eq_of_length hlength
      have hmem : candidate ∈ calls.pendingAt (n + 1) := by
        rw [hsame, hpending]
        exact List.mem_cons_self
      obtain ⟨-, job, hjob, hnot⟩ := mem_pendingAt.1 hmem
      exact hnot (hdone job (List.mem_flatMap.2 ⟨candidate, head_admitted hpending, hjob⟩))
    rw [hpending] at hlt
    exact Nat.le_sub_one_of_lt hlt

theorem clean_iff : Clean (allJobs calls) (jobPool calls) (entries (calls.store 0)) ↔
    Unclaimed (calls.runtime 0) (calls.store 0) := by
  constructor
  · intro h candidate hcandidate operation hoperation a ha hkey
    obtain ⟨hmem, hnot⟩ := mem_missing.1 hoperation
    exact h (candidate.subject, operation) ⟨candidate, hcandidate, List.mem_map_of_mem hmem⟩
      ⟨hnot, mem_keys.2 ⟨a, ha, hkey⟩⟩
  · rintro h job ⟨candidate, hcandidate, hjob⟩ ⟨hnot, hkey⟩
    obtain ⟨operation, hoperation, rfl⟩ := List.mem_map.1 hjob
    obtain ⟨a, ha, hkey⟩ := mem_keys.1 hkey
    exact h candidate hcandidate operation (mem_missing.2 ⟨hoperation, hnot⟩) a ha hkey

/-- A candidate with a stuck job is pending in every call. -/
theorem stuck_at {job : Job} (hjob : jobPool calls job) (h : Stuck (allJobs calls) (entries (calls.store 0)) job)
    (n : ℕ) : Stuck (allJobs calls) (entries (calls.store n)) job := by
  induction n with
  | zero => exact h
  | succ n ih =>
    rw [entries_succ]
    exact ih.addAll calls.separated hjob (admitted_pool n)

/-- The calls drain the candidates exactly when none of the operations that discovery has still to request is
    held by an action that others have requested. -/
theorem drains_iff (calls : Calls) : calls.Drains ↔ Unclaimed (calls.runtime 0) (calls.store 0) := by
  rw [← clean_iff]
  constructor
  · rintro ⟨m, hdrained⟩ job ⟨candidate, hcandidate, hjob⟩ hstuck
    have hmem : candidate ∈ calls.pendingAt m :=
      mem_pendingAt.2 ⟨hcandidate, job, hjob, (stuck_at ⟨candidate, hcandidate, hjob⟩ hstuck m).1⟩
    rw [(hdrained m le_rfl).1] at hmem
    cases hmem
  · intro hclean
    have hrun : ∀ n, Clean (allJobs calls) (jobPool calls) (entries (calls.store n)) ∧
        (calls.pendingAt n).length ≤ (calls.pendingAt 0).length - n := by
      intro n
      induction n with
      | zero => exact ⟨hclean, le_rfl⟩
      | succ n ih =>
        obtain ⟨hclean, hlength⟩ := clean_succ ih.1
        exact ⟨hclean, by omega⟩
    refine ⟨(calls.pendingAt 0).length, fun n hn => ?_⟩
    have hnone : calls.pendingAt n = [] := by
      have hlength := (hrun n).2
      exact List.length_eq_zero_iff.1 (by omega)
    obtain ⟨hreturned, -, hscope⟩ := @called_extends calls n
    rw [hnone] at hscope
    exact ⟨hnone, hreturned, hscope⟩

end Calls

/-! ### A socket that a playbook was quicker to plan -/

theorem length_operationsFor (subject : FactRecord) : (operationsFor subject).length ≤ 9 := by
  rw [operationsFor]
  split
  · exact le_rfl
  · exact (by decide : 2 ≤ 9)

section

variable (r : PlanRuntime) (s : VolatileStore)

/-- The store after `n` calls with nothing between them. -/
def storeAfter (n : ℕ) : VolatileStore := n.rec s fun _ s => ((plan r).run s).2

variable {r s}

/-- Where the keys of all the operations are held, calls add nothing. -/
theorem storeAfter_same (hheld : ∀ job, pool r s job → jobKey r job ∈ (entries s).map Prod.fst) (n : ℕ) :
    entries (storeAfter r s n) = entries s ∧ inputs (storeAfter r s n) = inputs s := by
  induction n with
  | zero => exact ⟨rfl, rfl⟩
  | succ n ih =>
    obtain ⟨result, s', hrun, hextended, -⟩ := plan_extends r (storeAfter r s n)
    have hnext : storeAfter r s (n + 1) = s' := congrArg (·.2) hrun
    rw [hnext]
    refine ⟨?_, hextended.inputs.trans ih.2⟩
    rw [hextended.entries, ih.1]
    refine addAll_held fun job hjob => hheld job ?_
    obtain ⟨candidate, hcandidate, hjob⟩ := List.mem_flatMap.1 hjob
    have hmem := (List.mem_filter.1 (mem_admitted hcandidate)).1
    rw [Calls.candidates_eq rfl (congrArg (·.1) ih.2) (congrArg (·.2.1) ih.2)] at hmem
    exact ⟨candidate, hmem, hjob⟩

/-- No more actions are live than there are entries. -/
theorem live_le_entries (s : VolatileStore) :
    (s.planner.investigation.listInvestigationActions.filter fun a => a.status.isLive).length ≤
      (entries s).length := by
  refine (List.length_filter_le _ _).trans ?_
  rw [entries, List.length_map]
  exact Nat.le_of_eq (List.length_insertionSort _ _)

theorem room_storeAfter (hheld : ∀ job, pool r s job → jobKey r job ∈ (entries s).map Prod.fst)
    (hroom : (entries s).length + 9 ≤ maxActiveInvestigationActions) (n : ℕ) (subject : FactRecord) :
    ((operationsFor subject).length : ℤ) ≤ availableSlots (storeAfter r s n) := by
  have hlive := live_le_entries (storeAfter r s n)
  rw [(storeAfter_same hheld n).1] at hlive
  have hoperations := length_operationsFor subject
  rw [availableSlots]
  omega

end

theorem runtime_steady {α : Type} (field : PlanRuntime → α) (r : PlanRuntime) : ∀ _ : ℕ, field r = field r :=
  fun _ => rfl

/-- Calls with nothing between them. -/
def Calls.repeated (r : PlanRuntime) (s : VolatileStore)
    (room : ∀ n subject, ((operationsFor subject).length : ℤ) ≤ availableSlots (storeAfter r s n))
    (separated : Separated (volatileJobs r) (pool r s)) : Calls where
  runtime _ := r
  store := storeAfter r s
  texts := runtime_steady PlanRuntime.texts r
  digestObject := runtime_steady PlanRuntime.digestObject r
  taskId := runtime_steady PlanRuntime.taskId r
  epochId := runtime_steady PlanRuntime.epochId r
  quiet _ := ⟨rfl, rfl, rfl, rfl⟩
  room := room
  separated := separated

/-- Fields and values one after the other, as a digest that tells small records apart. -/
def spelledOut : Json → String
  | .obj fields => String.join (fields.map fun (name, value) => name ++ "=" ++
      (match value with | .str text => text | .num number => toString number.num | _ => "") ++ ";")
  | _ => ""

def spelledRuntime : PlanRuntime := { sampleRuntime with digestObject := spelledOut }

def playbookOrigin (operation : VolatileOperation) : ActionOrigin :=
  { originOf spelledRuntime "OBJ-1" operation with requestedBy := .playbook }

def playbookAction (actionId : String) (job : Job) : InvestigationAction where
  actionId := actionId
  idempotencyKey := jobKey spelledRuntime job
  obligationIds := []
  dependsOn := []
  authorizationVersion := "v1"
  replayPolicy := job.2.replayPolicy
  priority := 0
  status := .succeeded
  revision := 2
  resultRefs := some []
  error := none
  createdAt := 0

def takenSocket : FactRecord := socketFact 1 "OBJ-1" "7"

/-- A playbook has planned both operations of the socket, as it plans any external socket. -/
def takenStore : VolatileStore :=
  let initial := sampleVolatile [takenSocket] (by decide)
  let actions := IndexedTable.empty.insertOrIgnore
    (playbookAction "IACT-1" (takenSocket, relate takenSocket "BIND_SOCKET_OWNER" "owned_by" 20))
  let actions := actions.insertOrIgnore
    (playbookAction "IACT-2" (takenSocket, queryFacts takenSocket "CHECK_SOCKET_COUNTEREVIDENCE" "socket"))
  { initial with
    planner := { initial.planner with investigation := ⟨.empty, actions, .empty⟩ }
    origin := fun actionId => playbookOrigin (if actionId = "IACT-1" then
        relate takenSocket "BIND_SOCKET_OWNER" "owned_by" 20
      else queryFacts takenSocket "CHECK_SOCKET_COUNTEREVIDENCE" "socket") }

theorem pool_mem {s : VolatileStore} {job : Job} (h : pool spelledRuntime s job) :
    job ∈ (candidates spelledRuntime s).flatMap jobsOf :=
  let ⟨candidate, hcandidate, hjob⟩ := h
  List.mem_flatMap.2 ⟨candidate, hcandidate, hjob⟩

/-- The spelled out keys and texts of the operations tell them apart. -/
def apart (s : VolatileStore) : Bool :=
  let jobs := (candidates spelledRuntime s).flatMap jobsOf
  jobs.all fun i => jobs.all fun j =>
    decide ((volatileJobs spelledRuntime).key i = (volatileJobs spelledRuntime).key j ↔
      (volatileJobs spelledRuntime).mark i = (volatileJobs spelledRuntime).mark j)

theorem separated_of_apart {s : VolatileStore} (h : apart s = true) :
    Separated (volatileJobs spelledRuntime) (pool spelledRuntime s) := fun i j hi hj =>
  of_decide_eq_true (List.all_eq_true.1 (List.all_eq_true.1 h i (pool_mem hi)) j (pool_mem hj))

/-- The keys of the operations are all held. -/
def held (s : VolatileStore) : Bool :=
  ((candidates spelledRuntime s).flatMap jobsOf).all fun job =>
    decide (jobKey spelledRuntime job ∈ (entries s).map Prod.fst)

theorem mem_of_held {s : VolatileStore} (h : held s = true) :
    ∀ job, pool spelledRuntime s job → jobKey spelledRuntime job ∈ (entries s).map Prod.fst := fun job hjob =>
  of_decide_eq_true (List.all_eq_true.1 h job (pool_mem hjob))

def takenCalls : Calls := .repeated spelledRuntime takenStore
  (room_storeAfter (mem_of_held (by decide +kernel)) (by decide)) (separated_of_apart (by decide +kernel))

/-- The socket is pending in every call, however often discovery asks for its operations. -/
theorem not_drains_taken : ¬ takenCalls.Drains ∧ ∀ n, takenCalls.pendingAt n ≠ [] := by
  let job : Job := (takenSocket, relate takenSocket "BIND_SOCKET_OWNER" "owned_by" 20)
  have hcandidate : ⟨takenSocket, [takenSocket], "EXTERNAL_CONNECTION", 90⟩ ∈
      candidates spelledRuntime takenStore := by decide
  have hjob : job ∈ jobsOf ⟨takenSocket, [takenSocket], "EXTERNAL_CONNECTION", 90⟩ := by decide
  have hkey : jobKey spelledRuntime job ∈ (entries takenStore).map Prod.fst := by decide
  have hnot : isPlanned takenStore "OBJ-1" (operationText spelledRuntime job.2) = false := by decide
  have hstuck : Stuck (Calls.allJobs takenCalls) (entries (takenCalls.store 0)) job := by
    refine ⟨fun hdone => ?_, hkey⟩
    have hplanned := isPlanned_iff.2 hdone
    exact absurd (hnot.symm.trans hplanned) Bool.false_ne_true
  have hpending : ∀ n, takenCalls.pendingAt n ≠ [] := fun n => List.ne_nil_of_mem (Calls.mem_pendingAt.2
    ⟨hcandidate, job, hjob, (Calls.stuck_at ⟨_, hcandidate, hjob⟩ hstuck n).1⟩)
  exact ⟨fun ⟨m, h⟩ => hpending m (h m le_rfl).1, hpending⟩

/-- Two sockets whose operations nobody has planned. -/
def freshStore : VolatileStore := sampleVolatile [takenSocket, socketFact 2 "OBJ-2" "8"] (by decide)

theorem storeAfter_succ (r : PlanRuntime) (s : VolatileStore) (n : ℕ) :
    storeAfter r s (n + 1) = storeAfter r (storeAfter r s 1) n := by
  induction n with
  | zero => rfl
  | succ n ih => exact congrArg (fun s => ((plan r).run s).2) ih

theorem room_fresh (n : ℕ) (subject : FactRecord) :
    ((operationsFor subject).length : ℤ) ≤ availableSlots (storeAfter spelledRuntime freshStore n) := by
  cases n with
  | zero => exact (Int.ofNat_le.2 (length_operationsFor subject)).trans (by decide +kernel)
  | succ n =>
    rw [storeAfter_succ]
    exact room_storeAfter (mem_of_held (by decide +kernel)) (by decide +kernel) n subject

def freshCalls : Calls := .repeated spelledRuntime freshStore room_fresh (separated_of_apart (by decide +kernel))

/-- Both sockets are pending at first, and then none. -/
theorem drains_iff_fresh : (freshCalls.pendingAt 0).length = 2 ∧ freshCalls.Drains :=
  ⟨by decide +kernel, (Calls.drains_iff freshCalls).2 fun _ _ _ _ a ha => nomatch ha⟩

end HuntWarden.VolatileDiscovery
