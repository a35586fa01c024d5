import HuntWarden.Runtime.GrantDecisions

/-! What becomes of a revoked grant. The grants of the categories are put only where there never was one;
    those of the probes and of the roots of a preset are put where none is active, so that a bootstrap or a
    preset puts again what the analyst has revoked. -/

namespace HuntWarden.Grants

open Outcome GrantStore

section

variable (ids : IdSupply) (digestObject : Json → String)

/-- Grants of the same thing. -/
structure SameBinding (grant grant' : TaskGrant) : Prop where
  task : grant.taskId = grant'.taskId
  kind : grant.kind = grant'.kind
  target : grant.targetFingerprint = grant'.targetFingerprint
  binding : digestObject (.obj grant.binding) = digestObject (.obj grant'.binding)

/-- What an operation puts by itself, each as its kind and its binding. -/
def automatic (s : GrantStore) : Timed → List (TaskContext × GrantKind × Payload)
  | (_, .ensureCategoryGrants task checks) =>
    (missingCategories s task checks).map fun category => (task, .category, categoryBinding category)
  | (_, .ensureInitialProbeGrants task checks advertised) =>
    (missingProbes s task checks advertised).map fun probeKind =>
      (task, .probe, probeBinding probeKind)
  | (_, .ensurePresetScope task binding) =>
    match presetScope digestObject s task binding with
    | some _ => []
    | none => [(task, .scope, binding)]
  | _ => []

/-- No grant of this thing has been revoked. -/
def NeverRevoked (s : GrantStore) (new : TaskContext × GrantKind × Payload) : Prop :=
  ∀ grant ∈ s.grants.rows, grant.status = .revoked → grant.taskId = new.1.taskId →
    grant.targetFingerprint = new.1.hostFingerprint → grant.kind = new.2.1 →
      digestObject (.obj grant.binding) ≠ digestObject (.obj new.2.2)

/-- A bootstrap or a preset does not put the grant of a probe or of a root that has been revoked. -/
def Respects (s : System) (op : Timed) : Prop :=
  ∀ new ∈ automatic digestObject s.store op, new.2.1 ≠ .category → NeverRevoked digestObject s.store new

instance (grant grant' : TaskGrant) : Decidable (SameBinding digestObject grant grant') :=
  decidable_of_iff (grant.taskId = grant'.taskId ∧ grant.kind = grant'.kind ∧
      grant.targetFingerprint = grant'.targetFingerprint ∧
      digestObject (.obj grant.binding) = digestObject (.obj grant'.binding))
    ⟨fun ⟨htask, hkind, htarget, hbinding⟩ => ⟨htask, hkind, htarget, hbinding⟩,
      fun ⟨htask, hkind, htarget, hbinding⟩ => ⟨htask, hkind, htarget, hbinding⟩⟩

instance (s : GrantStore) (new : TaskContext × GrantKind × Payload) :
    Decidable (NeverRevoked digestObject s new) :=
  inferInstanceAs (Decidable (∀ grant ∈ s.grants.rows, _))

instance (s : System) (op : Timed) : Decidable (Respects digestObject s op) :=
  inferInstanceAs (Decidable (∀ new ∈ automatic digestObject s.store op, _))

/-- The grants of categories are those of the bootstrap, and every grant of a request is on record. -/
structure Recorded (s : System) : Prop where
  categories : ∀ grant ∈ s.store.grants.rows, grant.kind = .category →
    ∃ category, grant.binding = categoryBinding category
  origins : ∀ origin ∈ s.origins, ∃ grant ∈ s.store.grants.rows, grant.grantId = origin.1

/-- The digest tells the categories apart. -/
def DigestsCategories : Prop :=
  ∀ category category' : CheckCategory, digestObject (.obj (categoryBinding category)) =
    digestObject (.obj (categoryBinding category')) → category = category'

end

variable {ids : IdSupply} {digestObject : Json → String} {s s' : System}

/-! ### What is on record -/

theorem recorded_empty : Recorded .empty where
  categories := by simp [System.empty, GrantStore.empty]
  origins := by simp [System.empty]

/-- The grants and their origins are as they were. -/
theorem Recorded.of_eq (h : Recorded s) (hgrants : s'.store.grants = s.store.grants)
    (horigins : s'.origins = s.origins) : Recorded s' where
  categories := hgrants ▸ h.categories
  origins := by
    rw [hgrants, horigins]
    exact h.origins

theorem putTaskGrant_fresh {store store' : GrantStore} {grant : TaskGrant}
    (h : store.putTaskGrant grant = .ok store') :
    ∀ grant' ∈ store.grants.rows, grant'.grantId ≠ grant.grantId := by
  obtain ⟨_, -, h⟩ := bind_ok.1 h
  obtain ⟨grants, hgrants, -⟩ := bind_ok.1 h
  exact (Table.insert?_eq_some (orThrow_ok.1 hgrants)).1

theorem Recorded.putGrant (h : Recorded s) {now : ℕ} {task : TaskContext} {kind : GrantKind}
    {binding : Payload} (hbinding : kind = .category → ∃ category, binding = categoryBinding category) :
    Recorded (putGrant ids s now task kind binding) := by
  rcases putGrant_cases ids s now task kind binding with heq | ⟨store, hput, heq⟩ <;> rw [heq]
  · exact h
  have hrows := (putTaskGrant_ok hput).1
  refine ⟨?_, ?_⟩
  · intro grant hgrant hkind
    rcases List.mem_append.1 (hrows ▸ hgrant) with hold | hnew
    · exact h.categories grant hold hkind
    · obtain rfl := List.mem_singleton.1 hnew
      exact hbinding hkind
  · intro origin horigin
    obtain ⟨grant, hgrant, hid⟩ := h.origins origin horigin
    exact ⟨grant, hrows ▸ List.mem_append_left _ hgrant, hid⟩

theorem RequestKind.kind_ne_category (kind : RequestKind) : kind.kind ≠ .category := by
  cases kind <;> decide

/-- What an operation can do to the grants: nothing, put those of the initial policy or the one of a
    request, or revoke one. -/
inductive Change (ids : IdSupply) (digestObject : Json → String) (op : Timed) (s s' : System) : Prop where
  | same (hgrants : s'.store.grants = s.store.grants) (horigins : s'.origins = s.origins)
  | automatic (h : s' = (automatic digestObject s.store op).foldl
      (fun s new => putGrant ids s op.1 new.1 new.2.1 new.2.2) s)
  | approved (requestId : String) (grant : TaskGrant) (hkind : grant.kind ≠ .category)
      (hrows : s'.store.grants.rows = s.store.grants.rows ++ [grant])
      (horigins : s'.origins = s.origins ++ [(grant.grantId, requestId)])
      (hfresh : ∀ grant' ∈ s.store.grants.rows, grant'.grantId ≠ grant.grantId)
  | revoked (grant : TaskGrant) (reason : String) (hmem : grant ∈ s.store.grants.rows)
      (hactive : grant.status = .active)
      (hgrants : s'.store.grants = s.store.grants.set (revoked op.1 reason grant))
      (horigins : s'.origins = s.origins)

theorem change_activate {s₀ : System} {op : Timed} {now : ℕ} {d : Decision} {binding : Payload}
    {crash : Bool} (hstore : s₀.store = s.store) (horigins : s₀.origins = s.origins) :
    Change ids digestObject op s (activate ids s₀ now d binding crash) := by
  rw [activate]
  cases hput : s₀.store.putTaskGrant (granted ids s₀ now d.task d.request.kind.kind binding) with
  | error e => exact .same (congrArg GrantStore.grants hstore) horigins
  | ok store =>
    have hrows := (putTaskGrant_ok hput).1
    have hfresh := putTaskGrant_fresh hput
    rw [hstore] at hrows hfresh
    refine .approved d.request.requestId _ (RequestKind.kind_ne_category _) ?_ ?_ hfresh
    · cases crash with
      | true => exact hrows
      | false =>
        dsimp only
        rw [if_neg Bool.false_ne_true]
        cases hupdate : store.updateGrantRequest now d.request.requestId .approved with
        | error e => exact hrows
        | ok store' =>
          obtain ⟨_, -, -, -, -, hgrants⟩ := updateGrantRequest_ok hupdate
          exact (congrArg Table.rows hgrants).trans hrows
    · rw [← horigins]
      cases crash <;> rfl

theorem change_update {op : Timed} {now : ℕ} {requestId : String} {status : RequestStatus} :
    Change ids digestObject op s { s with
      store := transact s.store (s.store.updateGrantRequest now requestId status) } := by
  cases hupdate : s.store.updateGrantRequest now requestId status with
  | error e => exact .same rfl rfl
  | ok store =>
    obtain ⟨_, -, -, -, -, hgrants⟩ := updateGrantRequest_ok hupdate
    exact .same hgrants rfl

theorem step_change (op : Timed) : Change ids digestObject op s (step ids digestObject s op) := by
  obtain ⟨now, op⟩ := op
  cases op with
  | createRequest task kind binding => exact .same rfl rfl
  | decide requestId task approved connected crash =>
    rw [step, decideGrantRequest]
    cases checkDecision s.store requestId task with
    | error e => exact .same rfl rfl
    | ok d =>
      cases approved with
      | false => exact change_update
      | true =>
        dsimp only
        rw [Bool.not_true, if_neg Bool.false_ne_true]
        cases d.request.kind with
        | scope =>
          dsimp only
          split <;> exact .same rfl rfl
        | sensitiveRead => exact change_activate rfl rfl
  | answer position binding crash =>
    rw [step, answer.eq_def]
    cases s.inFlight[position]? with
    | none => exact .same rfl rfl
    | some d =>
      cases binding with
      | none => exact .same rfl rfl
      | some binding => exact change_activate rfl rfl
  | expirePending taskId => exact .same rfl rfl
  | restart => exact .same rfl rfl
  | revoke task grantId reason =>
    rw [step, revoke.eq_def]
    cases task with
    | none => exact .same rfl rfl
    | some task =>
      dsimp only
      split
      · cases hrevoke : s.store.revokeTaskGrant now task.taskId grantId reason with
        | error e => exact .same rfl rfl
        | ok store =>
          obtain ⟨grant, hmem, -, hactive, hgrants, -⟩ := revokeTaskGrant_ok hrevoke
          exact .revoked grant reason hmem hactive hgrants rfl
      · exact .same rfl rfl
  | ensureCategoryGrants task checks =>
    refine .automatic ?_
    rw [automatic, List.foldl_map]
    rfl
  | ensureInitialProbeGrants task checks advertised =>
    refine .automatic ?_
    rw [automatic, List.foldl_map]
    rfl
  | ensurePresetScope task binding =>
    refine .automatic ?_
    rw [automatic, step, ensurePresetScope]
    cases presetScope digestObject s.store task binding <;> rfl

/-! ### Every run -/

theorem automatic_category {op : Timed} {new : TaskContext × GrantKind × Payload}
    (h : new ∈ automatic digestObject s.store op) (hkind : new.2.1 = .category) :
    ∃ category, new.2.2 = categoryBinding category ∧
      some (.str category.name) ∉ grantedCategories s.store new.1.taskId := by
  obtain ⟨now, op⟩ := op
  cases op with
  | ensureCategoryGrants task checks =>
    obtain ⟨category, hcategory, rfl⟩ := List.mem_map.1 h
    exact ⟨category, rfl, of_decide_eq_true (List.mem_filter.1 hcategory).2⟩
  | ensureInitialProbeGrants task checks advertised =>
    obtain ⟨probeKind, -, rfl⟩ := List.mem_map.1 h
    cases hkind
  | ensurePresetScope task binding =>
    rw [automatic] at h
    cases hscope : presetScope digestObject s.store task binding with
    | some grant =>
      rw [hscope] at h
      cases h
    | none =>
      rw [hscope] at h
      obtain rfl := List.mem_singleton.1 h
      cases hkind
  | _ => cases h

theorem step_recorded (op : Timed) (h : Recorded s) : Recorded (step ids digestObject s op) := by
  cases @step_change ids digestObject s op with
  | same hgrants horigins => exact h.of_eq hgrants horigins
  | automatic heq =>
    rw [heq]
    refine List.foldlRecOn _ _ h fun _ h new hnew => h.putGrant fun hkind => ?_
    obtain ⟨category, hbinding, -⟩ := automatic_category hnew hkind
    exact ⟨category, hbinding⟩
  | approved requestId grant hkind hrows horigins hfresh =>
    refine ⟨?_, ?_⟩
    · rw [hrows]
      intro grant' hgrant' hcategory
      rcases List.mem_append.1 hgrant' with hold | hnew
      · exact h.categories grant' hold hcategory
      · obtain rfl := List.mem_singleton.1 hnew
        exact absurd hcategory hkind
    · rw [hrows, horigins]
      intro origin horigin
      rcases List.mem_append.1 horigin with hold | hnew
      · obtain ⟨grant', hgrant', hid⟩ := h.origins origin hold
        exact ⟨grant', List.mem_append_left _ hgrant', hid⟩
      · obtain rfl := List.mem_singleton.1 hnew
        exact ⟨grant, List.mem_append_right _ List.mem_cons_self, rfl⟩
  | revoked grant reason hmem hactive hgrants horigins =>
    refine ⟨?_, ?_⟩
    · rw [hgrants]
      intro grant' hgrant' hcategory
      rcases Table.mem_set.1 hgrant' with ⟨rfl, -⟩ | ⟨hold, -⟩
      · exact h.categories grant hmem hcategory
      · exact h.categories grant' hold hcategory
    · rw [hgrants, horigins]
      intro origin horigin
      obtain ⟨grant', hgrant', hid⟩ := h.origins origin horigin
      by_cases hsame : grant'.grantId = grant.grantId
      · exact ⟨_, Table.mem_set.2 (Or.inl ⟨rfl, grant, hmem, rfl⟩), hsame.symm.trans hid⟩
      · exact ⟨grant', Table.mem_set.2 (Or.inr ⟨hgrant', hsame⟩), hid⟩

/-- Since `s₀` the thing of a revoked grant has only become active again through a request. -/
structure Stays (digestObject : Json → String) (s₀ : System) (grant : TaskGrant) (s : System) : Prop where
  kept : grant ∈ s.store.grants.rows
  origins : ∀ origin ∈ s₀.origins, origin ∈ s.origins
  active : ∀ grant' ∈ s.store.grants.rows, grant'.status = .active →
    SameBinding digestObject grant grant' → grant' ∈ s₀.store.grants.rows ∨
      ∃ requestId, (grant'.grantId, requestId) ∈ s.origins ∧ (grant'.grantId, requestId) ∉ s₀.origins

variable {s₀ : System} {grant : TaskGrant}

/-- A grant of something else is put. -/
theorem Stays.putGrant (h : Stays digestObject s₀ grant s) {now : ℕ} {task : TaskContext}
    {kind : GrantKind} {binding : Payload}
    (hother : ¬ SameBinding digestObject grant (granted ids s now task kind binding)) :
    Stays digestObject s₀ grant (putGrant ids s now task kind binding) := by
  rcases putGrant_cases ids s now task kind binding with heq | ⟨store, hput, heq⟩ <;> rw [heq]
  · exact h
  have hrows := (putTaskGrant_ok hput).1
  refine ⟨hrows ▸ List.mem_append_left _ h.kept, h.origins, ?_⟩
  intro grant' hgrant' hactive hsame
  rcases List.mem_append.1 (hrows ▸ hgrant') with hold | hnew
  · exact h.active grant' hold hactive hsame
  · obtain rfl := List.mem_singleton.1 hnew
    exact absurd hsame hother

/-- What an operation puts by itself is not the thing of a revoked grant. -/
theorem automatic_other (hdigest : DigestsCategories digestObject) (hrecorded : Recorded s)
    (hmem : grant ∈ s.store.grants.rows) (hrevoked : grant.status = .revoked) {op : Timed}
    (hop : Respects digestObject s op) {new : TaskContext × GrantKind × Payload}
    (hnew : new ∈ automatic digestObject s.store op) (s₁ : System) (now : ℕ) :
    ¬ SameBinding digestObject grant (granted ids s₁ now new.1 new.2.1 new.2.2) := by
  rintro ⟨htask, hkind, htarget, hbinding⟩
  by_cases hcategory : new.2.1 = .category
  · obtain ⟨category, hnewBinding, hmissing⟩ := automatic_category hnew hcategory
    obtain ⟨category', hold⟩ := hrecorded.categories grant hmem (hkind.trans hcategory)
    have hsame : category' = category := by
      refine hdigest category' category ?_
      rw [← hold, ← hnewBinding]
      exact hbinding
    refine hmissing (List.mem_map.2 ⟨grant, ?_, ?_⟩)
    · exact List.mem_filter.2 ⟨List.mem_filter.2 ⟨hmem, decide_eq_true htask⟩,
        decide_eq_true (hkind.trans hcategory)⟩
    · rw [hold, hsame]
      rfl
  · exact hop new hnew hcategory grant hmem hrevoked htask htarget hkind hbinding

theorem step_stays (hdigest : DigestsCategories digestObject) (hrevoked : grant.status = .revoked)
    (hrecorded : Recorded s) (op : Timed) (hop : Respects digestObject s op)
    (h : Stays digestObject s₀ grant s) :
    Stays digestObject s₀ grant (step ids digestObject s op) := by
  cases @step_change ids digestObject s op with
  | same hgrants horigins =>
    refine ⟨hgrants ▸ h.kept, horigins ▸ h.origins, ?_⟩
    rw [hgrants, horigins]
    exact h.active
  | automatic heq =>
    rw [heq]
    refine List.foldlRecOn _ _ h fun s₁ h₁ new hnew => h₁.putGrant ?_
    exact automatic_other hdigest hrecorded h.kept hrevoked hop hnew s₁ _
  | approved requestId granted hkind hrows horigins hfresh =>
    refine ⟨hrows ▸ List.mem_append_left _ h.kept, ?_, ?_⟩
    · exact fun origin horigin => horigins ▸ List.mem_append_left _ (h.origins origin horigin)
    · rw [hrows, horigins]
      intro grant' hgrant' hactive hsame
      rcases List.mem_append.1 hgrant' with hmem | hnew
      · refine (h.active grant' hmem hactive hsame).imp_right ?_
        exact fun ⟨requestId, horigin, hnew⟩ => ⟨requestId, List.mem_append_left _ horigin, hnew⟩
      · obtain rfl := List.mem_singleton.1 hnew
        refine Or.inr ⟨requestId, List.mem_append_right _ List.mem_cons_self, fun horigin => ?_⟩
        obtain ⟨grant'', hmem, hid⟩ := hrecorded.origins _ (h.origins _ horigin)
        exact hfresh grant'' hmem hid
  | revoked revokedGrant reason hmem hactive hgrants horigins =>
    have hkept : grant.grantId ≠ revokedGrant.grantId := by
      intro hid
      have hsame : grant = revokedGrant := s.store.grants.eq_of_key h.kept hmem hid
      rw [hsame, hactive] at hrevoked
      cases hrevoked
    refine ⟨hgrants ▸ Table.mem_set.2 (Or.inr ⟨h.kept, hkept⟩), horigins ▸ h.origins, ?_⟩
    rw [hgrants, horigins]
    intro grant' hgrant' hactive' hsame
    rcases Table.mem_set.1 hgrant' with ⟨rfl, -⟩ | ⟨hmem', -⟩
    · cases hactive'
    · exact h.active grant' hmem' hactive' hsame

/-- As long as bootstraps and presets leave alone what has been revoked, a thing whose grant is revoked
    has an active one only if it had it then, or if a request for it has been approved since. -/
theorem revocation_permanent (hdigest : DigestsCategories digestObject) {ops ops' : List Timed}
    (hops : Runs.Along (step ids digestObject) (Respects digestObject) (runOps ids digestObject ops) ops')
    (hgrant : grant ∈ (runOps ids digestObject ops).store.grants.rows)
    (hrevoked : grant.status = .revoked) :
    ∀ grant' ∈ (runOps ids digestObject (ops ++ ops')).store.grants.rows, grant'.status = .active →
      SameBinding digestObject grant grant' →
        grant' ∈ (runOps ids digestObject ops).store.grants.rows ∨
          ∃ requestId, (grant'.grantId, requestId) ∈ (runOps ids digestObject (ops ++ ops')).origins ∧
            (grant'.grantId, requestId) ∉ (runOps ids digestObject ops).origins := by
  have hrecorded : Recorded (runOps ids digestObject ops) :=
    Runs.run_invariant (I := Recorded) (C := fun _ _ => True) (fun _ op h _ => step_recorded op h) ops
      _ recorded_empty (Runs.along_true _ _)
  have hstart : Stays digestObject (runOps ids digestObject ops) grant (runOps ids digestObject ops) :=
    ⟨hgrant, fun _ h => h, fun _ h _ _ => Or.inl h⟩
  have hend := Runs.run_invariant
    (I := fun s => Recorded s ∧ Stays digestObject (runOps ids digestObject ops) grant s)
    (fun _ op h hop => ⟨step_recorded op h.1, step_stays hdigest hrevoked h.1 op hop h.2⟩)
    ops' _ ⟨hrecorded, hstart⟩ hops
  rw [runOps, Runs.run_append]
  exact hend.2.active

/-! ### A probe and a root that are revoked -/

/-- The digest is the text of the probe, of the root or of the category. -/
def textDigest (binding : Json) : String :=
  let text := fun key => (binding.get? key).bind Json.asString?
  ((text "probeKind").orElse fun _ => (text "canonicalRoot").orElse fun _ => text "category").getD ""

theorem textDigest_digestsCategories : DigestsCategories textDigest := by
  intro category category'
  cases category <;> cases category' <;> decide

def checks : List CheckCategory := [.javaMemoryShell]

def probed : Timed := (1, .ensureInitialProbeGrants sampleTask checks ["jvm.class.dump"])

def rooted : Timed := (1, .ensurePresetScope sampleTask canonicalRoot)

def withdrawn : Timed := (2, .revoke (some sampleTask) "1" "not here")

def categorised : Timed := (3, .ensureCategoryGrants sampleTask checks)

def revokedProbe : TaskGrant where
  grantId := "1"
  taskId := "TASK-1"
  targetFingerprint := "SHA256:host"
  kind := .probe
  status := .revoked
  binding := probeBinding "jvm.class.dump"
  createdAt := 1
  revokedAt := some 2
  revocationReason := some "not here"

theorem revocation_permanent_sample :
    revokedProbe ∈ (runOps tallyIds textDigest [probed, withdrawn]).store.grants.rows ∧
    ∀ grant' ∈ (runOps tallyIds textDigest ([probed, withdrawn] ++ [categorised])).store.grants.rows,
      grant'.status = .active → SameBinding textDigest revokedProbe grant' →
        grant' ∈ (runOps tallyIds textDigest [probed, withdrawn]).store.grants.rows ∨
          ∃ requestId, (grant'.grantId, requestId) ∈
              (runOps tallyIds textDigest ([probed, withdrawn] ++ [categorised])).origins ∧
            (grant'.grantId, requestId) ∉ (runOps tallyIds textDigest [probed, withdrawn]).origins :=
  ⟨by decide,
    revocation_permanent textDigest_digestsCategories (by decide) (by decide) rfl⟩

/-- The same bootstrap, or the same preset, after the revocation: the thing is granted again, and nobody
    has been asked. -/
theorem granted_again :
    (∃ grant ∈ (runOps tallyIds textDigest [probed, withdrawn]).store.grants.rows,
      grant.status = .revoked ∧ (runOps tallyIds textDigest [probed, withdrawn, probed]).origins = [] ∧
      ∃ grant' ∈ (runOps tallyIds textDigest [probed, withdrawn, probed]).store.grants.rows,
        grant'.status = .active ∧ SameBinding textDigest grant grant') ∧
    (∃ grant ∈ (runOps tallyIds textDigest [rooted, withdrawn]).store.grants.rows,
      grant.status = .revoked ∧ (runOps tallyIds textDigest [rooted, withdrawn, rooted]).origins = [] ∧
      ∃ grant' ∈ (runOps tallyIds textDigest [rooted, withdrawn, rooted]).store.grants.rows,
        grant'.status = .active ∧ SameBinding textDigest grant grant') := by
  decide

end HuntWarden.Grants
