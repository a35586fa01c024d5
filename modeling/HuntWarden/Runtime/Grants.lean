import HuntWarden.Common.Ids
import HuntWarden.Domain.Types
import HuntWarden.Lib.Runs
import HuntWarden.Storage.Grants

/-! Everything that creates, decides and revokes grants. An approval of a scope waits for the answer of
    the target between the check of the request and the two writes that follow, and the process can stop
    between these; bootstraps and presets put the grants of the initial policy by themselves. -/

namespace HuntWarden.Grants

open Outcome GrantStore

/-- An approval that waits for `scope_resolve`, with the request and the task as they were checked. -/
structure Decision where
  request : GrantRequest
  task : TaskContext

/-- The store, the approvals under way, which request each grant was put for, and how many ids have been
    drawn. `origins` is written for the statements below only. -/
structure System where
  store : GrantStore
  inFlight : List Decision
  origins : List (String × String)
  drawn : ℕ

def System.empty : System := ⟨.empty, [], [], 0⟩

/-! ### The initial policy -/

/-- `INITIAL_GRANT_POLICY.probesByCategory` -/
def probesByCategory : CheckCategory → List String
  | .javaMemoryShell => ["jvm.tomcat.inventory", "jvm.class.inspect", "jvm.class.dump"]
  | _ => []

def categoryBinding (category : CheckCategory) : Payload := [("category", .str category.name)]

def probeBinding (probeKind : String) : Payload :=
  [("category", .str CheckCategory.javaMemoryShell.name), ("probeKind", .str probeKind)]

/-- The categories that have, or had, a grant. -/
def grantedCategories (s : GrantStore) (taskId : String) : List (Option Json) :=
  ((s.listTaskGrants taskId).filter fun grant => grant.kind = .category).map fun grant =>
    grant.binding.lookup "category"

/-- The probes that have an active grant. -/
def grantedProbes (s : GrantStore) (taskId : String) : List (Option Json) :=
  ((s.listTaskGrants taskId).filter fun grant => grant.kind = .probe ∧ grant.status = .active).map
    fun grant => grant.binding.lookup "probeKind"

def missingCategories (s : GrantStore) (task : TaskContext) (checks : List CheckCategory) :
    List CheckCategory :=
  checks.filter fun category => some (.str category.name) ∉ grantedCategories s task.taskId

def missingProbes (s : GrantStore) (task : TaskContext) (checks : List CheckCategory)
    (advertised : List String) : List String :=
  advertised.filter fun probeKind => probeKind ∈ checks.flatMap probesByCategory ∧
    some (.str probeKind) ∉ grantedProbes s task.taskId

section

variable (ids : IdSupply) (digestObject : Json → String)

/-- An active grant for the task. -/
def granted (s : System) (now : ℕ) (task : TaskContext) (kind : GrantKind) (binding : Payload) :
    TaskGrant where
  grantId := ids.createId .grant s.drawn
  taskId := task.taskId
  targetFingerprint := task.hostFingerprint
  kind
  status := .active
  binding
  createdAt := now

def putGrant (s : System) (now : ℕ) (task : TaskContext) (kind : GrantKind) (binding : Payload) :
    System :=
  match s.store.putTaskGrant (granted ids s now task kind binding) with
  | .ok store => { s with store, drawn := s.drawn + 1 }
  | .error _ => s

def ensureCategoryGrants (s : System) (now : ℕ) (task : TaskContext) (checks : List CheckCategory) :
    System :=
  (missingCategories s.store task checks).foldl
    (fun s category => putGrant ids s now task .category (categoryBinding category)) s

def ensureInitialProbeGrants (s : System) (now : ℕ) (task : TaskContext)
    (checks : List CheckCategory) (advertised : List String) : System :=
  (missingProbes s.store task checks advertised).foldl
    (fun s probeKind => putGrant ids s now task .probe (probeBinding probeKind)) s

/-- The active scope grant of a preset, if there is one. -/
def presetScope (s : GrantStore) (task : TaskContext) (binding : Payload) : Option TaskGrant :=
  (s.listTaskGrants task.taskId).find? fun grant => grant.kind = .scope ∧ grant.status = .active ∧
    digestObject (.obj grant.binding) = digestObject (.obj binding)

/-- What the fan-outs of a preset do with the root they have resolved. -/
def ensurePresetScope (s : System) (now : ℕ) (task : TaskContext) (binding : Payload) : System :=
  match presetScope digestObject s.store task binding with
  | some _ => s
  | none => putGrant ids s now task .scope binding

/-! ### Requests and decisions -/

def createRequest (s : System) (now : ℕ) (task : TaskContext) (kind : RequestKind)
    (binding : Payload) : System :=
  { s with
    store := s.store.putGrantRequest {
      requestId := ids.createId .grantRequest s.drawn
      taskId := task.taskId
      targetFingerprint := task.hostFingerprint
      kind
      status := .pending
      bindingDigest := digestObject (.obj binding)
      binding
      createdAt := now }
    drawn := s.drawn + 1 }

/-- The two writes of an approval; a crash comes between them. -/
def activate (s : System) (now : ℕ) (d : Decision) (binding : Payload) (crash : Bool) : System :=
  let grant := granted ids s now d.task d.request.kind.kind binding
  match s.store.putTaskGrant grant with
  | .error _ => s
  | .ok store =>
    let s := { s with
      store
      origins := s.origins ++ [(grant.grantId, d.request.requestId)]
      drawn := s.drawn + 1 }
    if crash then { s with inFlight := [] }
    else { s with
      store := transact store (store.updateGrantRequest now d.request.requestId .approved) }

/-- The checks at the beginning of `decideGrantRequest`; `task` is what the store has of its task. -/
def checkDecision (s : GrantStore) (requestId : String) (task : Option TaskContext) :
    Except Thrown Decision := do
  let request ← orThrow ((s.getGrantRequest requestId).filter fun request => request.status = .pending)
    (invalidArgument "Grant Request 不存在或已结束")
  let task ← orThrow (task.filter fun task => task.taskId = request.taskId)
    (invalidArgument s!"任务不存在: {request.taskId}")
  require (request.targetFingerprint = task.hostFingerprint ∧ task.protocolVersion = some 2 ∧
      (task.activeEpochId.filter (· ≠ "")).isSome)
    (invalidArgument "Grant Request 与当前 task/target/epoch 不匹配")
  return ⟨request, task⟩

/-- Whether a scope can be resolved: its binding is complete and the target connected. -/
def resolvable (request : GrantRequest) (connected : Bool) : Bool :=
  request.binding.lookup "namespace" = some (.str "file") &&
    ((request.binding.lookup "requestedRoot").bind Json.asString?).isSome && connected

def decideGrantRequest (s : System) (now : ℕ) (requestId : String) (task : Option TaskContext)
    (approved connected crash : Bool) : System :=
  match checkDecision s.store requestId task with
  | .error _ => s
  | .ok d =>
    if !approved then { s with
      store := transact s.store (s.store.updateGrantRequest now requestId .denied) }
    else match d.request.kind with
      | .scope => if resolvable d.request connected then { s with inFlight := s.inFlight ++ [d] } else s
      | .sensitiveRead => activate ids s now d d.request.binding crash

/-- The answer of the target to one of the approvals under way; `none` when it failed. -/
def answer (s : System) (now position : ℕ) (binding : Option Payload) (crash : Bool) : System :=
  match s.inFlight[position]?, binding with
  | some d, some binding =>
    activate ids { s with inFlight := s.inFlight.eraseIdx position } now d binding crash
  | _, _ => { s with inFlight := s.inFlight.eraseIdx position }

/-- The revocation by an analyst. -/
def revoke (s : System) (now : ℕ) (task : Option TaskContext) (grantId reason : String) : System :=
  match task with
  | none => s
  | some task =>
    if task.protocolVersion = some 2 ∧ ((s.store.listTaskGrants task.taskId).find? fun grant =>
        grant.grantId = grantId).any fun grant => grant.targetFingerprint = task.hostFingerprint then
      { s with store := transact s.store (s.store.revokeTaskGrant now task.taskId grantId reason) }
    else s

inductive Op where
  | createRequest (task : TaskContext) (kind : RequestKind) (binding : Payload)
  | decide (requestId : String) (task : Option TaskContext) (approved connected crash : Bool)
  | answer (position : ℕ) (binding : Option Payload) (crash : Bool)
  | expirePending (taskId : String)
  | restart
  | revoke (task : Option TaskContext) (grantId reason : String)
  | ensureCategoryGrants (task : TaskContext) (checks : List CheckCategory)
  | ensureInitialProbeGrants (task : TaskContext) (checks : List CheckCategory) (advertised : List String)
  | ensurePresetScope (task : TaskContext) (binding : Payload)

/-- An operation, and the time it comes at. -/
abbrev Timed := ℕ × Op

def step (s : System) : Timed → System
  | (now, .createRequest task kind binding) => createRequest ids digestObject s now task kind binding
  | (now, .decide requestId task approved connected crash) =>
    decideGrantRequest ids s now requestId task approved connected crash
  | (now, .answer position binding crash) => answer ids s now position binding crash
  | (_, .expirePending taskId) => { s with store := s.store.expirePendingGrantRequests taskId }
  | (_, .restart) => { s with inFlight := [] }
  | (now, .revoke task grantId reason) => revoke s now task grantId reason
  | (now, .ensureCategoryGrants task checks) => ensureCategoryGrants ids s now task checks
  | (now, .ensureInitialProbeGrants task checks advertised) =>
    ensureInitialProbeGrants ids s now task checks advertised
  | (now, .ensurePresetScope task binding) => ensurePresetScope ids digestObject s now task binding

def runOps (ops : List Timed) : System := Runs.run (step ids digestObject) .empty ops

end

end HuntWarden.Grants
