import HuntWarden.Common.Errors
import HuntWarden.Lib.Js
import HuntWarden.Lib.Outcome
import HuntWarden.Lib.Table
import HuntWarden.Protocol.Types

/-! Task grants and the requests for them in the runtime store. Every write is a statement of its own: a
    grant that has been put stays, whatever happens to the request it was put for. -/

namespace HuntWarden

open Outcome

inductive GrantKind where
  | category | scope | sensitiveRead | probe | budgetExtension
  deriving DecidableEq, Repr

inductive GrantStatus where
  | active | revoked | expired
  deriving DecidableEq, Repr

structure TaskGrant where
  grantId : String
  taskId : String
  targetFingerprint : String
  kind : GrantKind
  status : GrantStatus
  binding : Payload
  createdAt : ℕ
  revokedAt : Option ℕ := none
  revocationReason : Option String := none
  deriving DecidableEq

/-- What can be asked for. -/
inductive RequestKind where
  | scope | sensitiveRead
  deriving DecidableEq, Repr

def RequestKind.kind : RequestKind → GrantKind
  | .scope => .scope
  | .sensitiveRead => .sensitiveRead

inductive RequestStatus where
  | pending | approved | denied | cancelled | expired
  deriving DecidableEq, Repr

structure GrantRequest where
  requestId : String
  taskId : String
  targetFingerprint : String
  kind : RequestKind
  status : RequestStatus
  bindingDigest : String
  binding : Payload
  createdAt : ℕ
  decidedAt : Option ℕ := none
  deriving DecidableEq

structure GrantStore where
  grants : Table TaskGrant.grantId
  requests : Table GrantRequest.requestId

namespace GrantStore

def empty : GrantStore := ⟨.empty, .empty⟩

def putTaskGrant (s : GrantStore) (grant : TaskGrant) : Except Thrown GrantStore := do
  require (!(grant.kind = .budgetExtension && grant.binding.isEmpty))
    (invalidArgument "Budget Extension 必须包含明确 binding")
  let grants ← orThrow (s.grants.insert? grant) (uniqueConstraint "task_grants_v2.grant_id")
  return { s with grants }

/-- `ORDER BY created_at`, the rows being in the order of their creation. -/
def listTaskGrants (s : GrantStore) (taskId : String) : List TaskGrant :=
  s.grants.rows.filter fun grant => grant.taskId = taskId

def revoked (now : ℕ) (reason : String) (grant : TaskGrant) : TaskGrant :=
  { grant with status := .revoked, revokedAt := some now, revocationReason := some (Js.trim reason) }

def revokeTaskGrant (s : GrantStore) (now : ℕ) (taskId grantId reason : String) :
    Except Thrown GrantStore := do
  let grant ← orThrow (((s.listTaskGrants taskId).find? fun grant => grant.grantId = grantId).filter
      fun grant => grant.status = .active)
    (invalidArgument "Task Grant 不存在或已失效")
  require (1 ≤ (Js.codeUnits (Js.trim reason)).length && (Js.codeUnits reason).length ≤ 1000)
    (invalidArgument "Grant 撤销原因不能为空且不能超过 1000 字符")
  return { s with grants := s.grants.set (revoked now reason grant) }

def putGrantRequest (s : GrantStore) (request : GrantRequest) : GrantStore :=
  { s with requests := s.requests.put request }

def getGrantRequest (s : GrantStore) (requestId : String) : Option GrantRequest :=
  s.requests.get? requestId

def updateGrantRequest (s : GrantStore) (now : ℕ) (requestId : String) (status : RequestStatus) :
    Except Thrown GrantStore := do
  let request ← orThrow ((s.getGrantRequest requestId).filter fun request => request.status = .pending)
    (invalidArgument "Grant Request 不存在或已结束")
  return s.putGrantRequest { request with status, decidedAt := some now }

/-- A request of the task that is still open. -/
def expireRequest (taskId : String) (request : GrantRequest) : GrantRequest :=
  if request.taskId = taskId ∧ request.status = .pending then { request with status := .expired }
  else request

theorem expireRequest_requestId (taskId : String) (request : GrantRequest) :
    (expireRequest taskId request).requestId = request.requestId := by
  unfold expireRequest
  split <;> rfl

def expirePendingGrantRequests (s : GrantStore) (taskId : String) : GrantStore :=
  { s with requests := s.requests.mapRows (expireRequest taskId) (expireRequest_requestId taskId) }

/-! ### What the writes do -/

variable {s s' : GrantStore} {now : ℕ}

theorem putTaskGrant_ok {grant : TaskGrant} (h : s.putTaskGrant grant = .ok s') :
    s'.grants.rows = s.grants.rows ++ [grant] ∧ s'.requests = s.requests := by
  obtain ⟨_, -, h⟩ := bind_ok.1 h
  obtain ⟨grants, hgrants, h⟩ := bind_ok.1 h
  rw [pure_ok] at h
  subst h
  exact ⟨(Table.insert?_eq_some (orThrow_ok.1 hgrants)).2, rfl⟩

theorem revokeTaskGrant_ok {taskId grantId reason : String}
    (h : s.revokeTaskGrant now taskId grantId reason = .ok s') :
    ∃ grant ∈ s.grants.rows, grant.grantId = grantId ∧ grant.status = .active ∧
      s'.grants = s.grants.set (revoked now reason grant) ∧ s'.requests = s.requests := by
  obtain ⟨grant, hgrant, h⟩ := bind_ok.1 h
  obtain ⟨_, -, h⟩ := bind_ok.1 h
  rw [pure_ok] at h
  subst h
  obtain ⟨hfound, hactive⟩ := Option.filter_eq_some_iff.1 (orThrow_ok.1 hgrant)
  have hmem := (List.mem_filter.1 (List.mem_of_find?_eq_some hfound)).1
  exact ⟨grant, hmem, by simpa using List.find?_some hfound, of_decide_eq_true hactive, rfl, rfl⟩

theorem updateGrantRequest_ok {requestId : String} {status : RequestStatus}
    (h : s.updateGrantRequest now requestId status = .ok s') :
    ∃ request ∈ s.requests.rows, request.requestId = requestId ∧ request.status = .pending ∧
      s'.requests = s.requests.put { request with status, decidedAt := some now } ∧
      s'.grants = s.grants := by
  obtain ⟨request, hrequest, h⟩ := bind_ok.1 h
  rw [pure_ok] at h
  subst h
  obtain ⟨hget, hpending⟩ := Option.filter_eq_some_iff.1 (orThrow_ok.1 hrequest)
  obtain ⟨hmem, hid⟩ := Table.get?_eq_some.1 hget
  exact ⟨request, hmem, hid, of_decide_eq_true hpending, rfl, rfl⟩

theorem updateGrantRequest_total {request : GrantRequest} (status : RequestStatus)
    (hmem : request ∈ s.requests.rows) (hpending : request.status = .pending) :
    s.updateGrantRequest now request.requestId status =
      .ok (s.putGrantRequest { request with status, decidedAt := some now }) := by
  refine bind_ok.2 ⟨request, orThrow_ok.2 (Option.filter_eq_some_iff.2 ⟨?_, ?_⟩), rfl⟩
  · exact Table.get?_of_mem hmem
  · exact decide_eq_true hpending

end GrantStore

end HuntWarden
