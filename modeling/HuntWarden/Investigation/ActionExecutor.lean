import HuntWarden.Common.Ids
import HuntWarden.Lib.Runs
import HuntWarden.Storage.Investigation

/-! The executor that works the action queue, and the other parts of the controller that move actions
    and obligations: planning, recovery after a restart, and the refresh of the authorization version.
    A worker keeps the action as it was when it was claimed; what is merged into the stored action
    afterwards is not in that copy. -/

namespace HuntWarden.ActionExecutor

open Outcome InvestigationStore

/-- What `resolveObligations` is told about the action that ended. -/
inductive Verdict where
  | satisfied | limited
  deriving DecidableEq, Repr

def Verdict.status : Verdict → ObligationStatus
  | .satisfied => .satisfied
  | .limited => .limited

/-- The verdict over all contributors of an obligation; none while one of them is still live. -/
def sharedVerdict (contributors : List InvestigationAction) (ended : Verdict) : Option Verdict :=
  if contributors.any fun a => a.status.isLive then none
  else if ended = .limited ∨ contributors.any (fun a => a.status.isLimiting) = true then some .limited
  else some .satisfied

/-- The verdict the deduplication path of `putInvestigationAction` passes on. -/
def reuseVerdict (stored : InvestigationAction) : Verdict :=
  if stored.status = .succeeded then .satisfied else .limited

theorem reuseClosing_status (stored : InvestigationAction) (o : InvestigationObligation) :
    (reuseClosing stored).status o = (reuseVerdict stored).status := by
  simp only [reuseClosing, reuseVerdict]
  split <;> rfl

/-- A text that JavaScript counts as true. -/
def present (text : Option String) : List String := (text.filter (· ≠ "")).toList

def resolveClosing (s : InvestigationStore) (ended : Verdict) (resultRefs : List String)
    (reason : Option String) : Closing where
  status o := match sharedVerdict (s.contributors o.obligationId) ended with
    | some verdict => verdict.status
    | none => o.status
  resultRefs o := Js.distinct (o.resultRefs ++
    (s.contributors o.obligationId).flatMap (fun a => a.resultRefs.getD []) ++ resultRefs)
  gapRefs o := Js.distinct (o.gapRefs ++
    (s.contributors o.obligationId).flatMap (fun a => present a.error) ++ present reason)

def resolveObligations (s : InvestigationStore) (action : InvestigationAction) (ended : Verdict)
    (resultRefs : List String) (reason : Option String) : InvestigationStore :=
  s.closeObligations
    (fun o => o.obligationId ∈ action.obligationIds ∧
      (sharedVerdict (s.contributors o.obligationId) ended).isSome)
    (resolveClosing s ended resultRefs reason)

/-- How the work on a claimed action ends. -/
inductive ActionOutcome where
  | failed (error : String)
  | completed (partialResult : Bool) (resultRefs : List String) (reason : Option String)
  deriving DecidableEq, Repr

namespace ActionOutcome

def status : ActionOutcome → ActionStatus
  | .failed _ => .failed
  | .completed partialResult _ _ => if partialResult then .partialResult else .succeeded

def verdict : ActionOutcome → Verdict
  | .failed _ => .limited
  | .completed partialResult _ _ => if partialResult then .limited else .satisfied

def resultRefs : ActionOutcome → List String
  | .failed _ => []
  | .completed _ refs _ => refs

def reason : ActionOutcome → Option String
  | .failed error => some error
  | .completed _ _ reason => reason

end ActionOutcome

/-- `finishInvestigationAction` on the claimed copy, then `resolveObligations` with it. -/
def finishClaimed (s : InvestigationStore) (claimed : InvestigationAction) (outcome : ActionOutcome) :
    Except Thrown InvestigationStore := do
  let s' ← s.finishInvestigationAction claimed.actionId claimed.revision outcome.status
    outcome.resultRefs outcome.reason
  return resolveObligations s' claimed outcome.verdict outcome.resultRefs outcome.reason

/-- A dependency that ended badly. -/
def failedDependency (actions : List InvestigationAction) (a : InvestigationAction) :
    Option InvestigationAction :=
  (a.dependsOn.filterMap fun id => actions.find? fun d => d.actionId = id).find? fun d =>
    d.status = .failed ∨ d.status = .blocked ∨ d.status = .cancelled

/-- One turn of the loop that closes a run: a READY action with a failed dependency is blocked. -/
def blockDependent (actions : List InvestigationAction) (s : InvestigationStore)
    (a : InvestigationAction) : Except Thrown InvestigationStore :=
  if a.status = .ready then
    match failedDependency actions a with
    | none => return s
    | some d => do
      let reason := s!"依赖 Action {d.actionId} 以 {d.status.name} 结束"
      let s' ← s.blockReadyInvestigationAction a.actionId reason
      return resolveObligations s' a .limited [] (some reason)
  else return s

/-- A loop of separate transactions: what is written before one throws stays. -/
def eachUntilThrow (body : InvestigationStore → InvestigationAction → Except Thrown InvestigationStore) :
    InvestigationStore → List InvestigationAction → InvestigationStore
  | s, [] => s
  | s, a :: rest =>
    match body s a with
    | .ok s' => eachUntilThrow body s' rest
    | .error _ => s

def blockDependents (s : InvestigationStore) : InvestigationStore :=
  eachUntilThrow (blockDependent s.listInvestigationActions) s s.listInvestigationActions

def staleReady (authorizationVersion : String) (a : InvestigationAction) : Bool :=
  a.status = .ready && a.authorizationVersion != authorizationVersion

/-- `refreshInvestigationAuthorization`, once the grants have changed the version. -/
def refreshInvestigationAuthorization (s : InvestigationStore) (authorizationVersion : String) :
    InvestigationStore :=
  eachUntilThrow
    (fun s a => if staleReady authorizationVersion a then
        s.blockReadyInvestigationAction a.actionId "AUTHORIZATION_VERSION_CHANGED"
      else return s)
    s s.listInvestigationActions

/-! ### The machine -/

/-- The store, the copies held by workers, and how many ids have been drawn. -/
structure System where
  store : InvestigationStore
  inFlight : List InvestigationAction
  drawn : ℕ

def System.empty : System := ⟨.empty, [], 0⟩

inductive Op where
  /-- An obligation recorded without an action: a scope, or one the model will act on. -/
  | note (obligation : InvestigationObligation) (notQueued : obligation.status ≠ .queued)
  /-- A planner queues an obligation together with the action that serves it. -/
  | plan (obligation : InvestigationObligation) (action : InvestigationAction)
  /-- An action proposed for obligations on record. -/
  | put (action : InvestigationAction) (distinct : action.obligationIds.Nodup)
  | claim (authorizationVersion : String) (eligibleActionIds : Option (List String))
  | finish (actionId : String) (outcome : ActionOutcome)
  | blockDependents
  | recover
  | refresh (authorizationVersion : String)

variable (ids : IdSupply)

def fresh (kind : IdKind) (s : System) : String := ids.createId kind s.drawn

def withObligationId (s : System) (o : InvestigationObligation) : InvestigationObligation :=
  { o with obligationId := fresh ids .obligation s }

def withActionId (s : System) (a : InvestigationAction) : InvestigationAction :=
  { a with actionId := fresh ids .investigationAction s }

/-- The action a planner hands over with an obligation. -/
def plannedAction (s : System) (a : InvestigationAction) (obligationId : String) :
    InvestigationAction :=
  { withActionId ids s a with
    obligationIds := [obligationId], dependsOn := [], status := .ready, revision := 0 }

/-- The store and the proposal of the `putInvestigationAction` call an operation makes. -/
def proposal (s : System) : Op → Option (InvestigationStore × InvestigationAction)
  | .put action _ => some (s.store, withActionId ids s action)
  | .plan obligation action =>
    match s.store.putInvestigationObligation
        { withObligationId ids s obligation with status := .queued } with
    | .ok (store, stored) => some (store, plannedAction ids s action stored.obligationId)
    | .error _ => none
  | _ => none

/-- The store after a proposal; one that throws leaves it as it was. -/
def putProposal (store : InvestigationStore) (value : InvestigationAction) : InvestigationStore :=
  match store.putInvestigationAction value with
  | .ok (store', _) => store'
  | .error _ => store

def step (s : System) (op : Op) : System :=
  match op with
  | .note obligation _ =>
    match s.store.putInvestigationObligation (withObligationId ids s obligation) with
    | .ok (store, _) => ⟨store, s.inFlight, s.drawn + 1⟩
    | .error _ => s
  | .plan .. | .put .. =>
    match proposal ids s op with
    | some (store, value) => ⟨putProposal store value, s.inFlight, s.drawn + 1⟩
    | none => s
  | .claim version eligible =>
    match s.store.claimNextInvestigationAction (fresh ids .attempt s) version eligible with
    | .ok (store, claimed) => ⟨store, claimed.toList ++ s.inFlight, s.drawn + 1⟩
    | .error _ => s
  | .finish actionId outcome =>
    match s.inFlight.find? fun a => a.actionId = actionId with
    | some claimed =>
      ⟨transact s.store (finishClaimed s.store claimed outcome),
        s.inFlight.filter fun a => a.actionId ≠ actionId, s.drawn⟩
    | none => s
  | .blockDependents => { s with store := blockDependents s.store }
  | .recover => ⟨s.store.recoverInterruptedInvestigationActions, [], s.drawn⟩
  | .refresh version => { s with store := refreshInvestigationAuthorization s.store version }

def runOps (ops : List Op) : System := Runs.run (step ids) .empty ops

end HuntWarden.ActionExecutor
