import Mathlib.Data.Nat.Notation
import Mathlib.Data.Int.Notation

/-! The obligations and actions of an investigation. An obligation says what has to be looked into; an
    action is queued work that lists the obligations it serves. -/

namespace HuntWarden

inductive ObligationStatus where
  | open_ | queued | satisfied | limited | cancelled
  deriving DecidableEq, Repr

/-- `["OPEN", "QUEUED"].includes(status)`. -/
def ObligationStatus.isOpen : ObligationStatus → Bool
  | .open_ | .queued => true
  | _ => false

structure InvestigationObligation where
  obligationId : String
  dedupeKey : String
  obligationKind : String
  subjectRefs : List String
  required : Bool
  status : ObligationStatus
  resultRefs : List String
  gapRefs : List String
  deriving DecidableEq, Repr

inductive ActionStatus where
  | ready | running | blocked | succeeded | partialResult | failed | cancelled
  deriving DecidableEq, Repr

namespace ActionStatus

/-- `["READY", "RUNNING"].includes(status)`. -/
def isLive : ActionStatus → Bool
  | .ready | .running => true
  | _ => false

/-- `["PARTIAL", "FAILED", "BLOCKED", "CANCELLED"].includes(status)`. -/
def isLimiting : ActionStatus → Bool
  | .partialResult | .failed | .blocked | .cancelled => true
  | _ => false

def name : ActionStatus → String
  | .ready => "READY"
  | .running => "RUNNING"
  | .blocked => "BLOCKED"
  | .succeeded => "SUCCEEDED"
  | .partialResult => "PARTIAL"
  | .failed => "FAILED"
  | .cancelled => "CANCELLED"

/-- A status is live, limiting or SUCCEEDED. -/
theorem eq_succeeded {status : ActionStatus} (hl : status.isLive = false)
    (hm : status.isLimiting = false) : status = .succeeded := by
  cases status <;> simp_all [isLive, isLimiting]

end ActionStatus

inductive ActionReplayPolicy where
  | safeReobserve | resumeOrRecollect | never
  deriving DecidableEq, Repr

structure InvestigationAction where
  actionId : String
  idempotencyKey : String
  obligationIds : List String
  dependsOn : List String
  authorizationVersion : String
  replayPolicy : ActionReplayPolicy
  priority : ℤ
  status : ActionStatus
  revision : ℕ
  resultRefs : Option (List String)
  error : Option String
  createdAt : ℕ
  deriving DecidableEq, Repr

structure InvestigationActionAttempt where
  attemptId : String
  actionId : String
  attempt : ℕ
  status : ActionStatus
  deriving DecidableEq, Repr

end HuntWarden
