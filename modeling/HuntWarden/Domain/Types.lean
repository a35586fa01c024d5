import Mathlib.Data.List.Basic

/-! The records of a hunting task that approval and recovery work on. Times are the milliseconds of
    the clock, of which the stored ISO texts are a sortable rendering. -/

namespace HuntWarden

inductive TaskMode where
  | scan | remediate
  deriving DecidableEq, Repr

inductive TaskStatus where
  | created | running | paused | waitingApproval | recovering | reporting | completed | failed
  | aborted
  deriving DecidableEq, Repr

structure Interruption where
  previousStatus : TaskStatus
  recoveryRequired : Bool
  deriving DecidableEq, Repr

structure TaskContext where
  taskId : String
  hostFingerprint : String
  mode : TaskMode
  status : TaskStatus
  protocolVersion : Option ℕ
  activeEpochId : Option String
  interruption : Option Interruption
  deriving DecidableEq, Repr

structure ScanEpoch where
  epochId : String
  taskId : String
  targetFingerprint : String
  protocolVersion : ℕ
  deriving DecidableEq, Repr

inductive ApprovalStatus where
  | pending | approved | denied | consumed | expired
  deriving DecidableEq, Repr

structure ApprovalTicket where
  approvalId : String
  taskId : String
  epochId : Option String
  targetFingerprint : String
  tool : String
  argsDigest : String
  actionId : String
  status : ApprovalStatus
  createdAt : ℕ
  decidedAt : Option ℕ := none
  consumedAt : Option ℕ := none
  deriving DecidableEq, Repr

end HuntWarden
