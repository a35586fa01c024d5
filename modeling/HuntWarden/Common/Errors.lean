import HuntWarden.Lib.Json

/-! What the controller throws: a `SecurityError` with a code and a text, or an error of the runtime
    itself (a `TypeError`, a constraint failure of the database). The helper on the target raises a
    `HelperError` of its own. -/

namespace HuntWarden

inductive SecurityErrorCode where
  | targetUnavailable | permissionDenied | toolTimeout | unsupportedEnvironment | invalidTarget
  | invalidArgument | evidenceCollection | approvalRequired | approvalMismatch | budgetExceeded
  | internalError | recoveryUncertain
  deriving DecidableEq, Repr

structure SecurityError where
  code : SecurityErrorCode
  message : String
  details : List (String × Json) := []
  deriving DecidableEq, Repr

inductive Thrown where
  | security (error : SecurityError)
  | native (message : String)
  deriving DecidableEq, Repr

/-- `new SecurityError(code, message)`. -/
def securityError (code : SecurityErrorCode) (message : String) : Thrown :=
  .security { code, message }

/-- `new InvalidArgumentError(message)`. -/
def invalidArgument (message : String) : Thrown := securityError .invalidArgument message

/-- A constraint failure of the database. -/
def uniqueConstraint (column : String) : Thrown := .native s!"UNIQUE constraint failed: {column}"

inductive HelperErrorCode where
  | budgetExhausted | epochMismatch | evidenceCollection | invalidArgument | outputLimitExceeded
  | permissionDenied | probeFailed | sourceChanged | staleRef | toolTimeout | unsupportedCapability
  | unsupportedEnvironment
  deriving DecidableEq, Repr

/-- `HelperError(code, message)`. -/
structure HelperError where
  code : HelperErrorCode
  message : String
  deriving DecidableEq, Repr

end HuntWarden
