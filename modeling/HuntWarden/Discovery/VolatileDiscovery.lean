import HuntWarden.Playbooks.Planned
import HuntWarden.ThreatIntel.NetworkIoc
import Mathlib.Data.List.Infix

/-! The planner of volatile discovery. A call looks at the latest facts about processes and sockets, makes
    candidates of the external connections and the unusual executions, and queues the operations of the
    first hundred that lack one. What has been planned is told by who requested the stored actions; what is
    stored is told by their idempotency keys. -/

namespace HuntWarden.VolatileDiscovery

open Outcome Playbooks InvestigationStore

/-! ### Tables -/

inductive LeadStatus where
  | open_ | investigating | resolved | dismissed | limited
  deriving DecidableEq, Repr

structure InvestigationLead where
  leadId : String
  subjectRef : String
  triggerKind : String
  triggerVersion : String
  triggerFactRefs : List String
  observationRound : String
  priority : ℤ
  status : LeadStatus
  deriving DecidableEq, Repr

/-- `UNIQUE(task_id, epoch_id, subject_ref, trigger_kind, trigger_version, observation_round)` -/
def InvestigationLead.scope (lead : InvestigationLead) : String × String × String × String :=
  (lead.subjectRef, lead.triggerKind, lead.triggerVersion, lead.observationRound)

/-- The columns of a stored action that no statement changes. -/
structure ActionOrigin where
  requestedBy : ProposedBy
  subjectRefs : List String
  operationRef : String
  argsDigest : String
  deriving DecidableEq, Repr

/-- The tables of one task and epoch, with the origins of the stored actions by their ids. -/
structure VolatileStore where
  planner : PlannerStore
  leads : IndexedTable InvestigationLead.leadId InvestigationLead.scope
  origin : String → ActionOrigin

structure DiscoveryPlanResult where
  leadIds : List String
  obligationIds : List String
  actionIds : List String
  deriving DecidableEq, Repr

abbrev VolatileProgram := Program VolatileStore Thrown

variable (r : PlanRuntime)

/-! ### Candidates -/

structure Candidate where
  subject : FactRecord
  triggerFacts : List FactRecord
  trigger : String
  priority : ℤ
  deriving DecidableEq

def latestOf (s : VolatileStore) (namespace_ : NamespaceName) : List FactRecord :=
  latestBySubject (s.planner.facts.filter (·.namespace_ = namespace_))

def numberField (payload : Payload) (name : String) : Option ℚ :=
  match field payload name with
  | some (.num value) => some value
  | _ => none

/-- The last entry of the map from the PIDs to the processes. -/
def processByPid (processFacts : List FactRecord) (pid : ℚ) : Option FactRecord :=
  (processFacts.filter fun fact => numberField fact.privatePayload "pid" = some pid).getLast?

def isExternal (socket : FactRecord) : Bool :=
  (textField socket.privatePayload "remoteAddress").any NetworkIoc.isPublicThreatIntelIp

/-- The process that a socket is put down to. -/
def ownerOf (processFacts : List FactRecord) (socket : FactRecord) : Option FactRecord :=
  (numberField socket.privatePayload "pid").bind (processByPid processFacts)

def socketCandidate (processFacts : List FactRecord) (socket : FactRecord) : Candidate :=
  match ownerOf processFacts socket with
  | some process => ⟨process, [socket, process], "EXTERNAL_CONNECTION", 100⟩
  | none => ⟨socket, [socket], "EXTERNAL_CONNECTION", 90⟩

def isUnusual (payload : Payload) : Bool :=
  let path := textOrEmpty r.texts (field payload "exe")
  let command := textOrEmpty r.texts (field payload "command")
  matches_ (· = '/') tempPaths anything path ||
    decide ("(deleted)".toList <:+: path.toList) ||
    matches_ (fun ch => Js.isSpace ch || ch = '"' || ch = '\'') (tempPaths.map ("/" ++ ·)) anything command ||
    matches_ Js.isSpace ["curl", "wget", "nc", "ncat", "socat"] wordEnds command

/-- An unusual process that is no candidate yet becomes one. -/
def addUnusual (candidates : List Candidate) (process : FactRecord) : List Candidate :=
  if isUnusual r process.privatePayload ∧
      ¬ candidates.any (fun candidate => candidate.subject.subjectRef = process.subjectRef) then
    candidates ++ [⟨process, [process], "UNUSUAL_EXECUTION", 80⟩]
  else candidates

def candidates (s : VolatileStore) : List Candidate :=
  if .linuxIntrusionTriage ∈ s.planner.checks then
    let processFacts := latestOf s .process
    let sockets := (latestOf s .socket).filter isExternal
    processFacts.foldl (addUnusual r) (sockets.map (socketCandidate processFacts))
  else []

/-! ### Operations -/

structure VolatileOperation where
  obligationKind : String
  operationRef : String
  args : Json
  replayPolicy : ActionReplayPolicy
  deriving DecidableEq

section

variable (subject : FactRecord)

def project (obligationKind : String) (fields : List String) : VolatileOperation :=
  ⟨obligationKind, "project", .obj [refArg subject, ("fields", .arr (fields.map .str))], .safeReobserve⟩

def collect (obligationKind purpose : String) : VolatileOperation :=
  ⟨obligationKind, "collect", .obj [refArg subject, ("maxBytes", .num defaultExecutableCollectBytes),
    ("purpose", .str purpose)], .resumeOrRecollect⟩

def relate (obligationKind relation : String) (limit : ℚ) : VolatileOperation :=
  ⟨obligationKind, "relate", .obj [refArg subject, ("relation", .str relation), ("limit", .num limit)],
    .safeReobserve⟩

def queryFacts (obligationKind namespace_ : String) : VolatileOperation :=
  ⟨obligationKind, "query_facts", .obj [("view", .str "facts"), ("namespace", .str namespace_),
    ("subjectRef", .str subject.subjectRef), ("limit", .num 100)], .safeReobserve⟩

def operationsFor : List VolatileOperation :=
  if subject.namespace_ = .process then
    [project subject "VERIFY_PROCESS_IDENTITY" ["pid", "startTicks", "exe", "exeDeleted", "exeInode",
        "exeSha256", "command", "launcherPath", "namespaces", "cgroups", "mapsSummary"],
      collect subject "PRESERVE_EXECUTABLE_EVIDENCE" "AUTONOMOUS_VOLATILE_PRESERVATION",
      relate subject "TRACE_PROCESS_EXECUTABLE" "executable" 20,
      relate subject "TRACE_PROCESS_COMMAND_FILES" "command_file" 100,
      relate subject "TRACE_PROCESS_PARENT" "parent" 20,
      relate subject "TRACE_PROCESS_CONNECTIONS" "connects" 500,
      relate subject "TRACE_PROCESS_STARTUP" "started_by" 100,
      relate subject "TRACE_PROCESS_OPEN_FILES" "opens" 500,
      queryFacts subject "CHECK_PROCESS_COUNTEREVIDENCE" "process"]
  else
    [relate subject "BIND_SOCKET_OWNER" "owned_by" 20,
      queryFacts subject "CHECK_SOCKET_COUNTEREVIDENCE" "socket"]

end

/-- `${operationRef}:${argsDigest}` -/
def operationText (operation : VolatileOperation) : String :=
  operation.operationRef ++ ":" ++ r.digestObject operation.args

/-- Discovery has requested an operation of this text for the subject. -/
def ActionOrigin.covers (origin : ActionOrigin) (subjectRef text : String) : Bool :=
  origin.requestedBy = .discovery && subjectRef ∈ origin.subjectRefs &&
    origin.operationRef ++ ":" ++ origin.argsDigest = text

/-- `plannedOperations.get(subjectRef)?.has(text)` -/
def isPlanned (s : VolatileStore) (subjectRef text : String) : Bool :=
  s.planner.investigation.listInvestigationActions.any fun a => (s.origin a.actionId).covers subjectRef text

def missingOperations (s : VolatileStore) (candidate : Candidate) : List VolatileOperation :=
  (operationsFor candidate.subject).filter fun operation =>
    !isPlanned s candidate.subject.subjectRef (operationText r operation)

def pendingCandidates (s : VolatileStore) : List Candidate :=
  (candidates r s).filter fun candidate => missingOperations r s candidate ≠ []

def availableSlots (s : VolatileStore) : ℤ :=
  maxActiveInvestigationActions -
    (s.planner.investigation.listInvestigationActions.filter fun a => a.status.isLive).length

/-- The candidates whose missing operations still find room, one after the other. -/
def admitFrom (s : VolatileStore) : ℤ → List Candidate → List Candidate
  | _, [] => []
  | slots, candidate :: rest =>
    let missing : ℤ := (missingOperations r s candidate).length
    if slots < missing then admitFrom s slots rest
    else candidate :: admitFrom s (slots - missing) rest

def candidateBatchSize : ℕ := 100

def admitted (s : VolatileStore) : List Candidate :=
  admitFrom r s (availableSlots s) ((pendingCandidates r s).take candidateBatchSize)

/-! ### Planning one candidate -/

def newLead (candidate : Candidate) (s : VolatileStore) : InvestigationLead where
  leadId := r.ids.draw "LEAD-" (s.leads.rows.map (·.leadId))
  subjectRef := candidate.subject.subjectRef
  triggerKind := candidate.trigger
  triggerVersion := "1.0.0"
  triggerFactRefs := candidate.triggerFacts.map (·.factId)
  observationRound := "SUBJECT:" ++ candidate.subject.subjectRef
  priority := candidate.priority
  status := .open_

def mergeLead (lead : InvestigationLead) :
    IndexedTable.Rewrite InvestigationLead.leadId InvestigationLead.scope where
  apply stored :=
    { stored with
      triggerFactRefs := Js.distinct (stored.triggerFactRefs ++ lead.triggerFactRefs)
      priority := max stored.priority lead.priority }
  key_apply _ := rfl
  alt_apply _ := rfl

/-- A lead that is on record takes over what triggered the new one. -/
def putInvestigationLead (lead : InvestigationLead) (s : VolatileStore) :
    Except Thrown (InvestigationLead × VolatileStore) := do
  require (lead.subjectRef ∈ s.planner.references)
    (invalidArgument "Lead subjectRef 不属于当前 Epoch")
  match s.leads.rows.find? fun stored => stored.scope = lead.scope with
  | none =>
    let leads ← orThrow (s.leads.insert? lead) (uniqueConstraint "investigation_leads.lead_id")
    return (lead, { s with leads })
  | some stored =>
    let merged := (mergeLead lead).apply stored
    if merged.triggerFactRefs.length ≠ stored.triggerFactRefs.length ∨ stored.priority < lead.priority then
      return (merged, { s with leads := s.leads.modify (fun row => row.leadId = stored.leadId) (mergeLead lead) })
    else return (stored, s)

/-- What the planner asks of the playbooks' tables. -/
def onPlanner {α : Type} (body : PlannerStore → Except Thrown (α × PlannerStore)) (s : VolatileStore) :
    Except Thrown (α × VolatileStore) := do
  let (a, planner) ← body s.planner
  return (a, { s with planner })

/-- An action on record keeps its origin; a new one has the one it is put with. -/
def putVolatileAction (value : InvestigationAction) (origin : ActionOrigin) (s : VolatileStore) :
    Except Thrown (InvestigationAction × VolatileStore) := do
  let (stored, planner) ← putAction value s.planner
  if stored.actionId = value.actionId then
    return (stored, { s with planner, origin := Function.update s.origin value.actionId origin })
  else return (stored, { s with planner })

def isRequired (operation : VolatileOperation) : Bool :=
  operation.obligationKind ≠ "CHECK_PROCESS_COUNTEREVIDENCE" &&
    operation.obligationKind ≠ "CHECK_SOCKET_COUNTEREVIDENCE"

def VolatileOperation.planned (operation : VolatileOperation) (priority : ℤ) : PlannedOperation where
  obligationKind := operation.obligationKind
  operationRef := operation.operationRef
  args := operation.args
  required := isRequired operation
  replayPolicy := operation.replayPolicy
  priority := priority

def originOf (subjectRef : String) (operation : VolatileOperation) : ActionOrigin :=
  ⟨.discovery, [subjectRef], operation.operationRef, r.digestObject operation.args⟩

/-- One operation of a subject; the key of the action is the one a playbook would give it. -/
def putOperation (subject : FactRecord) (priority : ℤ) (entry : VolatileOperation × ℕ) :
    VolatileProgram (String × String) := do
  let operation := entry.1.planned (priority - entry.2)
  let obligation ← Program.update
    (onPlanner fun s => putObligation (newObligation r operation subject.subjectRef s) s)
  let action ← Program.update fun s =>
    putVolatileAction (newAction r operation subject obligation.obligationId s.planner)
      (originOf r subject.subjectRef entry.1) s
  return (obligation.obligationId, action.actionId)

def planSubject (candidate : Candidate) (lead : InvestigationLead) : VolatileProgram (List (String × String)) :=
  Program.gather (putOperation r candidate.subject lead.priority) (operationsFor candidate.subject).zipIdx

def planCandidate (candidate : Candidate) : VolatileProgram (String × List (String × String)) := do
  let lead ← Program.update fun s => putInvestigationLead (newLead r candidate s) s
  let planned ← planSubject r candidate lead
  return (lead.leadId, planned)

/-! ### The scope of the discovery -/

def scopeKey : String := "VOLATILE_DISCOVERY_SCOPE"

/-- The status for the coverage, and for whether candidates have been left over. -/
def discoveryStatus (s : PlannerStore) (limitReached : Bool) : ObligationStatus :=
  match coverageOf s .linuxIntrusionTriage with
  | none => .open_
  | some coverage => if coverage.status = .complete ∧ ¬ limitReached then .satisfied else .limited

def scopeResults (s : PlannerStore) : List String :=
  (s.facts.filter fun fact => fact.namespace_ = .process || fact.namespace_ = .socket).map (·.factId)

def scopeGaps (s : PlannerStore) (limitReached : Bool) : List String :=
  ((coverageOf s .linuxIntrusionTriage).map s.missingCriteria).getD ["COVERAGE_NOT_RECORDED"] ++
    if limitReached then ["CANDIDATE_QUEUE_LIMIT"] else []

def scopeObligation (limitReached : Bool) (s : PlannerStore) : InvestigationObligation where
  obligationId := r.ids.draw "OBL-" (s.investigation.obligations.rows.map (·.obligationId))
  dedupeKey := scopeKey
  obligationKind := scopeKey
  subjectRefs := []
  required := true
  status := discoveryStatus s limitReached
  resultRefs := scopeResults s
  gapRefs := scopeGaps s limitReached

def scopeClosing (s : PlannerStore) (limitReached : Bool) : Closing where
  status _ := discoveryStatus s limitReached
  resultRefs _ := scopeResults s
  gapRefs _ := scopeGaps s limitReached

def digestTexts (texts : List String) : String := r.digestObject (.arr (texts.map .str))

/-- The obligation on record is brought to the present state, whatever state it was in. -/
def settleScope (limitReached : Bool) (obligation : InvestigationObligation) (s : VolatileStore) :
    Except Thrown VolatileStore :=
  if obligation.status ≠ discoveryStatus s.planner limitReached ∨
      digestTexts r obligation.resultRefs ≠ digestTexts r (scopeResults s.planner) ∨
      digestTexts r obligation.gapRefs ≠ digestTexts r (scopeGaps s.planner limitReached) then do
    let investigation ← s.planner.investigation.updateInvestigationObligation obligation.obligationId
      obligation.status (scopeClosing s.planner limitReached)
    return { s with planner := { s.planner with investigation } }
  else .ok s

def checkpointStatus : ObligationStatus → CompletionValidator.CheckpointStatus
  | .satisfied => .complete
  | .open_ => .running
  | _ => .limited

def checkpointScope : NamespaceName × String :=
  (.process, r.digestObject (.obj [("planner", .str "volatile-discovery@1.0.0"),
    ("namespaces", .arr [.str "process", .str "socket"])]))

/-- The checkpoint of a call; `initial` is the store as the call has found it. -/
def nextCheckpoint (initial : VolatileStore) (returned : ℕ) (s : VolatileStore) : DiscoveryCheckpoint :=
  let pending := (pendingCandidates r initial).length
  let known := s.planner.checkpoints.get? (checkpointScope r)
  { checkpointId := (known.map (·.checkpointId)).getD
      (r.ids.draw "DCP-" (s.planner.checkpoints.rows.map (·.checkpointId)))
    namespace_ := (checkpointScope r).1
    requestDigest := (checkpointScope r).2
    status := checkpointStatus (discoveryStatus initial.planner (decide (returned < pending)))
    scannedCount := (latestOf initial .process).length + (latestOf initial .socket).length
    matchedCount := (candidates r initial).length
    returnedCount := returned
    remainingDescription := if returned < pending then
      some s!"{pending - returned} 个候选因批次或活动队列容量待后续处理" else none }

def putCheckpoint (initial : VolatileStore) (returned : ℕ) (s : VolatileStore) : VolatileStore :=
  let checkpoints := s.planner.checkpoints.put (nextCheckpoint r initial returned s)
  { s with planner := { s.planner with checkpoints } }

/-! ### One call -/

def plan : VolatileProgram DiscoveryPlanResult := do
  let initial ← Program.gets id
  if .linuxIntrusionTriage ∈ initial.planner.checks then
    let planned ← Program.gather (planCandidate r) (admitted r initial)
    let limitReached := decide (planned.length < (pendingCandidates r initial).length)
    let discovery ← Program.update (onPlanner fun s => putObligation (scopeObligation r limitReached s) s)
    Program.write (settleScope r limitReached discovery)
    Program.write fun s => .ok (putCheckpoint r initial planned.length s)
    let operations := planned.flatMap (·.2)
    return ⟨planned.map (·.1), Js.distinct (operations.map (·.1) ++ [discovery.obligationId]),
      Js.distinct (operations.map (·.2))⟩
  else return ⟨[], [], []⟩

end HuntWarden.VolatileDiscovery
