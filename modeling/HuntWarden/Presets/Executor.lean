import HuntWarden.Assessments.Validation
import HuntWarden.Playbooks.Registry
import HuntWarden.Presets.Registry
import HuntWarden.Protocol.Capability
import HuntWarden.Runtime.ScopeBinding

/-! The executor of the presets. A step pages through an enumeration or calls a tool for each of a list of
    objects, and ends with an outcome; what the outcomes say of the preset is recorded as its coverage. What
    the tools, the store and the signal do to a step is arbitrary (`StepWorld`), and every run keeps what it
    has seen of it beside the outcome. -/

namespace HuntWarden.Presets

open Outcome Playbooks
open RemoteTool (ForensicVerb)

def verbName : ForensicVerb → String
  | .enumerate => "enumerate"
  | .project => "project"
  | .read => "read"
  | .match => "match"
  | .relate => "relate"
  | .verify => "verify"
  | .collect => "collect"
  | .probe => "probe"

/-! ### Answers -/

inductive AnswerStatus where
  | success | partialAnswer
  deriving DecidableEq, Repr

/-- What a tool returns; a cursor reference is never the empty text. -/
structure RemoteResultDetails where
  status : AnswerStatus
  factRefs : List String := []
  objectRefs : List String := []
  evidenceRefs : List String := []
  gaps : List CoverageGap := []
  cursorRef : Option String := none
  deriving DecidableEq, Repr

/-- The page is full, and another one follows. -/
def onlyResumablePageBoundary (details : RemoteResultDetails) : Bool :=
  details.cursorRef.isSome && !details.gaps.isEmpty &&
    details.gaps.all fun gap => gap.code = "NODE_LIMIT" && gap.resumable

def isIncompleteRemotePage (details : RemoteResultDetails) : Bool :=
  details.status = .partialAnswer && !onlyResumablePageBoundary details

/-- What becomes of one turn of the page loop. -/
inductive PageAnswer where
  /-- The signal is raised before the call. -/
  | aborted (reason : String)
  | thrown (reason : String)
  /-- A page, and what `afterPageCommitted` throws then. -/
  | answered (details : RemoteResultDetails) (afterwards : Option String)

/-- What a step meets, by the position of the object in its list, and of the class or the page. -/
structure StepWorld where
  /-- The id drawn for the first call. -/
  runId : ℕ → String
  page : ℕ → ℕ → PageAnswer
  call : ℕ → ℕ → Except String RemoteResultDetails
  /-- The result of an earlier action for the same arguments. -/
  reusable : ℕ → Option RemoteResultDetails
  /-- What is thrown where nothing catches it: by the signal, or by the store. -/
  halted : ℕ → ℕ → Option String
  /-- What `limitDiscoveryCheckpoint` throws. -/
  limiting : ℕ → Option String
  resolve : ℕ → Except String Payload
  /-- What looking for a grant of the scope and recording one throws. -/
  granting : ℕ → Option String
  facts : ℕ → List FactRecord
  webRoot : String → Bool

/-- What a step has seen that bears on its completeness. -/
inductive Event where
  | page (details : RemoteResultDetails)
  | answer (details : RemoteResultDetails)
  | failed (reason : String)
  | pageLimit
  /-- Something the step itself leaves out or cannot do. -/
  | shortfall (reason : String)
  deriving DecidableEq, Repr

def shortfallIf (check : Bool) (reason : String) : List Event := if check then [.shortfall reason] else []

/-! ### Outcomes -/

inductive StepStatus where
  | success | partialStep | error
  deriving DecidableEq, Repr

structure Binding where
  sourceRef : String
  objectRefs : List String
  deriving DecidableEq, Repr

structure StepOutcome where
  status : StepStatus
  runId : Option String := none
  factRefs : List String := []
  objectRefs : List String := []
  reason : Option String := none
  fanout : List Binding := []
  deriving DecidableEq, Repr

/-- An outcome, and what was seen on the way to it. -/
structure StepRun where
  outcome : StepOutcome
  seen : List Event
  deriving DecidableEq, Repr

/-- An error before any call is made. -/
def refused (reason : String) : StepRun where
  outcome := { status := .error, reason := some reason }
  seen := [.shortfall reason]

def settled (isPartial : Bool) : StepStatus := if isPartial then .partialStep else .success

/-! ### The page loop -/

def presetMaxPages : ℕ := 100

/-- The accumulators of the page loop. -/
structure Pages where
  factRefs : List String := []
  objectRefs : List String := []
  isPartial : Bool := false
  cursorRef : Option String := none
  seen : List Event := []

def Pages.add (p : Pages) (details : RemoteResultDetails) : Pages where
  factRefs := p.factRefs ++ details.factRefs
  objectRefs := p.objectRefs ++ details.objectRefs
  isPartial := p.isPartial || isIncompleteRemotePage details
  cursorRef := p.cursorRef
  seen := p.seen ++ [.page details]

/-- What a paged call returns or throws, and what it has seen. -/
structure Paged where
  result : Except String StepOutcome
  seen : List Event

section

variable (w : StepWorld) (item : ℕ)

def Pages.outcome (p : Pages) (status : StepStatus) (reason : Option String) : StepOutcome where
  status := status
  runId := some (w.runId item)
  factRefs := p.factRefs
  objectRefs := p.objectRefs
  reason := reason

def limitDiscoveryCheckpoint (cursorRef : Option String) : Option String :=
  if cursorRef = none then none else w.limiting item

/-- The pages end early, unless writing that down fails. -/
def Pages.limited (p : Pages) (event : Event) (reason : String) : Paged where
  result :=
    match limitDiscoveryCheckpoint w item p.cursorRef with
    | some thrown => .error thrown
    | none => .ok (p.outcome w item .partialStep (some reason))
  seen := p.seen ++ [event]

/-- A call fails: the error is thrown on as long as there is nothing to show. -/
def Pages.interrupted (p : Pages) (reason : String) : Paged :=
  if p.cursorRef = none ∧ p.factRefs = [] then ⟨.error reason, p.seen ++ [.failed reason]⟩
  else p.limited w item (.failed reason) reason

/-- The loop, with the number of pages that are left. -/
def turnPages : ℕ → ℕ → Pages → Paged
  | 0, _, p => p.limited w item .pageLimit "PRESET_PAGE_LIMIT"
  | left + 1, page, p =>
    match w.page item page with
    | .aborted reason => ⟨.error reason, p.seen ++ [.failed reason]⟩
    | .thrown reason => p.interrupted w item reason
    | .answered details (some reason) => (p.add details).interrupted w item reason
    | .answered details none =>
      match details.cursorRef with
      | none => ⟨.ok ((p.add details).outcome w item (settled (p.add details).isPartial) none),
          (p.add details).seen⟩
      | some cursorRef => turnPages left (page + 1) { p.add details with cursorRef := some cursorRef }

def executePaged : Paged := turnPages w item presetMaxPages 0 {}

end

/-! ### The loops over objects -/

/-- The accumulators of such a loop; `count` is what the loop counts on the way. -/
structure Tally where
  factRefs : List String := []
  objectRefs : List String := []
  fanout : List Binding := []
  count : ℕ := 0
  isPartial : Bool := false
  seen : List Event := []

namespace Tally

/-- A loop that starts with what is missing already. -/
def start (missing : List Event) : Tally := { isPartial := !missing.isEmpty, seen := missing }

/-- `partial = true` -/
def miss (t : Tally) (event : Event) : Tally := { t with isPartial := true, seen := t.seen ++ [event] }

def missIf (t : Tally) (check : Bool) (reason : String) : Tally :=
  if check then t.miss (.shortfall reason) else t

def addPaged (t : Tally) (paged : Paged) : Tally :=
  match paged.result with
  | .ok outcome =>
    { t with
      factRefs := t.factRefs ++ outcome.factRefs
      objectRefs := t.objectRefs ++ outcome.objectRefs
      isPartial := t.isPartial || outcome.status = .partialStep
      seen := t.seen ++ paged.seen }
  | .error _ => { t with isPartial := true, seen := t.seen ++ paged.seen }

/-- A single answer, and how much of it the loop counts. -/
def addAnswer (t : Tally) (details : RemoteResultDetails) (counted : ℕ) : Tally :=
  { t with
    factRefs := t.factRefs ++ details.factRefs
    objectRefs := t.objectRefs ++ details.objectRefs
    count := t.count + counted
    isPartial := t.isPartial || details.status = .partialAnswer
    seen := t.seen ++ [.answer details] }

def bind (t : Tally) (sourceRef : String) (objectRefs : List String) : Tally :=
  { t with fanout := t.fanout ++ [⟨sourceRef, objectRefs⟩] }

def finish (t : Tally) (reason : Option String) : StepRun where
  outcome :=
    { status := settled t.isPartial, factRefs := t.factRefs, objectRefs := t.objectRefs
      reason := reason, fanout := t.fanout }
  seen := t.seen

end Tally

/-- What no handler of the step catches. -/
def halt : Option String → Except String Unit
  | some reason => .error reason
  | none => .ok ()

/-- The body for each object, with its position. -/
def eachOf {α : Type} (items : List α) (start : Tally) (body : Tally → ℕ → α → Except String Tally) :
    Except String Tally :=
  items.zipIdx.foldlM (fun t entry => body t entry.2 entry.1) start

/-! ### The steps -/

/-- What the executor is given: the checks of the task, what the target can do and which tools there are, and
    the texts and digests of the runtime. -/
structure Deps where
  checks : List CheckCategory
  capabilities : Capability.EffectiveCapabilities
  tools : List ForensicVerb
  texts : Texts
  collation : Collation
  digestObject : Json → String

section

variable (deps : Deps)

def Deps.can (namespace_ : NamespaceName) (verb : ForensicVerb) : Bool :=
  (deps.capabilities.namespaces.lookup namespace_.name).any fun entry => verbName verb ∈ entry.verbs

def Deps.canProbe (probeKind : String) : Bool := probeKind ∈ deps.capabilities.probes

/-- The checks that come before any call, in their order: what they find, and the reason they give. -/
def refusal : List (Bool × String) → Option String
  | [] => none
  | (found, reason) :: rest => if found then some reason else refusal rest

def isError (previous : Option StepOutcome) : Bool := previous.any fun outcome => outcome.status = .error

def isPartialStep (previous : Option StepOutcome) : Bool :=
  previous.any fun outcome => outcome.status = .partialStep

def objectRefsOf (previous : Option StepOutcome) : List String := previous.elim [] (·.objectRefs)

def fanoutOf (previous : Option StepOutcome) : List Binding := previous.elim [] (·.fanout)

/-- An outcome without any call: nothing to do, or the reason why something is missing. -/
def idle (isPartial : Bool) (reason : String) (given : Bool) : StepRun where
  outcome := { status := settled isPartial, reason := if isPartial && given then some reason else none }
  seen := shortfallIf isPartial reason

variable (preset : PresetDefinition) (step : PresetStep) (w : StepWorld)

def executeStep : StepRun :=
  let supported := decide (verbName step.verb ∈ deps.capabilities.verbs) &&
    step.namespace_.all fun namespace_ => deps.can namespace_ step.verb
  match refusal [(!supported, "CAPABILITY_UNAVAILABLE"),
      (step.verb ∉ deps.tools, "TOOL_NOT_REGISTERED")] with
  | some reason => refused reason
  | none =>
    let paged := executePaged w 0
    match paged.result with
    | .ok outcome => ⟨outcome, paged.seen⟩
    | .error reason => ⟨{ status := .error, reason := some reason }, paged.seen⟩

/-- One root of the policy: its scope is resolved and granted, and the root enumerated. -/
def scopeBody (t : Tally) (i : ℕ) (requestedRoot : String) : Except String Tally := do
  halt (w.halted i 0)
  match w.resolve i with
  | .error reason => return t.miss (.failed reason)
  | .ok resolved =>
    match Grants.resolvedScope requestedRoot resolved, w.granting i with
    | none, _ => return t.miss (.failed "scope_resolve 返回了策略外绑定")
    | some _, some reason => return t.miss (.failed reason)
    | some _, none => return t.addPaged (executePaged w i)

def executeFixedFileScopeFanout : Except String StepRun :=
  let roots := Grants.fixedScopesByCategory preset.category
  match refusal [(roots.isEmpty, "FIXED_SCOPE_POLICY_MISSING"),
      (!deps.can .file .enumerate, "CAPABILITY_UNAVAILABLE"),
      (.enumerate ∉ deps.tools, "TOOL_NOT_REGISTERED")] with
  | some reason => .ok (refused reason)
  | none => do
    let t ← eachOf roots (.start []) (scopeBody w)
    return t.finish (if t.isPartial then some "FIXED_SCOPE_PARTIAL" else none)

/-- The packages on record among the objects, with their names. -/
def availablePackages (facts : List FactRecord) (refs : List String) : List (String × String) :=
  refs.filterMap fun ref => do
    let fact ← facts.find? fun fact => fact.subjectRef = ref ∧ fact.namespace_ = .package
    let name ← textField fact.privatePayload "name"
    return (ref, name)

/-- The place of a name in the priorities; any other name comes after all of them. -/
def rank (priorities : List String) (name : String) : ℕ := priorities.idxOf name

def selectedPackages (available : List (String × String)) : List (String × String) :=
  (available.insertionSort fun left right =>
    ((compare (rank step.packageNames left.2) (rank step.packageNames right.2)).then
      (deps.collation.localeCompare left.2 right.2)).isLE).take
    (max 1 (min 5 (step.packageLimit.getD 1)))

def packageBody (t : Tally) (i : ℕ) (package : String × String) : Except String Tally :=
  let paged := executePaged w i
  match paged.result with
  | .ok outcome => .ok ((t.addPaged paged).bind package.1 outcome.objectRefs)
  | .error _ => .ok (t.addPaged paged)

def executePackageFileFanout (packages : Option StepOutcome) : Except String StepRun :=
  let selected := selectedPackages deps step (availablePackages (w.facts 0) (objectRefsOf packages))
  match refusal [(isError packages, "PACKAGE_DISCOVERY_FAILED"),
      (!deps.can .package .relate, "CAPABILITY_UNAVAILABLE")] with
  | some reason => .ok (refused reason)
  | none =>
    if selected = [] then .ok (idle true "NO_PACKAGE_OBJECT_FOR_VERIFY" true)
    else if .relate ∉ deps.tools then .ok (refused "TOOL_NOT_REGISTERED")
    else do
      let t ← eachOf selected (.start []) (packageBody w)
      let none_ := t.objectRefs.isEmpty
      return (t.missIf none_ "NO_PACKAGE_FILES_FOR_VERIFY").finish
        (if none_ then some "NO_PACKAGE_FILES_FOR_VERIFY" else none)

def verifyBody (t : Tally) (i : ℕ) (_ref : String) : Except String Tally :=
  match w.reusable i with
  | some details => .ok (t.addAnswer details 0)
  | none =>
    match w.call i 0 with
    | .ok details => .ok (t.addAnswer details 0)
    | .error reason => .ok (t.miss (.failed reason))

def executeVerifyFanout (files : Option StepOutcome) : Except String StepRun :=
  let refs := (Js.distinct (objectRefsOf files)).take (max 1 (min 20 (step.limit.getD 5)))
  match refusal [(isError files, "PACKAGE_FILE_DISCOVERY_FAILED"),
      (!deps.can .file .verify, "CAPABILITY_UNAVAILABLE")] with
  | some reason => .ok (refused reason)
  | none =>
    if refs = [] then .ok (idle true "NO_PACKAGE_FILES_FOR_VERIFY" true)
    else if .verify ∉ deps.tools then .ok (refused "TOOL_NOT_REGISTERED")
    else do
      let t ← eachOf refs (.start []) (verifyBody w)
      return t.finish none

/-- `INITIAL_GRANT_POLICY.discoveredScopesByCategory.webshell.maximum` -/
def discoveredScopesMaximum : ℕ := 20

/-- A web root on record: its scope is granted, and the root enumerated. -/
def webRootBody (t : Tally) (i : ℕ) (ref : String) : Except String Tally := do
  halt (w.halted i 0)
  let facts := (w.facts i).map fun fact => (fact.subjectRef, fact.privatePayload)
  if w.webRoot ref ∧ (Grants.webRootScope (Grants.webRootPayload facts ref)).isSome then
    halt (w.granting i)
    return t.addPaged (executePaged w i)
  else return t.miss (.shortfall "WEB_ROOT_UNKNOWN")

def executeWebFileFanout (roots : Option StepOutcome) : Except String StepRun :=
  let refs := (objectRefsOf roots).take discoveredScopesMaximum
  let missing := shortfallIf (isPartialStep roots) "WEB_ROOT_DISCOVERY_PARTIAL"
  if isError roots then .ok (refused "WEB_ROOT_DISCOVERY_FAILED")
  else if refs = [] then .ok (idle (isPartialStep roots) "WEB_ROOT_DISCOVERY_PARTIAL" true)
  else if .enumerate ∉ deps.tools then .ok (refused "TOOL_NOT_REGISTERED")
  else do
    let t ← eachOf refs (.start (missing ++
      shortfallIf (refs.length < (objectRefsOf roots).length) "WEB_ROOT_LIMIT")) (webRootBody w)
    return t.finish none

/-! The classes of a Java process. -/

structure InspectionTarget where
  className : String
  classLoaderId : String
  deriving DecidableEq, Repr

/-- The components of one logical key. -/
structure TargetGroup where
  usable : List InspectionTarget
  unresolved : Bool

def usableField (payload : Payload) (name : String) : Option String :=
  (textField payload name).filter (isUsableJavaClassIdentifier deps.texts)

/-- `value ?? null` -/
def orNull : Option Json → Json
  | some value => value
  | none => .null

/-- `left ?? right` -/
def coalesce (left right : Option Json) : Option Json := (left.filter (· ≠ .null)).or right

def logicalKey (payload : Payload) (className : String) : String :=
  deps.digestObject (.obj [("className", .str className),
    ("context", orNull (coalesce (field payload "context") (field payload "contextPath"))),
    ("componentKind", orNull (field payload "componentKind")), ("name", orNull (field payload "name"))])

def addComponent (groups : List (String × TargetGroup) × Bool) (fact : FactRecord) :
    List (String × TargetGroup) × Bool :=
  match usableField deps fact.privatePayload "className" with
  | none => (groups.1, true)
  | some className =>
    let update (group : Option TargetGroup) : TargetGroup :=
      let group := group.getD ⟨[], false⟩
      match usableField deps fact.privatePayload "classLoaderId" with
      | some classLoaderId => { group with usable := group.usable ++ [⟨className, classLoaderId⟩] }
      | none => { group with unresolved := true }
    (OrderedMap.upsert (logicalKey deps fact.privatePayload className) update groups.1, groups.2)

/-- Targets that are told apart by their joined names. -/
def dedupTargets (targets : List InspectionTarget) : List InspectionTarget :=
  (targets.foldl (fun map target => OrderedMap.upsert (target.className ++ "\x00" ++ target.classLoaderId)
    (fun _ => target) map) []).map (·.2)

/-- The classes to inspect, and whether some are left out. -/
def selectJavaClassInspectionTargets (facts : List FactRecord) (objectRefs : List String) (maximum : ℕ) :
    List InspectionTarget × Bool :=
  let grouped := (facts.filter fun fact => fact.namespace_ = .javaComponent ∧
    fact.subjectRef ∈ objectRefs).foldl (addComponent deps) ([], false)
  let allTargets := dedupTargets (grouped.1.flatMap fun group => group.2.usable)
  (allTargets.take maximum, grouped.2 || grouped.1.any (fun group => group.2.usable.isEmpty) ||
    decide (maximum < allTargets.length))

def inspectBody (i : ℕ) (t : Tally) (j : ℕ) (_target : InspectionTarget) : Except String Tally := do
  halt (w.halted i j)
  match w.call i j with
  | .ok details => return t.addAnswer details 1
  | .error reason => return t.miss (.failed reason)

/-- The classes of one process; what was captured of it is the objects this loop adds. -/
def inspectBinding (facts : List FactRecord) (t : Tally) (i : ℕ) (binding : Binding) :
    Except String Tally := do
  let selected := selectJavaClassInspectionTargets deps facts binding.objectRefs 20
  let begun := t.missIf selected.2 "CLASS_IDENTITY_INCOMPLETE"
  if selected.1 = [] then return begun.miss (.shortfall "NO_CLASS_TARGET")
  else
    let inner ← eachOf selected.1 begun (inspectBody w i)
    let bound := inner.objectRefs.drop begun.objectRefs.length
    return if bound = [] then inner else inner.bind binding.sourceRef (Js.distinct bound)

def executeClassInspectFanout (inventory : Option StepOutcome) : Except String StepRun :=
  match refusal [(isError inventory, "TOMCAT_INVENTORY_FAILED"),
      (!deps.canProbe "jvm.class.inspect", "CAPABILITY_UNAVAILABLE"),
      (.probe ∉ deps.tools, "TOOL_NOT_REGISTERED")] with
  | some reason => .ok (refused reason)
  | none => do
    let missing := shortfallIf (isPartialStep inventory) "TOMCAT_INVENTORY_PARTIAL"
    let t ← eachOf (fanoutOf inventory) (.start missing) (inspectBinding deps w (w.facts 0))
    return if t.count = 0 then
      { t with fanout := [] }.finish (if t.isPartial then some "NO_INSPECTABLE_CLASS" else none)
    else t.finish none

/-- The last class fact of each object, as many as are captured. -/
def capturedClasses (facts : List FactRecord) (objectRefs : List String) : List FactRecord :=
  (objectRefs.flatMap fun ref =>
    (facts.filter fun fact => fact.subjectRef = ref ∧ fact.namespace_ = .class_).getLast?.toList).take 20

def dumpBody (i : ℕ) (t : Tally) (j : ℕ) (fact : FactRecord) : Except String Tally :=
  if (textField fact.privatePayload "className").isNone ∨ (textField fact.privatePayload "loaderId").isNone then
    .ok (t.miss (.shortfall "CLASS_IDENTITY_INCOMPLETE"))
  else do
    halt (w.halted i j)
    match w.call i j with
    | .ok details =>
      return (t.addAnswer details details.evidenceRefs.length).missIf details.evidenceRefs.isEmpty
        "NO_EVIDENCE"
    | .error reason => return t.miss (.failed reason)

def dumpBinding (facts : List FactRecord) (t : Tally) (i : ℕ) (binding : Binding) : Except String Tally :=
  eachOf (capturedClasses facts binding.objectRefs) t (dumpBody w i)

def executeClassDumpFanout (inspected : Option StepOutcome) : Except String StepRun :=
  match refusal [(isError inspected, "CLASS_INSPECTION_FAILED"),
      (!deps.canProbe "jvm.class.dump", "CAPABILITY_UNAVAILABLE"),
      (.probe ∉ deps.tools, "TOOL_NOT_REGISTERED")] with
  | some reason => .ok (refused reason)
  | none => do
    let missing := shortfallIf (isPartialStep inspected) "CLASS_INSPECTION_PARTIAL"
    let t ← eachOf (fanoutOf inspected) (.start missing) (dumpBinding w (w.facts 0))
    let ended := t.missIf (t.count = 0 && !(objectRefsOf inspected).isEmpty) "NO_CLASS_BYTECODE_EVIDENCE"
    return ended.finish (if t.count = 0 && ended.isPartial then some "NO_CLASS_BYTECODE_EVIDENCE" else none)

def probeBody (t : Tally) (i : ℕ) (ref : String) : Except String Tally :=
  match w.call i 0 with
  | .ok details => .ok ((t.addAnswer details 0).bind ref details.objectRefs)
  | .error reason => .ok (t.miss (.failed reason))

def executeProbeFanout (discovery : Option StepOutcome) : Except String StepRun :=
  let refs := (objectRefsOf discovery).take 20
  match refusal [(isError discovery, "JVM_DISCOVERY_FAILED"),
      (!deps.canProbe "jvm.tomcat.inventory", "CAPABILITY_UNAVAILABLE")] with
  | some reason => .ok (refused reason)
  | none =>
    if refs = [] then .ok (idle (isPartialStep discovery) "JVM_DISCOVERY_PARTIAL" false)
    else if .probe ∉ deps.tools then .ok (refused "TOOL_NOT_REGISTERED")
    else do
      let missing := shortfallIf (isPartialStep discovery) "JVM_DISCOVERY_PARTIAL" ++
        shortfallIf (refs.length < (objectRefsOf discovery).length) "JVM_LIMIT"
      let t ← eachOf refs (.start missing) (probeBody w)
      return t.finish none

end

/-! ### Coverage -/

structure MissingCriterion where
  criterion : String
  reasonCode : String
  sourceRunId : Option String
  deriving DecidableEq, Repr

/-- A coverage run with the columns that the executor fills. -/
structure PresetCoverage extends CoverageRun where
  presetId : String
  presetVersion : String
  completedCriteria : List String
  missingCriteria : List MissingCriterion
  deriving DecidableEq, Repr

/-- `outcomes`: the steps that have run, in order. -/
abbrev Outcomes := List (String × StepRun)

section

variable (outcomes : Outcomes)

def outcomeOf (stepId : String) : Option StepOutcome := (outcomes.lookup stepId).map (·.outcome)

def succeeded (outcome : Option StepOutcome) : Bool := outcome.any fun o => o.status = .success

def completes (criterion : CoverageCriterion) : Bool :=
  criterion.stepIds.all fun stepId => succeeded (outcomeOf outcomes stepId)

def missingCriterion (criterion : CoverageCriterion) : MissingCriterion :=
  let failed := ((criterion.stepIds.map (outcomeOf outcomes)).find? fun value => !succeeded value).join
  { criterion := criterion.criterion
    reasonCode :=
      if isPartialStep failed then "PARTIAL_SOURCE" else (failed.bind (·.reason)).getD "NOT_RUN"
    sourceRunId := failed.bind (·.runId) }

def coverageStatus : CoverageStatus :=
  if outcomes ≠ [] ∧ ∀ entry ∈ outcomes, entry.2.outcome.status = .success then .complete
  else if ∃ entry ∈ outcomes, entry.2.outcome.status ≠ .error then .partialCoverage
  else .error

def factCount : ℕ := (outcomes.map fun entry => entry.2.outcome.factRefs.length).sum

def coverageRun (preset : PresetDefinition) (coverageId : String) : PresetCoverage where
  coverageId := coverageId
  category := preset.category
  status := coverageStatus outcomes
  applicability :=
    if coverageStatus outcomes = .complete ∧ factCount outcomes = 0 then .notApplicable
    else if coverageStatus outcomes = .complete then .applicable
    else .unknown
  presetId := preset.presetId
  presetVersion := preset.version
  completedCriteria := (preset.coverageCriteria.filter (completes outcomes)).map (·.criterion)
  missingCriteria :=
    (preset.coverageCriteria.filter fun criterion => !completes outcomes criterion).map
      (missingCriterion outcomes)

end

/-! ### The run -/

/-- What a run of the executor meets. -/
structure World where
  step : String → StepWorld
  /-- What the signal throws before a preset or a step of the prelude. -/
  aborted : String → Option String
  coverageId : String → String
  /-- What `putCoverageRun` throws. -/
  recording : String → Option String

/-- A preset that has run to its end, and the coverage put on record. -/
structure PresetRun where
  preset : PresetDefinition
  outcomes : Outcomes
  coverage : PresetCoverage

section

variable (deps : Deps) (world : World)

/-- The step under its id, given the outcomes before it. -/
def executeNamed (preset : PresetDefinition) (step : PresetStep) (outcomes : Outcomes) :
    Except String StepRun :=
  let w := world.step step.stepId
  if step.stepId = "web-candidate-file" then executeWebFileFanout deps w (outcomeOf outcomes "web-root")
  else if step.stepId = "triage-file-scopes" then executeFixedFileScopeFanout deps preset w
  else if step.stepId = "package-owned-files" then
    executePackageFileFanout deps step w (outcomeOf outcomes "package-baseline")
  else if step.stepId = "package-file-verify" then
    executeVerifyFanout deps step w (outcomeOf outcomes "package-owned-files")
  else if step.stepId = "tomcat-inventory" then
    executeProbeFanout deps w (outcomeOf outcomes "jvm-discovery")
  else if step.stepId = "jvm-class-inspect" then
    executeClassInspectFanout deps w (outcomeOf outcomes "tomcat-inventory")
  else if step.stepId = "jvm-class-bytecode" then
    executeClassDumpFanout deps w (outcomeOf outcomes "jvm-class-inspect")
  else .ok (executeStep deps step w)

/-- The steps that have no outcome yet, in order. -/
def runSteps (preset : PresetDefinition) : List PresetStep → Outcomes → Except String Outcomes
  | [], outcomes => .ok outcomes
  | step :: rest, outcomes =>
    if step.stepId ∈ outcomes.map Prod.fst then runSteps preset rest outcomes
    else do
      let run ← executeNamed deps world preset step outcomes
      runSteps preset rest (outcomes ++ [(step.stepId, run)])

/-- The outcomes of a prelude, by the preset. -/
abbrev Seeded := List (String × Outcomes)

def runPreset (seeded : Seeded) (preset : PresetDefinition) : Except String PresetRun := do
  halt (world.aborted preset.presetId)
  let outcomes ← runSteps deps world preset preset.steps ((seeded.lookup preset.presetId).getD [])
  halt (world.recording preset.presetId)
  return ⟨preset, outcomes, coverageRun outcomes preset (world.coverageId preset.presetId)⟩

/-- The presets in order; what is on record stays when one throws. -/
def runPresets (seeded : Seeded) : List PresetDefinition → List PresetRun
  | [] => []
  | preset :: rest =>
    match runPreset deps world seeded preset with
    | .ok run => run :: runPresets seeded rest
    | .error _ => []

def preludeSteps : List String := ["process-snapshot", "socket-snapshot"]

/-- The steps of the prelude that have no outcome yet. -/
def runPrelude (preset : PresetDefinition) : List String → Outcomes → Except String Outcomes
  | [], outcomes => .ok outcomes
  | stepId :: rest, outcomes =>
    match preset.steps.find? fun step => step.stepId = stepId with
    | none => runPrelude preset rest outcomes
    | some step =>
      if stepId ∈ outcomes.map Prod.fst then runPrelude preset rest outcomes
      else do
        halt (world.aborted stepId)
        runPrelude preset rest (outcomes ++ [(stepId, executeStep deps step (world.step stepId))])

/-! ### The machine -/

/-- What an executor keeps, and the runs on record. -/
structure Executor where
  seeded : Seeded
  recorded : List PresetRun

def Executor.empty : Executor := ⟨[], []⟩

def runVolatilePrelude (s : Executor) : Executor :=
  match (selectedPresets deps.checks).find? fun preset => preset.presetId = "linux-triage-baseline" with
  | none => s
  | some preset =>
    match runPrelude deps world preset preludeSteps ((s.seeded.lookup preset.presetId).getD []) with
    | .ok outcomes => { s with seeded := OrderedMap.upsert preset.presetId (fun _ => outcomes) s.seeded }
    | .error _ => s

inductive Op where
  | volatilePrelude (world : World)
  | run (world : World)

def step (s : Executor) : Op → Executor
  | .volatilePrelude world => runVolatilePrelude deps world s
  | .run world =>
    { s with recorded := s.recorded ++ runPresets deps world s.seeded (selectedPresets deps.checks) }

def runOps (ops : List Op) : Executor := Runs.run (step deps) .empty ops

end

end HuntWarden.Presets
