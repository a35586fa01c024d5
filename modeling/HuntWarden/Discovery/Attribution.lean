import HuntWarden.Discovery.VolatileDiscovery

/-! Which process an external socket is put down to. The resolver of derived objects takes the one process
    whose boot id, start ticks and PID namespace are those the socket records; volatile discovery takes the
    last one that bears the PID. Whenever these differ, a PID has been used again. -/

namespace HuntWarden.VolatileDiscovery

open Outcome Playbooks

/-! ### The resolver -/

inductive DerivedResolverRef where
  | socketOwnerByPid | processParentByPpid
  deriving DecidableEq, Repr

def DerivedResolverRef.name : DerivedResolverRef → String
  | .socketOwnerByPid => "socket.owner_by_pid@1.0.0"
  | .processParentByPpid => "process.parent_by_ppid@1.0.0"

structure ResolverDefinition where
  sourceNamespace : NamespaceName
  targetNamespace : NamespaceName
  relation : String
  sourceJoinField : String
  targetJoinField : String

def derivedResolvers : DerivedResolverRef → ResolverDefinition
  | .socketOwnerByPid => ⟨.socket, .process, "owned_by", "pid", "pid"⟩
  | .processParentByPpid => ⟨.process, .process, "parent", "ppid", "pid"⟩

structure DerivedObjectRequest where
  requestId : String
  resolverRef : DerivedResolverRef
  sourceFactRef : String

structure AuthorizationEnvelope where
  derivedRelations : List String
  namespaces : List NamespaceName

inductive DerivedStatus where
  | resolved | ambiguous | noMatch
  deriving DecidableEq, Repr

structure DerivedObjectResult where
  status : DerivedStatus
  objectRefs : List String
  edgeRefs : List String
  deriving DecidableEq, Repr

def stringField (fact : FactRecord) (name : String) : Option String :=
  (textField fact.privatePayload name).filter (· ≠ "")

/-- `/^\d+$/` -/
def integerStringField (fact : FactRecord) (name : String) : Option String :=
  (stringField fact name).filter fun text => text.toList.all Char.isDigit

def namespaceField (fact : FactRecord) : Option String :=
  match field fact.privatePayload "namespaces" with
  | some (.obj namespaces) => ((namespaces.lookup "pid").bind Json.asString?).filter (· ≠ "")
  | _ => none

def hasStableProcessRelationship (resolverRef : DerivedResolverRef) (source target : FactRecord) : Bool :=
  match stringField target "bootId", integerStringField target "startTicks", namespaceField target with
  | some bootId, some startTicks, some pidNamespace =>
    match resolverRef with
    | .socketOwnerByPid =>
      stringField source "ownerBootId" = some bootId &&
        integerStringField source "ownerStartTicks" = some startTicks &&
        stringField source "ownerPidNamespace" = some pidNamespace
    | .processParentByPpid =>
      source.sourceRunId = target.sourceRunId && stringField source "bootId" = some bootId &&
        namespaceField source = some pidNamespace &&
        (integerStringField source "startTicks").any fun ticks =>
          decide (startTicks.toNat?.getD 0 < ticks.toNat?.getD 0)
  | _, _, _ => false

variable (r : PlanRuntime)

/-- `NaN` where a date cannot be read. -/
def distance (left right : FactRecord) : Option ℤ := do
  let a ← r.projection.dateParse left.observedAt
  let b ← r.projection.dateParse right.observedAt
  return |a - b|

/-- The nearer one in time comes first, then the one whose name does. -/
def nearer (source left right : FactRecord) : Prop :=
  match distance r source left, distance r source right with
  | some a, some b =>
    a < b ∨ (a = b ∧ r.projection.collation.localeCompare left.subjectRef right.subjectRef ≠ .gt)
  | _, _ => r.projection.collation.localeCompare left.subjectRef right.subjectRef ≠ .gt

instance (source left right : FactRecord) : Decidable (nearer r source left right) := by
  unfold nearer
  split <;> infer_instance

def getFact (s : VolatileStore) (factId : String) : Option FactRecord :=
  s.planner.facts.find? (·.factId = factId)

/-- `joinValue === undefined || joinValue === null || joinValue === ""`, or the value. -/
def joinValue (definition : ResolverDefinition) (source : FactRecord) : Option Json :=
  (field source.privatePayload definition.sourceJoinField).filter fun value =>
    value ≠ .null ∧ value ≠ .str ""

def joined (definition : ResolverDefinition) (source : FactRecord) (value : Json) (s : VolatileStore) :
    List FactRecord :=
  ((latestOf s definition.targetNamespace).filter fun fact =>
    (field fact.privatePayload definition.targetJoinField).any (Js.strictEqual value) &&
      fact.subjectRef ≠ source.subjectRef).insertionSort (nearer r source)

def derivedEdgeId (request : DerivedObjectRequest) (target : FactRecord) : String :=
  "EDGE-DERIVED-" ++ String.ofList ((r.digestObject (.obj [("taskId", .str r.taskId), ("epochId", .str r.epochId),
    ("resolverRef", .str request.resolverRef.name), ("sourceFactRef", .str request.sourceFactRef),
    ("targetFactRef", .str target.factId)])).toList.take 40)

def resolve (request : DerivedObjectRequest) (authorization : AuthorizationEnvelope) (s : VolatileStore) :
    Except Thrown DerivedObjectResult := do
  let definition := derivedResolvers request.resolverRef
  let source ← orThrow ((getFact s request.sourceFactRef).filter (·.namespace_ = definition.sourceNamespace))
    (.native "派生请求必须引用当前 Epoch 且类型匹配的来源 Fact")
  require (definition.relation ∈ authorization.derivedRelations ∧
      definition.sourceNamespace ∈ authorization.namespaces ∧
      definition.targetNamespace ∈ authorization.namespaces)
    (.native "派生关系不在当前授权包络内")
  match joinValue definition source with
  | none => return ⟨.noMatch, [], []⟩
  | some value =>
    let candidates := joined r definition source value s
    if candidates = [] then return ⟨.noMatch, [], []⟩
    else match candidates.filter (hasStableProcessRelationship request.resolverRef source) with
      | [target] => return ⟨.resolved, [target.subjectRef], [derivedEdgeId r request target]⟩
      | _ => return ⟨.ambiguous, Js.distinct (candidates.map (·.subjectRef)), []⟩

/-! ### What is to hold -/

/-- Facts as they are stored: no two with one id, and each object in one namespace. -/
structure ObjectStore extends VolatileStore where
  identified : (planner.facts.map (·.factId)).Nodup
  typed : ∀ a ∈ planner.facts, ∀ b ∈ planner.facts, a.subjectRef = b.subjectRef → a.namespace_ = b.namespace_

/-- The planner puts the connection of the socket down to the process. -/
def Attributes (s : VolatileStore) (socket process : FactRecord) : Prop :=
  ⟨process, [socket, process], "EXTERNAL_CONNECTION", 100⟩ ∈ candidates r s

/-- What the socket records of its owner is so of the process. -/
structure Matches (socket process : FactRecord) : Prop where
  bootId : ∀ value, stringField socket "ownerBootId" = some value →
    stringField process "bootId" = some value
  startTicks : ∀ value, integerStringField socket "ownerStartTicks" = some value →
    integerStringField process "startTicks" = some value
  pidNamespace : ∀ value, stringField socket "ownerPidNamespace" = some value →
    namespaceField process = some value

/-- Where the resolver resolves the owner of the socket, it is the process. -/
def ResolvesTo (s : VolatileStore) (socket process : FactRecord) : Prop :=
  ∀ request authorization result, request.resolverRef = .socketOwnerByPid →
    request.sourceFactRef = socket.factId → resolve r request authorization s = .ok result →
    result.status = .resolved → result.objectRefs = [process.subjectRef]

/-- Every attribution of an external socket agrees with what the socket records and with the resolver. -/
def AttributesOwners (s : VolatileStore) : Prop :=
  ∀ socket process, Attributes r s socket process → Matches socket process ∧ ResolvesTo r s socket process

/-- The process that was first observed last among those with the PID of an external socket is the one whose
    identity the socket records. -/
def LastBearerOwns (s : VolatileStore) : Prop :=
  .linuxIntrusionTriage ∈ s.planner.checks →
    ∀ socket ∈ latestOf s .socket, isExternal socket = true → ∀ earlier process subsequent,
      latestOf s .process = earlier ++ process :: subsequent →
      field socket.privatePayload "pid" = field process.privatePayload "pid" →
      (numberField process.privatePayload "pid").isSome →
      (∀ other ∈ subsequent, field other.privatePayload "pid" ≠ field process.privatePayload "pid") →
      Matches socket process

/-! ### The attributions -/

variable {r}

theorem numberField_eq_some {payload : Payload} {name : String} {value : ℚ} :
    numberField payload name = some value ↔ field payload name = some (.num value) := by
  rw [numberField]
  split
  · next found hfound =>
    rw [hfound]
    simp
  · next hnone =>
    exact iff_of_false (fun h => nomatch h) fun h => hnone value h

theorem mem_latestOf {s : VolatileStore} {namespace_ : NamespaceName} {fact : FactRecord}
    (h : fact ∈ latestOf s namespace_) : fact ∈ s.planner.facts ∧ fact.namespace_ = namespace_ := by
  have hmem := List.mem_filter.1 (latestBySubject_subset h)
  exact ⟨hmem.1, of_decide_eq_true hmem.2⟩

/-- The last item that meets a condition. -/
theorem getLast?_filter_eq_some {α : Type} {l : List α} {p : α → Bool} {a : α} :
    (l.filter p).getLast? = some a ↔
      p a = true ∧ ∃ earlier subsequent, l = earlier ++ a :: subsequent ∧ ∀ b ∈ subsequent, p b = false := by
  rw [List.getLast?_eq_head?_reverse, ← List.filter_reverse, List.head?_filter, List.find?_eq_some_iff_append]
  refine and_congr_right fun _ => ⟨?_, ?_⟩
  · rintro ⟨before, after, hsplit, hbefore⟩
    refine ⟨after.reverse, before.reverse, ?_, fun b hb => ?_⟩
    · have hreverse := congrArg List.reverse hsplit
      simpa using hreverse
    · simpa using hbefore b (List.mem_reverse.1 hb)
  · rintro ⟨earlier, subsequent, rfl, hsubsequent⟩
    refine ⟨subsequent.reverse, earlier.reverse, by simp, fun b hb => ?_⟩
    simpa using hsubsequent b (List.mem_reverse.1 hb)

theorem mem_foldl_addUnusual {candidate : Candidate} (htrigger : candidate.trigger = "EXTERNAL_CONNECTION") :
    ∀ (processes : List FactRecord) (known : List Candidate),
      candidate ∈ processes.foldl (addUnusual r) known ↔ candidate ∈ known
  | [], _ => Iff.rfl
  | process :: rest, known => by
    rw [List.foldl_cons, mem_foldl_addUnusual htrigger rest, addUnusual]
    split
    · rw [List.mem_append, List.mem_singleton]
      refine ⟨fun h => h.elim id fun heq => ?_, Or.inl⟩
      have hunusual : "UNUSUAL_EXECUTION" = "EXTERNAL_CONNECTION" := by rw [heq] at htrigger; exact htrigger
      exact absurd hunusual (by decide)
    · exact Iff.rfl

theorem attributes_iff {s : VolatileStore} {socket process : FactRecord} :
    Attributes r s socket process ↔ .linuxIntrusionTriage ∈ s.planner.checks ∧ socket ∈ latestOf s .socket ∧
      isExternal socket = true ∧ ownerOf (latestOf s .process) socket = some process := by
  rw [Attributes, candidates]
  split
  · next htriage =>
    dsimp only
    rw [mem_foldl_addUnusual rfl, List.mem_map, and_iff_right htriage]
    constructor
    · rintro ⟨found, hfound, hcandidate⟩
      obtain ⟨hsocket, hexternal⟩ := List.mem_filter.1 hfound
      rw [socketCandidate] at hcandidate
      split at hcandidate
      · next owner howner =>
        simp only [Candidate.mk.injEq, List.cons.injEq, and_true] at hcandidate
        obtain ⟨-, rfl, rfl⟩ := hcandidate
        exact ⟨hsocket, hexternal, howner⟩
      · have hpriority : (90 : ℤ) = 100 := congrArg Candidate.priority hcandidate
        exact absurd hpriority (by decide)
    · rintro ⟨hsocket, hexternal, howner⟩
      refine ⟨socket, List.mem_filter.2 ⟨hsocket, hexternal⟩, ?_⟩
      rw [socketCandidate, howner]
  · next hnot => exact iff_of_false List.not_mem_nil fun h => hnot h.1

theorem ownerOf_eq_some {processes : List FactRecord} {socket process : FactRecord} :
    ownerOf processes socket = some process ↔
      (numberField process.privatePayload "pid").isSome = true ∧
      field socket.privatePayload "pid" = field process.privatePayload "pid" ∧
      ∃ earlier subsequent, processes = earlier ++ process :: subsequent ∧
        ∀ other ∈ subsequent, field other.privatePayload "pid" ≠ field process.privatePayload "pid" := by
  rw [ownerOf, Option.bind_eq_some_iff]
  simp only [processByPid, getLast?_filter_eq_some, decide_eq_true_eq, decide_eq_false_iff_not]
  constructor
  · rintro ⟨pid, hsocket, hprocess, earlier, subsequent, hsplit, hsubsequent⟩
    refine ⟨by rw [hprocess]; rfl, ?_, earlier, subsequent, hsplit, fun other hother heq => ?_⟩
    · rw [numberField_eq_some.1 hsocket, numberField_eq_some.1 hprocess]
    · refine hsubsequent other hother ?_
      rw [numberField_eq_some, heq]
      exact numberField_eq_some.1 hprocess
  · rintro ⟨hsome, hpid, earlier, subsequent, hsplit, hsubsequent⟩
    obtain ⟨pid, hprocess⟩ := Option.isSome_iff_exists.1 hsome
    have hfield := numberField_eq_some.1 hprocess
    refine ⟨pid, numberField_eq_some.2 (hpid.trans hfield), hprocess, earlier, subsequent, hsplit,
      fun other hother heq => hsubsequent other hother ?_⟩
    rw [numberField_eq_some.1 heq, hfield]

/-- What the socket records is so of its attributed process exactly where the last bearer of the PID owns it. -/
theorem matches_iff_lastBearer (s : VolatileStore) :
    (∀ socket process, Attributes r s socket process → Matches socket process) ↔ LastBearerOwns s := by
  constructor
  · intro h htriage socket hsocket hexternal earlier process subsequent hsplit hpid hsome hlast
    exact h socket process (attributes_iff.2 ⟨htriage, hsocket, hexternal,
      ownerOf_eq_some.2 ⟨hsome, hpid, earlier, subsequent, hsplit, hlast⟩⟩)
  · intro h socket process hattributes
    obtain ⟨htriage, hsocket, hexternal, howner⟩ := attributes_iff.1 hattributes
    obtain ⟨hsome, hpid, earlier, subsequent, hsplit, hlast⟩ := ownerOf_eq_some.1 howner
    exact h htriage socket hsocket hexternal earlier process subsequent hsplit hpid hsome hlast

/-! ### The resolver agrees -/

theorem getFact_of_mem (s : ObjectStore) {fact : FactRecord} (h : fact ∈ s.planner.facts) :
    getFact s.toVolatileStore fact.factId = some fact := by
  cases hfind : getFact s.toVolatileStore fact.factId with
  | none => exact absurd (decide_eq_true rfl) (List.find?_eq_none.1 hfind fact h)
  | some found =>
    have hid : found.factId = fact.factId := by simpa using List.find?_some hfind
    rw [List.inj_on_of_nodup_map s.identified (List.mem_of_find?_eq_some hfind) h hid]

/-- A process that matches the socket is as good a target as any that is stably related to it. -/
theorem Matches.stable {socket process target : FactRecord} (h : Matches socket process)
    (htarget : hasStableProcessRelationship .socketOwnerByPid socket target = true) :
    hasStableProcessRelationship .socketOwnerByPid socket process = true := by
  rw [hasStableProcessRelationship] at htarget
  split at htarget
  · next bootId startTicks pidNamespace _ _ _ =>
    simp only [Bool.and_eq_true, decide_eq_true_eq] at htarget
    obtain ⟨⟨hboot, hticks⟩, hnamespace⟩ := htarget
    rw [hasStableProcessRelationship, h.bootId bootId hboot, h.startTicks startTicks hticks,
      h.pidNamespace pidNamespace hnamespace]
    simp [hboot, hticks, hnamespace]
  · cases htarget

/-- An attributed process that matches the socket is the one the resolver finds, if it finds one. -/
theorem resolvesTo_of_matches (s : ObjectStore) {socket process : FactRecord}
    (hattributes : Attributes r s.toVolatileStore socket process) (hmatches : Matches socket process) :
    ResolvesTo r s.toVolatileStore socket process := by
  obtain ⟨-, hsocket, -, howner⟩ := attributes_iff.1 hattributes
  obtain ⟨hsome, hpid, earlier, subsequent, hsplit, -⟩ := ownerOf_eq_some.1 howner
  obtain ⟨pid, hprocessPid⟩ := Option.isSome_iff_exists.1 hsome
  have hprocessPid := numberField_eq_some.1 hprocessPid
  have hprocess : process ∈ latestOf s.toVolatileStore .process := by
    rw [hsplit]
    exact List.mem_append_right _ List.mem_cons_self
  have hdifferent : process.subjectRef ≠ socket.subjectRef := by
    intro heq
    have hsame := s.typed process (mem_latestOf hprocess).1 socket (mem_latestOf hsocket).1 heq
    rw [(mem_latestOf hprocess).2, (mem_latestOf hsocket).2] at hsame
    cases hsame
  rintro ⟨requestId, -, -⟩ authorization result rfl rfl hresolve hresolved
  have hjoin : joinValue (derivedResolvers .socketOwnerByPid) socket = some (.num pid) := by
    have hfield : field socket.privatePayload "pid" = some (.num pid) := hpid.trans hprocessPid
    rw [joinValue, derivedResolvers, hfield]
    rfl
  simp only [resolve, bind_ok, orThrow_ok, require_ok] at hresolve
  obtain ⟨source, hsource, _, -, hresolve⟩ := hresolve
  rw [getFact_of_mem s (mem_latestOf hsocket).1] at hsource
  obtain rfl : socket = source := by
    have hkept := hsource
    rw [Option.filter_eq_some_iff] at hkept
    exact Option.some.inj hkept.1
  rw [hjoin] at hresolve
  dsimp only at hresolve
  have hjoined : process ∈ joined r (derivedResolvers .socketOwnerByPid) socket (.num pid) s.toVolatileStore := by
    refine (List.perm_insertionSort _ _).mem_iff.2 (List.mem_filter.2 ⟨hprocess, ?_⟩)
    have htarget : field process.privatePayload (derivedResolvers .socketOwnerByPid).targetJoinField =
        some (.num pid) := hprocessPid
    rw [htarget]
    simpa [Js.strictEqual] using hdifferent
  rw [if_neg (List.ne_nil_of_mem hjoined)] at hresolve
  split at hresolve
  · next target htargets =>
    have htarget := List.mem_filter.1 (htargets ▸ List.mem_singleton_self target)
    have hmem := List.mem_filter.2 ⟨hjoined, hmatches.stable htarget.2⟩
    rw [htargets, List.mem_singleton] at hmem
    rw [pure_ok] at hresolve
    rw [← hresolve, hmem]
  · rw [pure_ok] at hresolve
    rw [← hresolve] at hresolved
    cases hresolved

/-- The attributions are those of the resolver exactly where each PID of an external socket was last taken by
    the process that owns the socket. -/
theorem attributesOwners_iff (r : PlanRuntime) (s : ObjectStore) :
    AttributesOwners r s.toVolatileStore ↔ LastBearerOwns s.toVolatileStore := by
  rw [← matches_iff_lastBearer (r := r)]
  exact ⟨fun h socket process hattributes => (h socket process hattributes).1,
    fun h socket process hattributes => ⟨h socket process hattributes,
      resolvesTo_of_matches s hattributes (h socket process hattributes)⟩⟩

/-! ### A PID used twice -/

def processFact (factSeq : ℕ) (subjectRef startTicks : String) : FactRecord :=
  { sampleFact factSeq .process subjectRef with
    privatePayload := [("pid", .num 100), ("bootId", .str "boot-1"), ("startTicks", .str startTicks),
      ("namespaces", .obj [("pid", .str "pid:[1]")])] }

def socketFact (factSeq : ℕ) (subjectRef ownerStartTicks : String) : FactRecord :=
  { sampleFact factSeq .socket subjectRef with
    privatePayload := [("remoteAddress", .str "8.8.8.8"), ("pid", .num 100), ("ownerBootId", .str "boot-1"),
      ("ownerStartTicks", .str ownerStartTicks), ("ownerPidNamespace", .str "pid:[1]")] }

def sampleVolatile (facts : List FactRecord) (numbered : facts.Pairwise fun a b => a.factSeq < b.factSeq) :
    VolatileStore where
  planner := sampleStore facts numbered [.linuxIntrusionTriage] [] 0
  leads := .empty
  origin _ := ⟨.analyst, [], "", ""⟩

/-- The connection was opened by the first process; the second one has its PID now. -/
def reusedPid : ObjectStore where
  toVolatileStore := sampleVolatile
    [processFact 1 "OBJ-1" "7", socketFact 2 "OBJ-2" "7", processFact 3 "OBJ-3" "9"] (by decide)
  identified := by decide
  typed := by decide

theorem attributes_reused_pid :
    Attributes sampleRuntime reusedPid.toVolatileStore (socketFact 2 "OBJ-2" "7") (processFact 3 "OBJ-3" "9") ∧
      ¬ AttributesOwners sampleRuntime reusedPid.toVolatileStore := by
  have hattributes : Attributes sampleRuntime reusedPid.toVolatileStore (socketFact 2 "OBJ-2" "7")
      (processFact 3 "OBJ-3" "9") := by
    rw [Attributes]
    decide
  refine ⟨hattributes, fun h => ?_⟩
  have hticks := (h _ _ hattributes).1.startTicks "7" (by decide)
  exact absurd hticks (by decide)

end HuntWarden.VolatileDiscovery
