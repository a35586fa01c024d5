import HuntWarden.Common.Ids
import HuntWarden.Common.StableJson
import HuntWarden.Investigation.Dependencies
import HuntWarden.Protocol.Types

/-! `propose_actions`: a list of proposals that name one another is put in the queue, each action with the
    stored actions of its dependencies. The whole list is checked before anything is written. A proposal of
    an operation that is on record already is answered with the action on record, which waits for what it
    was stored with. -/

namespace HuntWarden.ProposeActions

open Attempts Dependencies InvestigationStore OrderedMap Outcome StableJson TopologicalOrder

/-! ### Proposals -/

inductive ModelActionOperation where
  | enumerate | project | read_ | match_ | relate | verify | collect | probe | queryFacts
  deriving DecidableEq, Repr

namespace ModelActionOperation

def name : ModelActionOperation → String
  | .enumerate => "enumerate"
  | .project => "project"
  | .read_ => "read"
  | .match_ => "match"
  | .relate => "relate"
  | .verify => "verify"
  | .collect => "collect"
  | .probe => "probe"
  | .queryFacts => "query_facts"

/-- `SINGLE_REF_MODEL_ACTIONS`. -/
def isSingleRef : ModelActionOperation → Bool
  | .project | .read_ | .relate | .verify | .collect | .probe => true
  | _ => false

end ModelActionOperation

structure ModelActionProposal where
  clientRef : String
  operationRef : ModelActionOperation
  subjectRefs : List String
  args : Payload
  dependsOnClientRefs : List String

/-- An argument that is not there gets this value. -/
def withDefault (key : String) (value : Json) (args : Payload) : Payload :=
  if (args.lookup key).isNone then upsert key (fun _ => value) args else args

def without (key : String) (args : Payload) : Payload := args.filter (·.1 ≠ key)

def normalizeRef (proposal : ModelActionProposal) (args : Payload) : Payload :=
  match proposal.operationRef.isSingleRef, proposal.subjectRefs with
  | true, [subjectRef] => withDefault "ref" (.str subjectRef) args
  | _, _ => args

def normalizeRelate (args : Payload) : Payload :=
  withDefault "limit" (.num 100)
    (if (args.lookup "fromRef").isSome ∧ Js.strictEq (args.lookup "ref") (args.lookup "fromRef") = true then
      without "fromRef" args else args)

/-- A pattern given beside its engine becomes a matcher. -/
def normalizeMatcher (args : Payload) : Payload :=
  match args.lookup "matcher", args.lookup "matchType", args.lookup "pattern" with
  | none, some (.str matchType), some (.str pattern) =>
    if matchType = "literal" ∨ matchType = "re2" then
      let args := without "pattern" (without "matchType"
        (upsert "matcher" (fun _ => .obj [("engine", .str matchType), ("pattern", .str pattern)]) args))
      if Js.strictEq (args.lookup "namespace") (some (.str "file")) then without "namespace" args else args
    else args
  | _, _, _ => args

def normalizeMatch (proposal : ModelActionProposal) (args : Payload) : Payload :=
  let args := if proposal.subjectRefs ≠ [] then
    withDefault "refs" (.arr (proposal.subjectRefs.map .str)) args else args
  withDefault "includeContext" (.bool false) (withDefault "maxHits" (.num 50) (normalizeMatcher args))

def normalizeModelActionProposal (proposal : ModelActionProposal) : ModelActionProposal :=
  let args := normalizeRef proposal proposal.args
  { proposal with
    args := match proposal.operationRef with
      | .relate => normalizeRelate args
      | .match_ => normalizeMatch proposal args
      | _ => args }

structure Call where
  hypothesisId : String
  obligationId : String
  actions : List ModelActionProposal

/-- What the call is made in: whether a session accepts actions, the hypotheses on record and those of the
    obligations, and the checks of a proposal against its schema, the facts and the grants. -/
structure Scene where
  taskId : String
  epochId : String
  accepting : Bool
  hypothesisIds : List String
  hypothesisOf : String → Option String
  validateProposedAction : ModelActionProposal → Except Thrown Unit
  now : ℕ

/-! ### The call -/

variable {c : Collation} (numbers : NumberText) (hash : Hash) (ids : FreshIds) (scene : Scene) (call : Call)

def Call.proposals : List ModelActionProposal := call.actions.map normalizeModelActionProposal

def isBound (s : InvestigationStore) : Bool :=
  call.hypothesisId ∈ scene.hypothesisIds ∧
    s.obligations.rows.any fun o =>
      o.obligationId = call.obligationId ∧ scene.hypothesisOf o.obligationId = some call.hypothesisId

/-- The proposals in the order in which they are put, once all of them have passed their checks. -/
def checkedOrder (s : InvestigationStore) : Except Thrown (List ModelActionProposal) := do
  require scene.accepting (invalidArgument "当前调查会话不接受新动作")
  require (isBound scene call s) (invalidArgument "Action 必须绑定当前 Epoch 的 Hypothesis 与 Obligation")
  let clientRefs := call.proposals.map (·.clientRef)
  require clientRefs.Nodup (invalidArgument "clientRef 必须唯一")
  require (call.proposals.all fun p => p.dependsOnClientRefs.all (· ∈ clientRefs))
    (invalidArgument "Action 依赖引用了未知 clientRef")
  let ordered ← orThrow
    (inOrder ModelActionProposal.clientRef ModelActionProposal.dependsOnClientRefs call.proposals.length []
      call.proposals)
    (invalidArgument "Action 依赖存在循环")
  ordered.forM scene.validateProposedAction
  return ordered

def idempotencyKey (c : Collation) (p : ModelActionProposal) : String :=
  digestObject c numbers hash (.obj [("taskId", .str scene.taskId), ("epochId", .str scene.epochId),
    ("hypothesisId", .str call.hypothesisId), ("operationRef", .str p.operationRef.name),
    ("argsDigest", .str (digestObject c numbers hash (.obj p.args)))])

/-- The action a proposal becomes, `created` being the actions returned for the proposals before it. -/
def proposedAction (c : Collation) (authorizationVersion : String) (s : InvestigationStore)
    (created : List (String × String)) (p : ModelActionProposal) : InvestigationAction where
  actionId := ids.draw "IACT-" (s.actions.rows.map (·.actionId))
  idempotencyKey := idempotencyKey numbers hash scene call c p
  obligationIds := [call.obligationId]
  dependsOn := p.dependsOnClientRefs.filterMap fun ref => created.lookup ref
  authorizationVersion := authorizationVersion
  replayPolicy := if p.operationRef = .collect then .resumeOrRecollect else .safeReobserve
  priority := 50
  status := .ready
  resultRefs := none
  error := none
  createdAt := scene.now
  revision := 0

/-- Each put is a transaction of its own. -/
def putProposals (c : Collation) (authorizationVersion : String) :
    InvestigationStore → List (String × String) → List ModelActionProposal →
      InvestigationStore × Except Thrown (List (String × String))
  | s, created, [] => (s, .ok created)
  | s, created, p :: rest =>
    match s.putInvestigationAction (proposedAction numbers hash ids scene call c authorizationVersion s created p) with
    | .error e => (s, .error e)
    | .ok (s', stored) =>
      putProposals c authorizationVersion s' (created ++ [(p.clientRef, stored.actionId)]) rest

/-- What is accepted: with each client reference, the action returned for it. -/
def proposeActions (c : Collation) (q : ActionSystem) : ActionSystem × Except Thrown (List (String × String)) :=
  match checkedOrder scene call q.store with
  | .error e => (q, .error e)
  | .ok ordered =>
    let (store, result) := putProposals numbers hash ids scene call c q.authorizationVersion q.store [] ordered
    ({ q with store }, result)

/-! ### What is to hold -/

/-- Every action returned is taken up only after the actions returned for its dependencies have ended. -/
def InTurn (q : ActionSystem) (accepted : List (String × String)) : Prop :=
  ∀ p ∈ call.proposals, ∀ ref ∈ p.dependsOnClientRefs, ∀ actionId target, (p.clientRef, actionId) ∈ accepted →
    (ref, target) ∈ accepted → ∀ ops, TakenAfter (Runs.run step q ops).store actionId target

/-- A call that can be accepted. -/
structure Acceptable (s : InvestigationStore) : Prop where
  accepting : scene.accepting = true
  bound : isBound scene call s = true
  unique : (call.proposals.map (·.clientRef)).Nodup
  known : ∀ p ∈ call.proposals, ∀ ref ∈ p.dependsOnClientRefs, ∃ p' ∈ call.proposals, p'.clientRef = ref
  acyclic : Digraph.Acyclic
    (Needs ModelActionProposal.clientRef ModelActionProposal.dependsOnClientRefs call.proposals)
  valid : ∀ p ∈ call.proposals, scene.validateProposedAction p = .ok ()

structure Honoured (c : Collation) (q : ActionSystem) : Prop where
  sound : (∃ accepted, (proposeActions numbers hash ids scene call c q).2 = .ok accepted) ↔
    Acceptable scene call q.store
  refused : ∀ e, (proposeActions numbers hash ids scene call c q).2 = .error e →
    (proposeActions numbers hash ids scene call c q).1 = q
  ordered : ∀ accepted, (proposeActions numbers hash ids scene call c q).2 = .ok accepted →
    ∃ ordered : List ModelActionProposal, ordered.Perm call.proposals ∧
      Layered ModelActionProposal.clientRef ModelActionProposal.dependsOnClientRefs [] ordered ∧
      accepted.map Prod.fst = ordered.map (·.clientRef)
  inTurn : ∀ accepted, (proposeActions numbers hash ids scene call c q).2 = .ok accepted →
    InTurn call (proposeActions numbers hash ids scene call c q).1 accepted

/-- An action on record under this key is behind everything the proposal depends on. -/
def ClearAt (s : InvestigationStore) (value : InvestigationAction) : Prop :=
  ∀ stored ∈ s.actions.rows, stored.idempotencyKey = value.idempotencyKey →
    ∀ id ∈ value.dependsOn, Behind s stored.actionId id

/-- So is it at every put of the call. -/
def ClearPuts (c : Collation) (authorizationVersion : String) :
    InvestigationStore → List (String × String) → List ModelActionProposal → Prop
  | _, _, [] => True
  | s, created, p :: rest =>
    ClearAt s (proposedAction numbers hash ids scene call c authorizationVersion s created p) ∧
      ∀ s' stored, s.putInvestigationAction
          (proposedAction numbers hash ids scene call c authorizationVersion s created p) = .ok (s', stored) →
        ClearPuts c authorizationVersion s' (created ++ [(p.clientRef, stored.actionId)]) rest

/-! ### The checks -/

variable {numbers hash ids scene call}

theorem forM_ok {check : ModelActionProposal → Except Thrown Unit} : ∀ {proposals : List ModelActionProposal},
    proposals.forM check = .ok () ↔ ∀ p ∈ proposals, check p = .ok ()
  | [] => ⟨fun _ _ hp => absurd hp List.not_mem_nil, fun _ => rfl⟩
  | p :: rest => by
    rw [show (p :: rest).forM check = (check p >>= fun _ => rest.forM check) from rfl, bind_ok,
      List.forall_mem_cons, ← forM_ok]
    exact ⟨fun ⟨_, hp, hrest⟩ => ⟨hp, hrest⟩, fun ⟨hp, hrest⟩ => ⟨(), hp, hrest⟩⟩

theorem known_iff : (call.proposals.all fun p => p.dependsOnClientRefs.all (· ∈ call.proposals.map (·.clientRef))) =
      true ↔
    ∀ p ∈ call.proposals, ∀ ref ∈ p.dependsOnClientRefs, ∃ p' ∈ call.proposals, p'.clientRef = ref := by
  simp only [List.all_eq_true, decide_eq_true_eq, List.mem_map]

/-- What has passed the checks is acceptable, and comes out in order. -/
theorem checkedOrder_spec {s : InvestigationStore} {ordered : List ModelActionProposal}
    (h : checkedOrder scene call s = .ok ordered) : Acceptable scene call s ∧ ordered.Perm call.proposals ∧
      Layered ModelActionProposal.clientRef ModelActionProposal.dependsOnClientRefs [] ordered := by
  simp only [checkedOrder, bind_ok, require_ok, orThrow_ok, pure_ok] at h
  obtain ⟨_, haccepting, _, hbound, _, hunique, _, hknown, ordered', horder, _, hvalid, rfl⟩ := h
  obtain ⟨hperm, hlayered⟩ := inOrder_some rfl horder
  have hunique := of_decide_eq_true hunique
  have hacyclic := acyclic_of_layered hlayered ((hperm.map _).nodup_iff.2 hunique)
  have hsame : ∀ ref ref', Needs ModelActionProposal.clientRef ModelActionProposal.dependsOnClientRefs call.proposals
      ref ref' → Needs ModelActionProposal.clientRef ModelActionProposal.dependsOnClientRefs ordered' ref ref' :=
    fun _ _ hneeds => hneeds.imp fun _ h => ⟨hperm.mem_iff.2 h.1, h.2⟩
  exact ⟨⟨haccepting, hbound, hunique, known_iff.1 hknown,
    fun ref hcircle => hacyclic ref (Relation.TransGen.mono hsame ref ref hcircle),
    fun p hp => forM_ok.1 hvalid p (hperm.mem_iff.2 hp)⟩, hperm, hlayered⟩

theorem exists_checkedOrder {s : InvestigationStore} (h : Acceptable scene call s) :
    ∃ ordered, checkedOrder scene call s = .ok ordered := by
  cases horder : inOrder ModelActionProposal.clientRef ModelActionProposal.dependsOnClientRefs call.proposals.length
      [] call.proposals with
  | none =>
    exact absurd h.acyclic (inOrder_none rfl (fun _ hp => hp) (fun p hp ref href => Or.inr (h.known p hp ref href))
      horder)
  | some ordered =>
    have hperm := (inOrder_some rfl horder).1
    refine ⟨ordered, ?_⟩
    simp only [checkedOrder, bind_ok, require_ok, orThrow_ok, pure_ok]
    exact ⟨(), h.accepting, (), h.bound, (), decide_eq_true h.unique, (), known_iff.2 h.known, ordered, horder, (),
      forM_ok.2 fun p hp => h.valid p (hperm.mem_iff.1 hp), rfl⟩

theorem Acceptable.obligation {s : InvestigationStore} (h : Acceptable scene call s) :
    ∃ o ∈ s.obligations.rows, o.obligationId = call.obligationId := by
  obtain ⟨-, hobligation⟩ := of_decide_eq_true h.bound
  obtain ⟨o, ho, hfound⟩ := List.any_eq_true.1 hobligation
  exact ⟨o, ho, (of_decide_eq_true hfound).1⟩

/-! ### The puts -/

/-- The state of the queue between two puts of the call. -/
structure Between (call : Call) (s : InvestigationStore) (created : List (String × String)) : Prop where
  consistent : Consistent s
  grounded : Grounded s
  bound : ∃ o ∈ s.obligations.rows, o.obligationId = call.obligationId
  created : ∀ e ∈ created, ∃ a ∈ s.actions.rows, a.actionId = e.2

theorem obligations_put {s s' : InvestigationStore} {value stored : InvestigationAction}
    (h : s.putInvestigationAction value = .ok (s', stored)) {o : InvestigationObligation}
    (ho : o ∈ s.obligations.rows) : ∃ o' ∈ s'.obligations.rows, o'.obligationId = o.obligationId := by
  have hclosed : ∀ {t : InvestigationStore} {selected : InvestigationObligation → Bool} {close : Closing},
      t.obligations = s.obligations →
        ∃ o' ∈ (t.closeObligations selected close).obligations.rows, o'.obligationId = o.obligationId := by
    intro t selected close ht
    refine ⟨_, mem_closeObligations.2 ⟨o, ht ▸ ho, rfl⟩, ?_⟩
    split <;> rfl
  rcases (putInvestigationAction_cases h).2 with ⟨-, hsame⟩ | ⟨-, hsame⟩ | ⟨old, -, -, rfl⟩
  · exact ⟨o, hsame ▸ ho, rfl⟩
  · rw [hsame]
    exact hclosed rfl
  · rw [mergeAction]
    dsimp only
    split
    · exact ⟨o, ho, rfl⟩
    · split
      · exact ⟨o, ho, rfl⟩
      · exact hclosed rfl

theorem mem_dependsOn {version : String} {s : InvestigationStore} {created : List (String × String)}
    {p : ModelActionProposal} (hnodup : (created.map Prod.fst).Nodup) {id : String} :
    id ∈ (proposedAction numbers hash ids scene call c version s created p).dependsOn ↔
      ∃ ref ∈ p.dependsOnClientRefs, (ref, id) ∈ created := by
  rw [proposedAction, List.mem_filterMap]
  exact exists_congr fun ref => and_congr_right fun _ => ⟨mem_of_lookup, lookup_of_mem hnodup⟩

/-- One put of the call: it succeeds, and leaves the returned action behind its dependencies exactly when an
    action on record under its key was behind them. -/
theorem put_proposed {version : String} {s : InvestigationStore} {created : List (String × String)}
    (hs : Between call s created) (hnodup : (created.map Prod.fst).Nodup) (p : ModelActionProposal) :
    ∃ s' stored, s.putInvestigationAction (proposedAction numbers hash ids scene call c version s created p) =
        .ok (s', stored) ∧ Extended s s' ∧ Between call s' (created ++ [(p.clientRef, stored.actionId)]) ∧
      (ClearAt s (proposedAction numbers hash ids scene call c version s created p) ↔
        ∀ ref ∈ p.dependsOnClientRefs, ∀ id, (ref, id) ∈ created → Behind s' stored.actionId id) := by
  have hfresh : ∀ a ∈ s.actions.rows,
      a.actionId ≠ (proposedAction numbers hash ids scene call c version s created p).actionId := fun a ha heq =>
    ids.fresh "IACT-" (s.actions.rows.map (·.actionId)) (List.mem_map.2 ⟨a, ha, heq⟩)
  have hdepends : ∀ id ∈ (proposedAction numbers hash ids scene call c version s created p).dependsOn,
      ∃ d ∈ s.actions.rows, d.actionId = id := by
    intro id hid
    obtain ⟨ref, -, hcreated⟩ := (mem_dependsOn hnodup).1 hid
    exact hs.created _ hcreated
  have hobligations : ∀ id ∈ (proposedAction numbers hash ids scene call c version s created p).obligationIds,
      ∃ o ∈ s.obligations.rows, o.obligationId = id := by
    intro id hid
    rw [List.mem_singleton.1 hid]
    exact hs.bound
  obtain ⟨s', stored, hput, hextended, hcases⟩ := put_ok hfresh hdepends hobligations
  have hnext : (step ⟨s, version⟩ (.put (proposedAction numbers hash ids scene call c version s created p) rfl)).store =
      s' := by
    change ActionExecutor.putProposal s _ = s'
    rw [ActionExecutor.putProposal, hput]
  have hbetween : Between call s' (created ++ [(p.clientRef, stored.actionId)]) := by
    obtain ⟨o, ho, hid⟩ := hs.bound
    obtain ⟨o', ho', hid'⟩ := obligations_put hput ho
    refine ⟨?_, (stepCarried_put rfl hput).grounded hs.grounded, ⟨o', ho', hid'.trans hid⟩, fun e he => ?_⟩
    · rw [← hnext]
      exact (put_sound (s := ⟨s, version⟩) hs.consistent rfl).1
    · rcases List.mem_append.1 he with hold | hnew
      · exact hextended.onRecord (hs.created e hold)
      · rw [List.mem_singleton.1 hnew]
        rcases hcases with ⟨old, hold, -, hid⟩ | ⟨-, hmem, -⟩
        · exact hextended.onRecord ⟨old, hold, hid.symm⟩
        · exact ⟨stored, hmem, rfl⟩
  refine ⟨s', stored, hput, hextended, hbetween, ?_⟩
  rcases hcases with ⟨old, hold, hkey, hid⟩ | ⟨hnone, hmem, hstored⟩
  · rw [hid]
    constructor
    · intro hclear ref href id hcreated
      refine (hextended.behind hs.grounded ⟨old, hold, rfl⟩ (hs.created _ hcreated)).2 ?_
      exact hclear old hold hkey id ((mem_dependsOn hnodup).2 ⟨ref, href, hcreated⟩)
    · intro hbehind a ha hakey id hneed
      obtain ⟨ref, href, hcreated⟩ := (mem_dependsOn hnodup).1 hneed
      rw [s.actions.eq_of_alt ha hold (hakey.trans hkey.symm)]
      exact (hextended.behind hs.grounded ⟨old, hold, rfl⟩ (hs.created _ hcreated)).1 (hbehind ref href id hcreated)
  · refine iff_of_true (fun a ha hakey => absurd hakey (hnone a ha)) fun ref href id hcreated => Or.inr ⟨?_, ?_⟩
    · intro t ht hid
      rw [hextended.attempts] at ht
      obtain ⟨a, ha, haid⟩ := hs.consistent.owned t ht
      refine hfresh a ha ((haid.trans hid).trans ?_)
      rcases hstored with rfl | rfl <;> rfl
    · refine ⟨stored, hmem, rfl, ?_⟩
      rcases hstored with rfl | rfl
      · exact Or.inr ⟨rfl, id, (mem_dependsOn hnodup).2 ⟨ref, href, hcreated⟩, .self⟩
      · exact Or.inl rfl

/-- All the puts of the call succeed, and what they return is behind its dependencies exactly when every
    action on record that was returned was. -/
theorem putProposals_spec {version : String} : ∀ {rest : List ModelActionProposal} {s : InvestigationStore}
    {created : List (String × String)}, Between call s created →
    (created.map Prod.fst ++ rest.map (·.clientRef)).Nodup →
    Layered ModelActionProposal.clientRef ModelActionProposal.dependsOnClientRefs (created.map Prod.fst) rest →
    ∃ s' added, putProposals numbers hash ids scene call c version s created rest = (s', .ok (created ++ added)) ∧
      added.map Prod.fst = rest.map (·.clientRef) ∧ Extended s s' ∧ Between call s' (created ++ added) ∧
      (ClearPuts numbers hash ids scene call c version s created rest ↔
        ∀ p ∈ rest, ∀ ref ∈ p.dependsOnClientRefs, ∀ actionId target, (p.clientRef, actionId) ∈ created ++ added →
          (ref, target) ∈ created ++ added → Behind s' actionId target)
  | [], s, created, hs, _, _ => by
    refine ⟨s, [], ?_, rfl, Extended.refl s, by rwa [List.append_nil], ?_⟩
    · rw [putProposals, List.append_nil]
    · exact iff_of_true trivial fun p hp => absurd hp List.not_mem_nil
  | p :: rest, s, created, hs, hnodup, hlayered => by
    have hcreated : (created.map Prod.fst).Nodup := (List.nodup_append.1 hnodup).1
    obtain ⟨s₁, stored, hput, hextended₁, hs₁, hclear⟩ :=
      @put_proposed c numbers hash ids scene call version s created hs hcreated p
    have hnodup₁ : ((created ++ [(p.clientRef, stored.actionId)]).map Prod.fst ++ rest.map (·.clientRef)).Nodup := by
      rw [List.map_append, List.append_assoc]
      exact hnodup
    have hlayered₁ : Layered ModelActionProposal.clientRef ModelActionProposal.dependsOnClientRefs
        ((created ++ [(p.clientRef, stored.actionId)]).map Prod.fst) rest := by
      rw [List.map_append]
      exact hlayered.2
    obtain ⟨s', added, hputs, hadded, hextended, hs', hclears⟩ := putProposals_spec hs₁ hnodup₁ hlayered₁
    rw [List.append_assoc, List.singleton_append] at hputs hs' hclears
    refine ⟨s', (p.clientRef, stored.actionId) :: added, ?_, ?_, hextended₁.trans hextended, hs', ?_⟩
    · rw [putProposals, hput]
      exact hputs
    · rw [List.map_cons, List.map_cons, hadded]
    have hkeys : ((created ++ (p.clientRef, stored.actionId) :: added).map Prod.fst).Nodup := by
      rw [List.map_append, List.map_cons, hadded]
      exact hnodup
    have hself : (p.clientRef, stored.actionId) ∈ created ++ (p.clientRef, stored.actionId) :: added :=
      List.mem_append_right _ List.mem_cons_self
    have hone : ∀ {ref id id' : String}, (ref, id) ∈ created ++ (p.clientRef, stored.actionId) :: added →
        (ref, id') ∈ created ++ (p.clientRef, stored.actionId) :: added → id = id' := fun h h' =>
      congrArg Prod.snd (List.inj_on_of_nodup_map hkeys h h' rfl)
    have hbehind : ∀ ref id, (ref, id) ∈ created →
        (Behind s' stored.actionId id ↔ Behind s₁ stored.actionId id) := fun ref id hmem =>
      hextended.behind hs₁.grounded (hs₁.created _ (List.mem_append_right _ (List.mem_singleton_self _)))
        (hs₁.created _ (List.mem_append_left _ hmem))
    rw [ClearPuts, List.forall_mem_cons, hclear]
    refine and_congr ?_ ?_
    · constructor
      · intro h ref href actionId target hactionId htarget
        obtain ⟨⟨_, id⟩, hmem, rfl⟩ := List.mem_map.1 (hlayered.1 ref href)
        rw [hone hactionId hself, hone htarget (List.mem_append_left _ hmem)]
        exact (hbehind _ id hmem).2 (h _ href id hmem)
      · intro h ref href id hmem
        exact (hbehind ref id hmem).1 (h ref href _ id hself (List.mem_append_left _ hmem))
    · rw [← hclears]
      refine ⟨fun h => h s₁ stored hput, fun h s₂ stored₂ hput₂ => ?_⟩
      rw [hput] at hput₂
      obtain ⟨rfl, rfl⟩ := Prod.mk.inj (Except.ok.inj hput₂)
      exact h

/-! ### The law -/

variable (numbers hash ids scene call)

/-- Every call does what it should, exactly when each action on record that it returns in place of a new one
    is behind the actions returned for the dependencies of the proposal. -/
theorem honoured_iff (c : Collation) (authorizationVersion : String) (ops : List ActionOp) :
    Honoured numbers hash ids scene call c (Runs.run step ⟨.empty, authorizationVersion⟩ ops) ↔
      ∀ ordered, checkedOrder scene call (Runs.run step ⟨.empty, authorizationVersion⟩ ops).store = .ok ordered →
        ClearPuts numbers hash ids scene call c
          (Runs.run step ⟨.empty, authorizationVersion⟩ ops).authorizationVersion
          (Runs.run step ⟨.empty, authorizationVersion⟩ ops).store [] ordered := by
  have hreached := Runs.run_invariant (I := fun q : ActionSystem => Consistent q.store ∧ Grounded q.store)
    (C := fun _ _ => True)
    (fun q op hI _ => ⟨step_consistent q op hI.1, (step_carried op hI.1).grounded hI.2⟩) ops
    ⟨.empty, authorizationVersion⟩ ⟨consistent_empty, trivial⟩ (Runs.along_true _ _)
  generalize Runs.run step ⟨.empty, authorizationVersion⟩ ops = q at hreached ⊢
  cases hchecks : checkedOrder scene call q.store with
  | error e =>
    have hresult : proposeActions numbers hash ids scene call c q = (q, .error e) := by
      rw [proposeActions, hchecks]
    have hrefused : ∀ accepted, (proposeActions numbers hash ids scene call c q).2 ≠ .ok accepted := by
      rw [hresult]
      exact fun accepted h => by cases h
    refine iff_of_true ⟨⟨fun ⟨accepted, h⟩ => absurd h (hrefused accepted), fun h => ?_⟩, fun e' _ => by rw [hresult],
      fun accepted h => absurd h (hrefused accepted), fun accepted h => absurd h (hrefused accepted)⟩
      fun ordered h => by cases h
    obtain ⟨ordered, hordered⟩ := exists_checkedOrder h
    rw [hchecks] at hordered
    cases hordered
  | ok ordered =>
    obtain ⟨hacceptable, hperm, hlayered⟩ := checkedOrder_spec hchecks
    have hnodup : (ordered.map (·.clientRef)).Nodup := (hperm.map _).nodup_iff.2 hacceptable.unique
    obtain ⟨s', accepted, hputs, hrefs, -, hs', hclear⟩ :=
      @putProposals_spec c numbers hash ids scene call q.authorizationVersion ordered q.store []
        ⟨hreached.1, hreached.2, hacceptable.obligation, fun e he => absurd he List.not_mem_nil⟩ hnodup hlayered
    rw [List.nil_append] at hputs hs' hclear
    have hresult : proposeActions numbers hash ids scene call c q = ({ q with store := s' }, .ok accepted) := by
      rw [proposeActions, hchecks]
      dsimp only
      rw [hputs]
    have hinTurn : InTurn call { q with store := s' } accepted ↔
        ClearPuts numbers hash ids scene call c q.authorizationVersion q.store [] ordered := by
      rw [hclear]
      have hiff : ∀ {ref ref' actionId target : String}, (ref, actionId) ∈ accepted → (ref', target) ∈ accepted →
          (Behind s' actionId target ↔ ∀ ops, TakenAfter (Runs.run step { q with store := s' } ops).store actionId
            target) := fun h h' =>
        @behind_iff _ _ { q with store := s' } hs'.consistent hs'.grounded (hs'.created _ h) (hs'.created _ h')
      constructor
      · intro h p hp ref href actionId target hactionId htarget
        exact (hiff hactionId htarget).2 (h p (hperm.mem_iff.1 hp) ref href actionId target hactionId htarget)
      · intro h p hp ref href actionId target hactionId htarget
        exact (hiff hactionId htarget).1 (h p (hperm.mem_iff.2 hp) ref href actionId target hactionId htarget)
    constructor
    · rintro h ordered' hordered'
      cases hordered'
      refine hinTurn.1 ?_
      have hturn := h.inTurn accepted (by rw [hresult])
      rw [hresult] at hturn
      exact hturn
    · intro h
      refine ⟨iff_of_true ⟨accepted, by rw [hresult]⟩ hacceptable, fun e he => ?_, fun accepted' haccepted => ?_,
        fun accepted' haccepted => ?_⟩
      · rw [hresult] at he
        cases he
      · rw [hresult] at haccepted
        cases haccepted
        exact ⟨ordered, hperm, hlayered, hrefs⟩
      · rw [hresult] at haccepted ⊢
        cases haccepted
        exact hinTurn.2 (h ordered rfl)

/-! ### An action on record that waits for nothing -/

instance decidableTakenAfter (s : InvestigationStore) (actionId target : String) :
    Decidable (TakenAfter s actionId target) :=
  inferInstanceAs (Decidable ((∃ t ∈ s.attempts.rows, t.actionId = actionId) →
    ∃ a ∈ s.actions.rows, a.actionId = target ∧ a.status.isLive = false))

def openScene : Scene := ⟨"TASK-1", "EPOCH-1", true, ["HYP-1"], fun _ => some "HYP-1", fun _ => .ok (), 0⟩

def verifyFirst : ModelActionProposal := ⟨"first", .verify, ["OBJ-1"], [("baseline", .str "package_db")], []⟩

def projectThen : ModelActionProposal := ⟨"then", .project, ["OBJ-1"], [("fields", .arr [.str "path"])], ["first"]⟩

def secondCall : Call := ⟨"HYP-1", "OBL-1", [verifyFirst, projectThen]⟩

def obligationOnRecord : InvestigationObligation := ⟨"OBL-1", "dedupe-1", "TEST", [], true, .open_, [], []⟩

def plainHash : Hash := ⟨String.ofList, fun _ _ => String.ofList_injective⟩

/-- The projection was proposed before, on its own. -/
def projectOnRecord : InvestigationAction where
  actionId := "IACT-0"
  obligationIds := ["OBL-1"]
  authorizationVersion := "v1"
  priority := 50
  dependsOn := []
  idempotencyKey := idempotencyKey tallyNumbers plainHash openScene secondCall Js.codeUnitCollation
    (normalizeModelActionProposal projectThen)
  replayPolicy := .safeReobserve
  status := .ready
  resultRefs := none
  error := none
  createdAt := 0
  revision := 0

theorem taken_out_of_turn : ¬ Honoured tallyNumbers plainHash strokeIds openScene secondCall Js.codeUnitCollation
    (Runs.run step ⟨.empty, "v1"⟩ [.note obligationOnRecord, .put projectOnRecord rfl]) := by
  intro h
  have htaken := h.inTurn [("first", "IACT-1111111"), ("then", "IACT-0")] (by decide +kernel)
    (normalizeModelActionProposal projectThen) (.tail _ (.head _)) "first" (by decide) "IACT-0" "IACT-1111111"
    (by decide) (by decide) [.claim "attempt-1" "v1" (some ["IACT-0"])]
  exact absurd htaken (by decide +kernel)

end HuntWarden.ProposeActions
