import HuntWarden.Facts.Normalizer
import HuntWarden.Runtime.GrantDecisions

/-! The roots of the scope grants. A preset compares what the target has resolved with the root its policy
    names, or takes the root from what it has recorded of a web root; an approval stores the answer of the
    target as it comes. As long as every answer to an approval names the root that was asked for, every
    active scope grant is for an approved root, and no longer. -/

namespace HuntWarden.Grants

open Outcome GrantStore Normalizer

/-! ### The paths that create a scope grant -/

/-- `INITIAL_GRANT_POLICY.fixedScopesByCategory` -/
def fixedScopesByCategory : CheckCategory → List String
  | .linuxIntrusionTriage => ["/usr/bin", "/tmp"]
  | _ => []

def Op.isPresetScope : Op → Bool
  | .ensurePresetScope _ _ => true
  | _ => false

/-- The grants, and the facts about web roots with their subjects, oldest first. -/
structure ScopeSystem where
  grants : System
  webRootFacts : List (String × Payload)

def ScopeSystem.empty : ScopeSystem := ⟨.empty, []⟩

/-- `scope_resolve` for a root of the policy: what it must have answered, and what is kept of it. -/
def resolvedScope (requestedRoot : String) (resolved : Payload) : Option Payload :=
  if resolved.lookup "namespace" = some (.str "file") ∧
      resolved.lookup "canonicalRoot" = some (.str requestedRoot) then
    ((resolved.lookup "mountId").bind Json.asString?).map fun mountId =>
      [("namespace", .str "file"), ("canonicalRoot", .str requestedRoot), ("mountId", .str mountId)]
  else none

/-- `Object.assign({}, ...facts)` over the facts of a subject. -/
def webRootPayload (facts : List (String × Payload)) (ref : String) : Payload :=
  ((facts.filter fun fact => fact.1 = ref).map (·.2)).foldl spread []

/-- The scope of a recorded web root. -/
def webRootScope (payload : Payload) : Option Payload := do
  let path ← (payload.lookup "path").bind Json.asString?
  let mountId ← (payload.lookup "mountId").bind Json.asString?
  return [("namespace", .str "file"), ("canonicalRoot", .str path), ("mountId", .str mountId)]

inductive ScopeOp where
  | system (op : { op : Op // op.isPresetScope = false })
  | recordWebRoot (ref : String) (payload : Payload)
  /-- One root of a fixed scope, and the answer of the target; `none` when it failed. -/
  | fixedScope (task : TaskContext) (category : CheckCategory) (position : ℕ)
      (resolved : Option Payload)
  | webRoot (task : TaskContext) (ref : String)

section

variable (ids : IdSupply) (digestObject : Json → String)

def ScopeSystem.ensure (s : ScopeSystem) (now : ℕ) (task : TaskContext) : Option Payload → ScopeSystem
  | some binding => { s with grants := ensurePresetScope ids digestObject s.grants now task binding }
  | none => s

def scopeStep (s : ScopeSystem) : ℕ × ScopeOp → ScopeSystem
  | (now, .system op) => { s with grants := step ids digestObject s.grants (now, op) }
  | (_, .recordWebRoot ref payload) => { s with webRootFacts := s.webRootFacts ++ [(ref, payload)] }
  | (now, .fixedScope task category position resolved) =>
    s.ensure ids digestObject now task (do
      let requestedRoot ← (fixedScopesByCategory category)[position]?
      resolvedScope requestedRoot (← resolved))
  | (now, .webRoot task ref) =>
    s.ensure ids digestObject now task (webRootScope (webRootPayload s.webRootFacts ref))

def runScopes (ops : List (ℕ × ScopeOp)) : ScopeSystem :=
  Runs.run (scopeStep ids digestObject) .empty ops

end

/-! ### Approved roots -/

/-- The grant comes from a request for this root. -/
def Requested (s : System) (grantId : String) (root : Json) : Prop :=
  ∃ request ∈ s.store.requests.rows, (grantId, request.requestId) ∈ s.origins ∧
    request.binding.lookup "requestedRoot" = some root

/-- The policy names the root, or it is the path of a web root on record. -/
def PolicyRoot (facts : List (String × Payload)) (root : Json) : Prop :=
  (∃ category, ∃ path ∈ fixedScopesByCategory category, root = .str path) ∨
    ∃ fact ∈ facts, ("path", root) ∈ fact.2

/-- The root of a grant was approved where the grant comes from: by the analyst if it comes from a request,
    else by the policy. -/
def RootApproved (s : ScopeSystem) (grantId : String) (root : Json) : Prop :=
  Requested s.grants grantId root ∨
    (∀ origin ∈ s.grants.origins, origin.1 ≠ grantId) ∧ PolicyRoot s.webRootFacts root

/-- The root stored in every active scope grant is an approved one. -/
def Bound (s : ScopeSystem) : Prop :=
  ∀ grant ∈ s.grants.store.grants.rows, grant.kind = .scope → grant.status = .active →
    ∀ root ∈ grant.binding.lookup "canonicalRoot", RootApproved s grant.grantId root

/-- The answer to an approval names the root that was asked for, if it names one. -/
def AnswerChecked (s : ScopeSystem) : ℕ × ScopeOp → Prop
  | (_, .system ⟨.answer position (some binding) _, _⟩) =>
    ∀ d ∈ s.grants.inFlight[position]?, ∀ root ∈ binding.lookup "canonicalRoot",
      d.request.binding.lookup "requestedRoot" = some root
  | _ => True

/-- What ids and approvals under way refer to. -/
structure Wired (s : System) (ids : IdSupply) : Prop where
  grants : ∀ grant ∈ s.store.grants.rows, ∃ n < s.drawn, grant.grantId = ids.createId .grant n
  requests : ∀ request ∈ s.store.requests.rows, ∃ n < s.drawn,
    request.requestId = ids.createId .grantRequest n
  inFlight : ∀ d ∈ s.inFlight, d.request.kind = .scope ∧ ∃ request ∈ s.store.requests.rows,
    request.requestId = d.request.requestId ∧ request.binding = d.request.binding
  origins : ∀ origin ∈ s.origins, ∃ n < s.drawn, origin.1 = ids.createId .grant n

variable {ids : IdSupply} {digestObject : Json → String} {s s' : System}

theorem wired_empty : Wired .empty ids where
  grants := by simp [System.empty, GrantStore.empty]
  requests := by simp [System.empty, GrantStore.empty]
  inFlight := by simp [System.empty]
  origins := by simp [System.empty]

/-! ### What creates no grant -/

/-- No grant is new or active again, every request keeps its binding, and no approval is new. -/
structure Kept (s s' : System) : Prop where
  grants : ∀ grant' ∈ s'.store.grants.rows, ∃ grant ∈ s.store.grants.rows,
    grant.grantId = grant'.grantId ∧ grant.kind = grant'.kind ∧ grant.binding = grant'.binding ∧
      (grant'.status = .active → grant.status = .active)
  found : ∀ request' ∈ s'.store.requests.rows, ∃ request ∈ s.store.requests.rows,
    request.requestId = request'.requestId ∧ request.binding = request'.binding
  kept : ∀ request ∈ s.store.requests.rows, ∃ request' ∈ s'.store.requests.rows,
    request'.requestId = request.requestId ∧ request'.binding = request.binding
  inFlight : ∀ d ∈ s'.inFlight, d ∈ s.inFlight
  origins : s'.origins = s.origins
  drawn : s.drawn ≤ s'.drawn

/-- The store is as it was. -/
theorem Kept.of_store (hstore : s'.store = s.store) (hinFlight : ∀ d ∈ s'.inFlight, d ∈ s.inFlight)
    (horigins : s'.origins = s.origins) (hdrawn : s.drawn ≤ s'.drawn) : Kept s s' where
  grants grant' h := ⟨grant', hstore ▸ h, rfl, rfl, rfl, id⟩
  found request' h := ⟨request', hstore ▸ h, rfl, rfl⟩
  kept request h := ⟨request, hstore ▸ h, rfl, rfl⟩
  inFlight := hinFlight
  origins := horigins
  drawn := hdrawn

theorem Kept.refl (s : System) : Kept s s := .of_store rfl (fun _ h => h) rfl (Nat.le_refl _)

/-- A request is decided. -/
theorem kept_update {now : ℕ} {requestId : String} {status : RequestStatus} :
    Kept s { s with store := transact s.store (s.store.updateGrantRequest now requestId status) } := by
  cases hupdate : s.store.updateGrantRequest now requestId status with
  | error e => exact .refl s
  | ok store =>
    obtain ⟨request, hmem, -, -, hrequests, hgrants⟩ := updateGrantRequest_ok hupdate
    refine ⟨?_, ?_, ?_, fun _ h => h, rfl, Nat.le_refl _⟩
    · intro grant' hgrant'
      exact ⟨grant', hgrants ▸ hgrant', rfl, rfl, rfl, id⟩
    · intro request' hrequest'
      rcases Table.mem_put.1 (hrequests ▸ hrequest') with rfl | ⟨hold, -⟩
      · exact ⟨request, hmem, rfl, rfl⟩
      · exact ⟨request', hold, rfl, rfl⟩
    · intro request' hrequest'
      have hstore : store.requests.rows = _ := congrArg Table.rows hrequests
      by_cases hsame : request'.requestId = request.requestId
      · obtain rfl := s.store.requests.eq_of_key hrequest' hmem hsame
        exact ⟨{ request' with status, decidedAt := some now },
          hstore ▸ Table.mem_put.2 (Or.inl rfl), rfl, rfl⟩
      · exact ⟨request', hstore ▸ Table.mem_put.2 (Or.inr ⟨hrequest', hsame⟩), rfl, rfl⟩

theorem kept_expire {taskId : String} :
    Kept s { s with store := s.store.expirePendingGrantRequests taskId } where
  grants grant' h := ⟨grant', h, rfl, rfl, rfl, id⟩
  found request' h := by
    obtain ⟨request, hmem, rfl⟩ := List.mem_map.1 h
    refine ⟨request, hmem, (expireRequest_requestId taskId request).symm, ?_⟩
    rw [expireRequest]
    split <;> rfl
  kept request h := by
    refine ⟨_, List.mem_map.2 ⟨request, h, rfl⟩, expireRequest_requestId taskId request, ?_⟩
    rw [expireRequest]
    split <;> rfl
  inFlight _ h := h
  origins := rfl
  drawn := Nat.le_refl _

theorem kept_revoke {now : ℕ} {task : Option TaskContext} {grantId reason : String} :
    Kept s (revoke s now task grantId reason) := by
  rw [revoke.eq_def]
  cases task with
  | none => exact .refl s
  | some task =>
    dsimp only
    split
    · cases hrevoke : s.store.revokeTaskGrant now task.taskId grantId reason with
      | error e => exact .refl s
      | ok store =>
        obtain ⟨grant, hmem, -, hactive, hgrants, hrequests⟩ := revokeTaskGrant_ok hrevoke
        refine ⟨?_, ?_, ?_, fun _ h => h, rfl, Nat.le_refl _⟩
        · intro grant' hgrant'
          rcases Table.mem_set.1 (hgrants ▸ hgrant') with ⟨rfl, -⟩ | ⟨hold, -⟩
          · exact ⟨grant, hmem, rfl, rfl, rfl, fun _ => hactive⟩
          · exact ⟨grant', hold, rfl, rfl, rfl, id⟩
        · exact fun request' h => ⟨request', hrequests ▸ h, rfl, rfl⟩
        · exact fun request h => ⟨request, hrequests ▸ h, rfl, rfl⟩
    · exact .refl s

theorem Wired.kept (h : Wired s ids) (hkept : Kept s s') : Wired s' ids where
  grants grant' hgrant' := by
    obtain ⟨grant, hmem, hid, -⟩ := hkept.grants grant' hgrant'
    obtain ⟨n, hn, hdrawn⟩ := h.grants grant hmem
    exact ⟨n, hn.trans_le hkept.drawn, hid ▸ hdrawn⟩
  requests request' hrequest' := by
    obtain ⟨request, hmem, hid, -⟩ := hkept.found request' hrequest'
    obtain ⟨n, hn, hdrawn⟩ := h.requests request hmem
    exact ⟨n, hn.trans_le hkept.drawn, hid ▸ hdrawn⟩
  inFlight d hd := by
    obtain ⟨hkind, request, hmem, hid, hbinding⟩ := h.inFlight d (hkept.inFlight d hd)
    obtain ⟨request', hmem', hid', hbinding'⟩ := hkept.kept request hmem
    exact ⟨hkind, request', hmem', hid'.trans hid, hbinding'.trans hbinding⟩
  origins origin horigin := by
    obtain ⟨n, hn, hid⟩ := h.origins origin (hkept.origins ▸ horigin)
    exact ⟨n, hn.trans_le hkept.drawn, hid⟩

theorem Requested.kept {grantId : String} {root : Json} (h : Requested s grantId root)
    (hkept : Kept s s') : Requested s' grantId root := by
  obtain ⟨request, hmem, horigin, hroot⟩ := h
  obtain ⟨request', hmem', hid, hbinding⟩ := hkept.kept request hmem
  refine ⟨request', hmem', ?_, hbinding ▸ hroot⟩
  rw [hkept.origins, hid]
  exact horigin

theorem Bound.kept {facts : List (String × Payload)} (h : Bound ⟨s, facts⟩) (hkept : Kept s s') :
    Bound ⟨s', facts⟩ := by
  intro grant' hgrant' hscope hactive root hroot
  obtain ⟨grant, hmem, hid, hkind, hbinding, hstatus⟩ := hkept.grants grant' hgrant'
  have happroved := h grant hmem (hkind.trans hscope) (hstatus hactive) root (hbinding ▸ hroot)
  rw [hid] at happroved
  rcases happroved with hrequested | ⟨hnone, hpolicy⟩
  · exact Or.inl (hrequested.kept hkept)
  · exact Or.inr ⟨fun origin horigin => hnone origin (hkept.origins ▸ horigin), hpolicy⟩

/-! ### What creates one -/

theorem fresh_granted (h : Wired s ids) {now : ℕ} {task : TaskContext} {kind : GrantKind}
    {binding : Payload} : ∀ grant ∈ s.store.grants.rows,
      grant.grantId ≠ (granted ids s now task kind binding).grantId := by
  intro grant hgrant heq
  obtain ⟨n, hn, hid⟩ := h.grants grant hgrant
  have hsame := ids.injective _ (hid.symm.trans heq)
  omega

theorem Wired.put (h : Wired s ids) {store : GrantStore} {now : ℕ} {task : TaskContext}
    {kind : GrantKind} {binding : Payload} (new : List (String × String))
    (hput : s.store.putTaskGrant (granted ids s now task kind binding) = .ok store)
    (hnew : ∀ origin ∈ new, origin.1 = (granted ids s now task kind binding).grantId) :
    Wired { s with store, origins := s.origins ++ new, drawn := s.drawn + 1 } ids := by
  obtain ⟨hrows, hrequests⟩ := putTaskGrant_ok hput
  refine ⟨?_, ?_, ?_, ?_⟩
  · intro grant hgrant
    rcases List.mem_append.1 (hrows ▸ hgrant) with hold | hlast
    · obtain ⟨n, hn, hid⟩ := h.grants grant hold
      exact ⟨n, hn.trans (Nat.lt_succ_self _), hid⟩
    · obtain rfl := List.mem_singleton.1 hlast
      exact ⟨s.drawn, Nat.lt_succ_self _, rfl⟩
  · intro request hrequest
    obtain ⟨n, hn, hid⟩ := h.requests request (hrequests ▸ hrequest)
    exact ⟨n, hn.trans (Nat.lt_succ_self _), hid⟩
  · intro d hd
    obtain ⟨hkind, request, hmem, hsame⟩ := h.inFlight d hd
    exact ⟨hkind, request, hrequests ▸ hmem, hsame⟩
  · intro origin horigin
    rcases List.mem_append.1 horigin with hold | hlast
    · obtain ⟨n, hn, hid⟩ := h.origins origin hold
      exact ⟨n, hn.trans (Nat.lt_succ_self _), hid⟩
    · exact ⟨s.drawn, Nat.lt_succ_self _, hnew origin hlast⟩

/-- The roots of the earlier grants stay approved when another one is put. -/
theorem RootApproved.put {facts : List (String × Payload)} {grantId : String} {root : Json}
    (h : RootApproved ⟨s, facts⟩ grantId root) {store : GrantStore} {new : List (String × String)}
    {drawn : ℕ} (hrequests : store.requests = s.store.requests)
    (hnew : ∀ origin ∈ new, origin.1 ≠ grantId) :
    RootApproved ⟨{ s with store, origins := s.origins ++ new, drawn }, facts⟩ grantId root := by
  rcases h with ⟨request, hmem, horigin, hroot⟩ | ⟨hnone, hpolicy⟩
  · exact Or.inl ⟨request, hrequests ▸ hmem, List.mem_append_left _ horigin, hroot⟩
  · refine Or.inr ⟨fun origin horigin => ?_, hpolicy⟩
    rcases List.mem_append.1 horigin with hold | hlast
    · exact hnone origin hold
    · exact hnew origin hlast

/-- A grant is put: the earlier ones are as they were, and the new one is to be looked at. -/
theorem bound_put (h : Wired s ids) {facts : List (String × Payload)} (hbound : Bound ⟨s, facts⟩)
    {store : GrantStore} {now : ℕ} {task : TaskContext} {kind : GrantKind} {binding : Payload}
    (new : List (String × String))
    (hput : s.store.putTaskGrant (granted ids s now task kind binding) = .ok store)
    (hnew : ∀ origin ∈ new, origin.1 = (granted ids s now task kind binding).grantId) :
    Bound ⟨{ s with store, origins := s.origins ++ new, drawn := s.drawn + 1 }, facts⟩ ↔
      (kind = .scope → ∀ root ∈ binding.lookup "canonicalRoot",
        RootApproved ⟨{ s with store, origins := s.origins ++ new, drawn := s.drawn + 1 }, facts⟩
          (granted ids s now task kind binding).grantId root) := by
  obtain ⟨hrows, hrequests⟩ := putTaskGrant_ok hput
  constructor
  · intro hall hscope root hroot
    have hmem : granted ids s now task kind binding ∈ store.grants.rows := by
      rw [hrows]
      exact List.mem_append_right _ (List.mem_singleton_self _)
    exact hall _ hmem hscope rfl root hroot
  · intro hlast grant hgrant hscope hactive root hroot
    rcases List.mem_append.1 (hrows ▸ hgrant) with hold | hgrant
    · refine (hbound grant hold hscope hactive root hroot).put hrequests fun origin horigin heq => ?_
      exact fresh_granted h grant hold (heq.symm.trans (hnew origin horigin))
    · obtain rfl := List.mem_singleton.1 hgrant
      exact hlast hscope root hroot

theorem Wired.putGrant (h : Wired s ids) {now : ℕ} {task : TaskContext} {kind : GrantKind}
    {binding : Payload} : Wired (putGrant ids s now task kind binding) ids := by
  rcases putGrant_cases ids s now task kind binding with heq | ⟨store, hput, heq⟩ <;> rw [heq]
  · exact h
  · have hwired := h.put [] hput (by simp)
    rw [List.append_nil] at hwired
    exact hwired

/-- A grant that the controller puts by itself is for a root of its policy. -/
theorem Bound.putGrant (h : Wired s ids) {facts : List (String × Payload)} (hbound : Bound ⟨s, facts⟩)
    {now : ℕ} {task : TaskContext} {kind : GrantKind} {binding : Payload}
    (hroot : kind = .scope → ∀ root ∈ binding.lookup "canonicalRoot", PolicyRoot facts root) :
    Bound ⟨Grants.putGrant ids s now task kind binding, facts⟩ := by
  rcases putGrant_cases ids s now task kind binding with heq | ⟨store, hput, heq⟩ <;> rw [heq]
  · exact hbound
  have hiff := bound_put h hbound [] hput (by simp)
  rw [List.append_nil] at hiff
  refine hiff.2 fun hscope root hmem => Or.inr ⟨fun origin horigin heq => ?_, hroot hscope root hmem⟩
  obtain ⟨n, hn, hid⟩ := h.origins origin horigin
  have hsame := ids.injective _ (hid.symm.trans heq)
  omega

/-! ### The approval of a request -/

theorem putTaskGrant_total (h : Wired s ids) (now : ℕ) (task : TaskContext) (kind : RequestKind)
    (binding : Payload) : ∃ store,
      s.store.putTaskGrant (granted ids s now task kind.kind binding) = .ok store := by
  rw [putTaskGrant]
  have hcheck : (!(decide ((granted ids s now task kind.kind binding).kind = .budgetExtension) &&
      (granted ids s now task kind.kind binding).binding.isEmpty)) = true := by
    cases kind <;> rfl
  obtain ⟨grants, hgrants⟩ : ∃ grants,
      s.store.grants.insert? (granted ids s now task kind.kind binding) = some grants :=
    ⟨_, dif_pos (fresh_granted h)⟩
  rw [hcheck]
  exact ⟨{ s.store with grants },
    bind_ok.2 ⟨(), rfl, bind_ok.2 ⟨grants, orThrow_ok.2 hgrants, rfl⟩⟩⟩

/-- The store right after the grant of a request has been put. -/
def afterGrant (ids : IdSupply) (s : System) (now : ℕ) (d : Decision) (binding : Payload)
    (store : GrantStore) : System :=
  { s with
    store
    origins := s.origins ++
      [((granted ids s now d.task d.request.kind.kind binding).grantId, d.request.requestId)]
    drawn := s.drawn + 1 }

/-- The rest of an approval leaves the grants as they are. -/
theorem activate_afterGrant {now : ℕ} {d : Decision} {binding : Payload} (crash : Bool)
    {store : GrantStore}
    (hput : s.store.putTaskGrant (granted ids s now d.task d.request.kind.kind binding) = .ok store) :
    Kept (afterGrant ids s now d binding store) (activate ids s now d binding crash) ∧
      (activate ids s now d binding crash).store.grants = store.grants := by
  rw [activate]
  dsimp only
  rw [hput]
  dsimp only
  cases crash with
  | true =>
    rw [if_pos rfl]
    exact ⟨.of_store rfl (by simp) rfl (Nat.le_refl _), rfl⟩
  | false =>
    rw [if_neg Bool.false_ne_true]
    refine ⟨kept_update (s := afterGrant ids s now d binding store), ?_⟩
    cases hupdate : store.updateGrantRequest now d.request.requestId .approved with
    | error e => rfl
    | ok store' => exact (updateGrantRequest_ok hupdate).choose_spec.2.2.2.2

/-- Nothing but the requests has changed since, and those only in their status. -/
theorem Bound.before {facts : List (String × Payload)} (h : Bound ⟨s', facts⟩) (hkept : Kept s s')
    (hgrants : s'.store.grants = s.store.grants) : Bound ⟨s, facts⟩ := by
  intro grant hgrant hscope hactive root hroot
  rcases h grant (hgrants ▸ hgrant) hscope hactive root hroot with ⟨request', hmem', horigin, hroot'⟩ |
    ⟨hnone, hpolicy⟩
  · obtain ⟨request, hmem, hid, hbinding⟩ := hkept.found request' hmem'
    refine Or.inl ⟨request, hmem, ?_, hbinding ▸ hroot'⟩
    rw [hid, ← hkept.origins]
    exact horigin
  · exact Or.inr ⟨fun origin horigin => hnone origin (hkept.origins ▸ horigin), hpolicy⟩

theorem Wired.activate (h : Wired s ids) {now : ℕ} {d : Decision} {binding : Payload} {crash : Bool} :
    Wired (Grants.activate ids s now d binding crash) ids := by
  obtain ⟨store, hput⟩ := putTaskGrant_total h now d.task d.request.kind binding
  exact (h.put _ hput (by simp)).kept (activate_afterGrant crash hput).1

/-- An approval keeps the roots approved exactly when its answer names the root that was asked for. -/
theorem bound_activate (h : Wired s ids) {facts : List (String × Payload)} (hbound : Bound ⟨s, facts⟩)
    {now : ℕ} {d : Decision} {binding : Payload} {crash : Bool}
    (hd : ∃ request ∈ s.store.requests.rows, request.requestId = d.request.requestId ∧
      request.binding = d.request.binding) :
    Bound ⟨activate ids s now d binding crash, facts⟩ ↔ (d.request.kind = .scope →
      ∀ root ∈ binding.lookup "canonicalRoot",
        d.request.binding.lookup "requestedRoot" = some root) := by
  obtain ⟨store, hput⟩ := putTaskGrant_total h now d.task d.request.kind binding
  obtain ⟨hrows, hrequests⟩ := putTaskGrant_ok hput
  obtain ⟨hkept, hgrants⟩ := activate_afterGrant crash hput
  obtain ⟨request, hmem, hid, hbinding⟩ := hd
  have hput_iff := bound_put h hbound
    [((granted ids s now d.task d.request.kind.kind binding).grantId, d.request.requestId)] hput (by simp)
  have hkind : d.request.kind.kind = .scope ↔ d.request.kind = .scope := by
    cases d.request.kind <;> simp [RequestKind.kind]
  have hafter : Bound ⟨activate ids s now d binding crash, facts⟩ ↔
      Bound ⟨afterGrant ids s now d binding store, facts⟩ :=
    ⟨fun hb => hb.before hkept hgrants, fun hb => hb.kept hkept⟩
  rw [hafter, afterGrant, hput_iff, hkind]
  refine forall_congr' fun hscope => forall_congr' fun root => forall_congr' fun hroot => ?_
  have hold : ∀ origin ∈ s.origins,
      origin.1 ≠ (granted ids s now d.task d.request.kind.kind binding).grantId := by
    intro origin horigin heq
    obtain ⟨n, hn, hdrawn⟩ := h.origins origin horigin
    have hsame := ids.injective _ (hdrawn.symm.trans heq)
    omega
  constructor
  · rintro (⟨request', hmem', horigin, hroot'⟩ | ⟨hnone, -⟩)
    · rcases List.mem_append.1 horigin with hin | hin
      · exact absurd rfl (hold _ hin)
      · have hid' : request'.requestId = d.request.requestId :=
          congrArg Prod.snd (List.mem_singleton.1 hin)
        have hsame : request' = request := s.store.requests.eq_of_key (hrequests ▸ hmem') hmem
          (hid'.trans hid.symm)
        rw [← hbinding, ← hsame]
        exact hroot'
    · exact absurd rfl (hnone _ (List.mem_append_right _ (List.mem_singleton_self _)))
  · intro hrequested
    refine Or.inl ⟨request, hrequests ▸ hmem, ?_, hbinding ▸ hrequested⟩
    rw [hid]
    exact List.mem_append_right _ (List.mem_singleton_self _)

/-! ### Every operation -/

/-- The initial policy puts no scope grants in these. -/
theorem bound_foldl {α : Type} {kind : GrantKind} (hkind : kind ≠ .scope) {now : ℕ}
    {task : TaskContext} {binding : α → Payload} {facts : List (String × Payload)} (xs : List α)
    (h : Wired s ids) (hbound : Bound ⟨s, facts⟩) :
    Bound ⟨xs.foldl (fun s x => putGrant ids s now task kind (binding x)) s, facts⟩ := by
  induction xs generalizing s with
  | nil => exact hbound
  | cons x xs ih => exact ih h.putGrant (hbound.putGrant h fun hscope => absurd hscope hkind)

/-- An approval begins to wait for the target. -/
theorem Wired.wait (h : Wired s ids) {d : Decision} (hkind : d.request.kind = .scope)
    (hmem : d.request ∈ s.store.requests.rows) :
    Wired { s with inFlight := s.inFlight ++ [d] } ids where
  grants := h.grants
  requests := h.requests
  inFlight d' hd' := by
    rcases List.mem_append.1 hd' with hold | hlast
    · exact h.inFlight d' hold
    · obtain rfl := List.mem_singleton.1 hlast
      exact ⟨hkind, d'.request, hmem, rfl, rfl⟩
  origins := h.origins

theorem Wired.createRequest (h : Wired s ids) {now : ℕ} {task : TaskContext} {kind : RequestKind}
    {binding : Payload} : Wired (createRequest ids digestObject s now task kind binding) ids where
  grants grant hgrant := by
    obtain ⟨n, hn, hid⟩ := h.grants grant hgrant
    exact ⟨n, hn.trans (Nat.lt_succ_self _), hid⟩
  requests request hrequest := by
    rcases Table.mem_put.1 hrequest with rfl | ⟨hold, -⟩
    · exact ⟨s.drawn, Nat.lt_succ_self _, rfl⟩
    · obtain ⟨n, hn, hid⟩ := h.requests request hold
      exact ⟨n, hn.trans (Nat.lt_succ_self _), hid⟩
  inFlight d hd := by
    obtain ⟨hkind, request, hmem, hid, hbinding⟩ := h.inFlight d hd
    refine ⟨hkind, request, Table.mem_put.2 (Or.inr ⟨hmem, fun heq => ?_⟩), hid, hbinding⟩
    obtain ⟨n, hn, hdrawn⟩ := h.requests request hmem
    have hsame := ids.injective _ (hdrawn.symm.trans heq)
    omega
  origins origin horigin := by
    obtain ⟨n, hn, hid⟩ := h.origins origin horigin
    exact ⟨n, hn.trans (Nat.lt_succ_self _), hid⟩

theorem Bound.createRequest (h : Wired s ids) {facts : List (String × Payload)}
    (hbound : Bound ⟨s, facts⟩) {now : ℕ} {task : TaskContext} {kind : RequestKind}
    {binding : Payload} :
    Bound ⟨Grants.createRequest ids digestObject s now task kind binding, facts⟩ := by
  intro grant hgrant hscope hactive root hroot
  rcases hbound grant hgrant hscope hactive root hroot with ⟨request, hmem, horigin, hroot'⟩ | hpolicy
  · refine Or.inl ⟨request, Table.mem_put.2 (Or.inr ⟨hmem, fun heq => ?_⟩), horigin, hroot'⟩
    obtain ⟨n, hn, hdrawn⟩ := h.requests request hmem
    have hsame := ids.injective _ (hdrawn.symm.trans heq)
    omega
  · exact Or.inr hpolicy

theorem Wired.decide (h : Wired s ids) {now : ℕ} {requestId : String} {task : Option TaskContext}
    {approved connected crash : Bool} :
    Wired (decideGrantRequest ids s now requestId task approved connected crash) ids := by
  rw [decideGrantRequest]
  cases hcheck : checkDecision s.store requestId task with
  | error e => exact h
  | ok d =>
    cases approved with
    | false => exact h.kept kept_update
    | true =>
      dsimp only
      rw [Bool.not_true, if_neg Bool.false_ne_true]
      cases hkind : d.request.kind with
      | scope =>
        dsimp only
        split
        · exact h.wait hkind (checkDecision_ok hcheck).1
        · exact h
      | sensitiveRead => exact h.activate

/-- A decision puts no scope grant yet. -/
theorem Bound.decide (h : Wired s ids) {facts : List (String × Payload)} (hbound : Bound ⟨s, facts⟩)
    {now : ℕ} {requestId : String} {task : Option TaskContext} {approved connected crash : Bool} :
    Bound ⟨decideGrantRequest ids s now requestId task approved connected crash, facts⟩ := by
  rw [decideGrantRequest]
  cases hcheck : checkDecision s.store requestId task with
  | error e => exact hbound
  | ok d =>
    cases approved with
    | false => exact hbound.kept kept_update
    | true =>
      dsimp only
      rw [Bool.not_true, if_neg Bool.false_ne_true]
      cases hkind : d.request.kind with
      | scope =>
        dsimp only
        split <;> exact hbound
      | sensitiveRead =>
        refine (bound_activate h hbound ⟨d.request, (checkDecision_ok hcheck).1, rfl, rfl⟩).2 ?_
        intro hscope
        rw [hkind] at hscope
        cases hscope

theorem kept_dropped (s : System) (position : ℕ) :
    Kept s { s with inFlight := s.inFlight.eraseIdx position } :=
  .of_store rfl (fun _ hd => List.mem_of_mem_eraseIdx hd) rfl (Nat.le_refl _)

theorem Wired.answer (h : Wired s ids) {now position : ℕ} {binding : Option Payload} {crash : Bool} :
    Wired (Grants.answer ids s now position binding crash) ids := by
  have hrest := h.kept (kept_dropped s position)
  rw [Grants.answer.eq_def]
  split
  · exact hrest.activate
  · exact hrest

theorem bound_answer (h : Wired s ids) {facts : List (String × Payload)} (hbound : Bound ⟨s, facts⟩)
    {now position : ℕ} {binding : Payload} {crash : Bool} :
    Bound ⟨answer ids s now position (some binding) crash, facts⟩ ↔
      ∀ d ∈ s.inFlight[position]?, ∀ root ∈ binding.lookup "canonicalRoot",
        d.request.binding.lookup "requestedRoot" = some root := by
  have hrest := h.kept (kept_dropped s position)
  have hbound' := hbound.kept (kept_dropped s position)
  rw [answer.eq_def]
  cases hd : s.inFlight[position]? with
  | none => exact ⟨fun _ d hmem => absurd hmem (Option.not_mem_none d), fun _ => hbound'⟩
  | some d =>
    obtain ⟨hkind, hrequest⟩ := h.inFlight d (List.mem_of_getElem? hd)
    dsimp only
    rw [bound_activate hrest hbound' hrequest]
    constructor
    · rintro hroots d' hd'
      cases hd'
      exact hroots hkind
    · exact fun hroots _ => hroots d rfl

/-! ### The presets -/

theorem mem_of_lookup_spread {name : String} {value : Json} {left right : Payload}
    (h : (spread left right).lookup name = some value) :
    left.lookup name = some value ∨ (name, value) ∈ right := by
  induction right generalizing left with
  | nil => exact Or.inl h
  | cons field rest ih =>
    rcases ih h with hleft | hrest
    · rw [OrderedMap.lookup_upsert] at hleft
      split at hleft
      · rename_i hname
        cases hleft
        exact Or.inr (hname ▸ List.mem_cons_self)
      · exact Or.inl hleft
    · exact Or.inr (List.mem_cons_of_mem _ hrest)

/-- What the merged facts say, one of them says. -/
theorem mem_of_lookup_merged {name : String} {value : Json} {payloads : List Payload} {merged : Payload}
    (h : (payloads.foldl spread merged).lookup name = some value) :
    merged.lookup name = some value ∨ ∃ payload ∈ payloads, (name, value) ∈ payload := by
  induction payloads generalizing merged with
  | nil => exact Or.inl h
  | cons payload rest ih =>
    rcases ih h with hmerged | ⟨payload', hmem, hin⟩
    · rcases mem_of_lookup_spread hmerged with hold | hin
      · exact Or.inl hold
      · exact Or.inr ⟨payload, List.mem_cons_self, hin⟩
    · exact Or.inr ⟨payload', List.mem_cons_of_mem _ hmem, hin⟩

/-- A resolved root of the policy is the root that the policy names. -/
theorem policyRoot_resolvedScope {facts : List (String × Payload)} {category : CheckCategory}
    {path : String} (hpath : path ∈ fixedScopesByCategory category) {answer binding : Payload}
    (h : resolvedScope path answer = some binding) :
    ∀ root ∈ binding.lookup "canonicalRoot", PolicyRoot facts root := by
  rw [resolvedScope] at h
  split at h
  · obtain ⟨mountId, -, rfl⟩ := Option.map_eq_some_iff.1 h
    intro root hroot
    cases hroot
    exact Or.inl ⟨category, path, hpath, rfl⟩
  · cases h

/-- The scope of a web root is a path on record. -/
theorem policyRoot_webRootScope {facts : List (String × Payload)} {ref : String} {binding : Payload}
    (h : webRootScope (webRootPayload facts ref) = some binding) :
    ∀ root ∈ binding.lookup "canonicalRoot", PolicyRoot facts root := by
  obtain ⟨path, hpath, h⟩ := Option.bind_eq_some_iff.1 h
  obtain ⟨mountId, -, h⟩ := Option.bind_eq_some_iff.1 h
  obtain ⟨value, hvalue, hstring⟩ := Option.bind_eq_some_iff.1 hpath
  cases h
  intro root hroot
  cases hroot
  obtain rfl : value = .str path := by
    cases value <;> simp [Json.asString?] at hstring
    rw [hstring]
  rcases mem_of_lookup_merged hvalue with hnil | ⟨payload, hmem, hin⟩
  · cases hnil
  · obtain ⟨fact, hfact, rfl⟩ := List.mem_map.1 hmem
    exact Or.inr ⟨fact, (List.mem_filter.1 hfact).1, hin⟩

theorem Wired.ensure {s : ScopeSystem} (h : Wired s.grants ids) {now : ℕ} {task : TaskContext}
    {binding : Option Payload} : Wired (s.ensure ids digestObject now task binding).grants ids := by
  cases binding with
  | none => exact h
  | some b =>
    rw [ScopeSystem.ensure, ensurePresetScope]
    split
    · exact h
    · exact h.putGrant

theorem Bound.ensure {s : ScopeSystem} (h : Wired s.grants ids) (hbound : Bound s) {now : ℕ}
    {task : TaskContext} {binding : Option Payload}
    (hroot : ∀ b ∈ binding, ∀ root ∈ b.lookup "canonicalRoot", PolicyRoot s.webRootFacts root) :
    Bound (s.ensure ids digestObject now task binding) := by
  cases binding with
  | none => exact hbound
  | some b =>
    rw [ScopeSystem.ensure, ensurePresetScope]
    split
    · exact hbound
    · exact hbound.putGrant h fun _ => hroot b rfl

/-! ### Every run -/

theorem wired_scopeStep {s : ScopeSystem} (h : Wired s.grants ids) (op : ℕ × ScopeOp) :
    Wired (scopeStep ids digestObject s op).grants ids := by
  obtain ⟨now, op⟩ := op
  cases op with
  | recordWebRoot ref payload => exact h
  | fixedScope task category position resolved => exact h.ensure
  | webRoot task ref => exact h.ensure
  | system op =>
    obtain ⟨op, hop⟩ := op
    cases op with
    | createRequest task kind binding => exact h.createRequest
    | decide requestId task approved connected crash => exact h.decide
    | answer position binding crash => exact h.answer
    | expirePending taskId => exact h.kept kept_expire
    | restart => exact h.kept (.of_store rfl (fun _ hd => (nomatch hd)) rfl (Nat.le_refl _))
    | revoke task grantId reason => exact h.kept kept_revoke
    | ensureCategoryGrants task checks =>
      exact List.foldlRecOn (motive := (Wired · ids)) _ _ h fun _ h _ _ => h.putGrant
    | ensureInitialProbeGrants task checks advertised =>
      exact List.foldlRecOn (motive := (Wired · ids)) _ _ h fun _ h _ _ => h.putGrant
    | ensurePresetScope task binding => cases hop

/-- An operation keeps the roots approved exactly when it is no unchecked answer. -/
theorem bound_scopeStep {s : ScopeSystem} (h : Wired s.grants ids) (hbound : Bound s)
    (op : ℕ × ScopeOp) : Bound (scopeStep ids digestObject s op) ↔ AnswerChecked s op := by
  obtain ⟨now, op⟩ := op
  cases op with
  | recordWebRoot ref payload =>
    refine iff_of_true (fun grant hgrant hscope hactive root hroot => ?_) trivial
    rcases hbound grant hgrant hscope hactive root hroot with hrequested | ⟨hnone, hpolicy⟩
    · exact Or.inl hrequested
    · refine Or.inr ⟨hnone, hpolicy.imp_right ?_⟩
      rintro ⟨fact, hfact, hpath⟩
      exact ⟨fact, List.mem_append_left _ hfact, hpath⟩
  | fixedScope task category position resolved =>
    refine iff_of_true (hbound.ensure h fun b hb => ?_) trivial
    obtain ⟨path, hpath, hb⟩ := Option.bind_eq_some_iff.1 hb
    obtain ⟨answer, -, hb⟩ := Option.bind_eq_some_iff.1 hb
    exact policyRoot_resolvedScope (List.mem_of_getElem? hpath) hb
  | webRoot task ref =>
    exact iff_of_true (hbound.ensure h fun b hb => policyRoot_webRootScope hb) trivial
  | system op =>
    obtain ⟨op, hop⟩ := op
    cases op with
    | createRequest task kind binding => exact iff_of_true (hbound.createRequest h) trivial
    | decide requestId task approved connected crash => exact iff_of_true (hbound.decide h) trivial
    | answer position binding crash =>
      cases binding with
      | some binding => exact bound_answer h hbound
      | none =>
        refine iff_of_true ?_ trivial
        rw [scopeStep, step, answer.eq_def]
        cases s.grants.inFlight[position]? <;> exact hbound.kept (kept_dropped s.grants position)
    | expirePending taskId => exact iff_of_true (hbound.kept kept_expire) trivial
    | restart =>
      refine iff_of_true (hbound.kept (.of_store rfl ?_ rfl (Nat.le_refl _))) trivial
      exact fun _ hd => absurd hd List.not_mem_nil
    | revoke task grantId reason => exact iff_of_true (hbound.kept kept_revoke) trivial
    | ensureCategoryGrants task checks =>
      exact iff_of_true (bound_foldl (by decide) _ h hbound) trivial
    | ensureInitialProbeGrants task checks advertised =>
      exact iff_of_true (bound_foldl (by decide) _ h hbound) trivial
    | ensurePresetScope task binding => cases hop

/-- The roots of the active scope grants are approved all along a run exactly when every answer to an
    approval names the root that was asked for. -/
theorem scopes_bound_iff (ids : IdSupply) (digestObject : Json → String) (ops : List (ℕ × ScopeOp)) :
    (∀ n, Bound (runScopes ids digestObject (ops.take n))) ↔
      Runs.Along (scopeStep ids digestObject) AnswerChecked .empty ops := by
  refine Runs.along_iff (J := fun (s : ScopeSystem) => Wired s.grants ids)
    (fun s op h => wired_scopeStep h op) (fun s op h hbound => bound_scopeStep h hbound op) ops .empty
    wired_empty ?_
  intro grant hgrant
  cases hgrant

/-- An answer with a root that nobody asked for. -/
def otherRoot : ScopeOp := .system ⟨.answer 0 (some [("namespace", .str "file"),
  ("canonicalRoot", .str "/etc"), ("mountId", .str "29")]) false, rfl⟩

/-- The analyst approves /srv, the target answers /etc, and there is an active grant for /etc. -/
theorem unrelated_root : ¬ Bound (runScopes tallyIds rootDigest
    [(1, .system ⟨asked.2, rfl⟩), (2, .system ⟨(decided true).2, rfl⟩), (3, otherRoot)]) := by
  intro hbound
  rcases hbound _ (List.mem_singleton_self _) rfl rfl (.str "/etc") rfl with
    ⟨request, hmem, -, hroot⟩ | ⟨hnone, -⟩
  · obtain rfl := List.mem_singleton.1 hmem
    revert hroot
    decide
  · exact hnone _ (List.mem_singleton_self _) rfl

end HuntWarden.Grants
