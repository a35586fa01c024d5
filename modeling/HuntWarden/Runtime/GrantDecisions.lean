import HuntWarden.Runtime.Grants

/-! The decisions on one request. The check that a request is pending comes before the target is asked,
    the grant is written before the request is; as long as the request is still pending when the grant is
    put, and the process does not stop between the two writes, no request ever yields two grants, and
    every grant belongs to an approved one. -/

namespace HuntWarden.Grants

open Outcome GrantStore

section

variable (ids : IdSupply) (digestObject : Json → String)

/-- The approval whose grant an operation puts. -/
def activating (s : System) : Timed → Option Decision
  | (_, .answer position (some _) _) => s.inFlight[position]?
  | (_, .decide requestId task true _ _) =>
    (checkDecision s.store requestId task).toOption.filter fun d => d.request.kind = .sensitiveRead
  | _ => none

def crashes : Timed → Bool
  | (_, .answer _ _ crash) | (_, .decide _ _ _ _ crash) => crash
  | _ => false

/-- The request is pending. -/
def Pending (s : System) (requestId : String) : Prop :=
  ∃ request ∈ s.store.requests.rows, request.requestId = requestId ∧ request.status = .pending

/-- The grant of a request is put while the request is still pending, and both writes are done. -/
def Undisturbed (s : System) (op : Timed) : Prop :=
  ∀ d ∈ activating s op, crashes op = false ∧ Pending s d.request.requestId

instance (s : System) (requestId : String) : Decidable (Pending s requestId) :=
  inferInstanceAs (Decidable (∃ request ∈ s.store.requests.rows, _))

instance (s : System) (op : Timed) : Decidable (Undisturbed s op) :=
  inferInstanceAs (Decidable (∀ d ∈ activating s op, _))

/-- The grants that come from requests come from approved ones, one from each. -/
structure Settled (s : System) : Prop where
  drawn : ∀ request ∈ s.store.requests.rows, ∃ n < s.drawn,
    request.requestId = ids.createId .grantRequest n
  approved : ∀ origin ∈ s.origins, ∃ request ∈ s.store.requests.rows,
    request.requestId = origin.2 ∧ request.status = .approved
  once : (s.origins.map Prod.snd).Nodup

end

variable {ids : IdSupply} {digestObject : Json → String} {s s' : System}

theorem settled_empty : Settled ids .empty where
  drawn := by simp [System.empty, GrantStore.empty]
  approved := by simp [System.empty]
  once := by simp [System.empty]

/-- What leaves the approved requests and the origins alone. -/
theorem Settled.keep (h : Settled ids s)
    (hdrawn : ∀ request ∈ s'.store.requests.rows, ∃ n < s'.drawn,
      request.requestId = ids.createId .grantRequest n)
    (happroved : ∀ request ∈ s.store.requests.rows, request.status = .approved →
      request ∈ s'.store.requests.rows)
    (horigins : s'.origins = s.origins) : Settled ids s' where
  drawn := hdrawn
  approved := by
    rw [horigins]
    intro origin horigin
    obtain ⟨request, hmem, hid, hstatus⟩ := h.approved origin horigin
    exact ⟨request, happroved request hmem hstatus, hid, hstatus⟩
  once := horigins ▸ h.once

/-- Nothing happens to the requests. -/
theorem Settled.requests_eq (h : Settled ids s) (hrequests : s'.store.requests = s.store.requests)
    (horigins : s'.origins = s.origins) (hdrawn : s.drawn ≤ s'.drawn) : Settled ids s' := by
  refine h.keep ?_ (fun request hmem _ => hrequests ▸ hmem) horigins
  rw [hrequests]
  intro request hmem
  obtain ⟨n, hn, hid⟩ := h.drawn request hmem
  exact ⟨n, hn.trans_le hdrawn, hid⟩

/-- A decided request is another one than those decided before. -/
theorem mem_of_decided {now : ℕ} {requestId : String} {status : RequestStatus} {store : GrantStore}
    (h : s.store.updateGrantRequest now requestId status = .ok store) :
    (∀ request ∈ store.requests.rows, ∃ request' ∈ s.store.requests.rows,
      request'.requestId = request.requestId) ∧
    ∀ request ∈ s.store.requests.rows, request.status = .approved → request ∈ store.requests.rows := by
  obtain ⟨pending, hmem, -, hstatus, hrequests, -⟩ := updateGrantRequest_ok h
  rw [hrequests]
  constructor
  · intro request hrequest
    rcases Table.mem_put.1 hrequest with rfl | ⟨hold, -⟩
    · exact ⟨pending, hmem, rfl⟩
    · exact ⟨request, hold, rfl⟩
  · intro request hrequest happroved
    refine Table.mem_put.2 (Or.inr ⟨hrequest, fun hid => ?_⟩)
    have heq : request = pending := s.store.requests.eq_of_key hrequest hmem hid
    rw [heq, hstatus] at happroved
    cases happroved

theorem Settled.update (h : Settled ids s) {now : ℕ} {requestId : String} {status : RequestStatus} :
    Settled ids { s with
      store := transact s.store (s.store.updateGrantRequest now requestId status) } := by
  cases hupdate : s.store.updateGrantRequest now requestId status with
  | error e => exact h
  | ok store =>
    obtain ⟨hold, happroved⟩ := mem_of_decided hupdate
    refine h.keep ?_ happroved rfl
    intro request hrequest
    obtain ⟨request', hmem, hid⟩ := hold request hrequest
    exact hid ▸ h.drawn request' hmem

/-- A grant is put, or refused with nothing changed. -/
theorem putGrant_cases (ids : IdSupply) (s : System) (now : ℕ) (task : TaskContext) (kind : GrantKind)
    (binding : Payload) :
    putGrant ids s now task kind binding = s ∨
      ∃ store, s.store.putTaskGrant (granted ids s now task kind binding) = .ok store ∧
        putGrant ids s now task kind binding = { s with store, drawn := s.drawn + 1 } := by
  cases hput : s.store.putTaskGrant (granted ids s now task kind binding) with
  | error e => exact Or.inl (by rw [putGrant, hput])
  | ok store => exact Or.inr ⟨store, rfl, by rw [putGrant, hput]⟩

theorem Settled.putGrant (h : Settled ids s) {now : ℕ} {task : TaskContext} {kind : GrantKind}
    {binding : Payload} : Settled ids (putGrant ids s now task kind binding) := by
  rcases putGrant_cases ids s now task kind binding with heq | ⟨store, hput, heq⟩ <;> rw [heq]
  · exact h
  · exact h.requests_eq (putTaskGrant_ok hput).2 rfl (Nat.le_succ _)

/-- The approval of a request that is still pending. -/
theorem Settled.activate (h : Settled ids s) {now : ℕ} {d : Decision} {binding : Payload}
    (hpending : Pending s d.request.requestId) : Settled ids (activate ids s now d binding false) := by
  rw [Grants.activate]
  cases hput : s.store.putTaskGrant (granted ids s now d.task d.request.kind.kind binding) with
  | error e => exact h
  | ok store =>
    obtain ⟨-, hrequests⟩ := putTaskGrant_ok hput
    obtain ⟨request, hmem, hid, hstatus⟩ := hpending
    have hmem' : request ∈ store.requests.rows := hrequests ▸ hmem
    have hnew : ∀ origin ∈ s.origins, origin.2 ≠ d.request.requestId := by
      intro origin horigin heq
      obtain ⟨request', hmem', hid', hstatus'⟩ := h.approved origin horigin
      have hsame : request' = request :=
        s.store.requests.eq_of_key hmem' hmem (hid'.trans (heq.trans hid.symm))
      rw [hsame, hstatus] at hstatus'
      cases hstatus'
    have hupdate : store.updateGrantRequest now d.request.requestId .approved =
        .ok (store.putGrantRequest { request with status := .approved, decidedAt := some now }) :=
      hid ▸ updateGrantRequest_total .approved hmem' hstatus
    dsimp only
    rw [if_neg Bool.false_ne_true, hupdate]
    refine ⟨?_, ?_, ?_⟩
    · intro request' hrequest'
      obtain ⟨n, hn, hid'⟩ : ∃ n < s.drawn, request'.requestId = ids.createId .grantRequest n := by
        rcases Table.mem_put.1 hrequest' with rfl | ⟨hold, -⟩
        · exact h.drawn request hmem
        · exact h.drawn request' (hrequests ▸ hold)
      exact ⟨n, hn.trans (Nat.lt_succ_self _), hid'⟩
    · intro origin horigin
      rcases List.mem_append.1 horigin with horigin | horigin
      · obtain ⟨request', hold, hid', hstatus'⟩ := h.approved origin horigin
        refine ⟨request', Table.mem_put.2 (Or.inr ⟨hrequests ▸ hold, fun heq => ?_⟩), hid', hstatus'⟩
        exact hnew origin horigin (hid'.symm.trans (heq.trans hid))
      · obtain rfl := List.mem_singleton.1 horigin
        exact ⟨_, Table.mem_put.2 (Or.inl rfl), hid, rfl⟩
    · rw [List.map_append, List.map_singleton, List.nodup_append_comm, List.singleton_append,
        List.nodup_cons]
      refine ⟨fun hin => ?_, h.once⟩
      obtain ⟨origin, horigin, heq⟩ := List.mem_map.1 hin
      exact hnew origin horigin heq

theorem checkDecision_ok {store : GrantStore} {requestId : String} {task : Option TaskContext}
    {d : Decision} (h : checkDecision store requestId task = .ok d) :
    d.request ∈ store.requests.rows ∧ d.request.status = .pending := by
  obtain ⟨request, hrequest, h⟩ := bind_ok.1 h
  obtain ⟨task, -, h⟩ := bind_ok.1 h
  obtain ⟨_, -, h⟩ := bind_ok.1 h
  rw [pure_ok] at h
  subst h
  obtain ⟨hget, hpending⟩ := Option.filter_eq_some_iff.1 (orThrow_ok.1 hrequest)
  exact ⟨(Table.get?_eq_some.1 hget).1, of_decide_eq_true hpending⟩

theorem step_settled (h : Settled ids s) (op : Timed) (hop : Undisturbed s op) :
    Settled ids (step ids digestObject s op) := by
  obtain ⟨now, op⟩ := op
  cases op with
  | createRequest task kind binding =>
    have hfresh : ∀ request ∈ s.store.requests.rows,
        request.requestId ≠ ids.createId .grantRequest s.drawn := by
      intro request hmem heq
      obtain ⟨n, hn, hid⟩ := h.drawn request hmem
      have hsame := ids.injective _ (hid.symm.trans heq)
      omega
    refine h.keep ?_ (fun request hmem _ => Table.mem_put.2 (Or.inr ⟨hmem, hfresh request hmem⟩)) rfl
    intro request hrequest
    rcases Table.mem_put.1 hrequest with rfl | ⟨hold, -⟩
    · exact ⟨s.drawn, Nat.lt_succ_self _, rfl⟩
    · obtain ⟨n, hn, hid⟩ := h.drawn request hold
      exact ⟨n, hn.trans (Nat.lt_succ_self _), hid⟩
  | decide requestId task approved connected crash =>
    rw [step, decideGrantRequest]
    cases hcheck : checkDecision s.store requestId task with
    | error e => exact h
    | ok d =>
      cases approved with
      | false => exact h.update
      | true =>
        dsimp only
        rw [Bool.not_true, if_neg Bool.false_ne_true]
        cases hkind : d.request.kind with
        | scope =>
          dsimp only
          split
          · exact h.requests_eq rfl rfl (Nat.le_refl _)
          · exact h
        | sensitiveRead =>
          have hactivating : d ∈ activating s (now, .decide requestId task true connected crash) := by
            simp [activating, hcheck, Except.toOption, hkind]
          obtain ⟨rfl, hpending⟩ := hop d hactivating
          exact h.activate hpending
  | answer position binding crash =>
    rw [step, answer.eq_def]
    cases hd : s.inFlight[position]? with
    | none => exact h.requests_eq rfl rfl (Nat.le_refl _)
    | some d =>
      cases binding with
      | none => exact h.requests_eq rfl rfl (Nat.le_refl _)
      | some binding =>
        obtain ⟨hcrash, hpending⟩ := hop d hd
        obtain rfl : crash = false := hcrash
        have hrest : Settled ids { s with inFlight := s.inFlight.eraseIdx position } :=
          h.requests_eq rfl rfl (Nat.le_refl _)
        exact hrest.activate hpending
  | expirePending taskId =>
    refine h.keep ?_ ?_ rfl
    · intro request hrequest
      obtain ⟨old, hold, rfl⟩ := List.mem_map.1 hrequest
      exact expireRequest_requestId taskId old ▸ h.drawn old hold
    · intro request hmem happroved
      refine List.mem_map.2 ⟨request, hmem, ?_⟩
      rw [expireRequest, if_neg]
      rintro ⟨-, hpending⟩
      rw [happroved] at hpending
      cases hpending
  | restart => exact h.requests_eq rfl rfl (Nat.le_refl _)
  | revoke task grantId reason =>
    rw [step, revoke.eq_def]
    cases task with
    | none => exact h
    | some task =>
      dsimp only
      split
      · cases hrevoke : s.store.revokeTaskGrant now task.taskId grantId reason with
        | error e => exact h
        | ok store =>
          obtain ⟨_, -, -, -, -, hrequests⟩ := revokeTaskGrant_ok hrevoke
          exact h.requests_eq hrequests rfl (Nat.le_refl _)
      · exact h
  | ensureCategoryGrants task checks => exact List.foldlRecOn _ _ h fun _ h _ _ => h.putGrant
  | ensureInitialProbeGrants task checks advertised =>
    exact List.foldlRecOn _ _ h fun _ h _ _ => h.putGrant
  | ensurePresetScope task binding =>
    rw [step, ensurePresetScope]
    split
    · exact h
    · exact h.putGrant

/-- In every run whose approvals are undisturbed, an active grant that comes from a request comes from an
    approved one, and no request yields two grants. -/
theorem grants_of_approved {ops : List Timed}
    (hops : Runs.Along (step ids digestObject) Undisturbed .empty ops) :
    (∀ grant ∈ (runOps ids digestObject ops).store.grants.rows, grant.status = .active →
      ∀ requestId, (grant.grantId, requestId) ∈ (runOps ids digestObject ops).origins →
        ∃ request ∈ (runOps ids digestObject ops).store.requests.rows,
          request.requestId = requestId ∧ request.status = .approved) ∧
    ((runOps ids digestObject ops).origins.map Prod.snd).Nodup := by
  have hsettled : Settled ids (runOps ids digestObject ops) :=
    Runs.run_invariant (I := Settled ids) (fun _ op h hop => step_settled h op hop) ops _ settled_empty
      hops
  exact ⟨fun grant _ _ requestId horigin => hsettled.approved _ horigin, hsettled.once⟩

/-! ### One request -/

def sampleTask : TaskContext where
  taskId := "TASK-1"
  hostFingerprint := "SHA256:host"
  mode := .scan
  status := .running
  protocolVersion := some 2
  activeEpochId := some "EPOCH-1"
  interruption := none

def requestedRoot : Payload := [("namespace", .str "file"), ("requestedRoot", .str "/srv")]

def canonicalRoot : Payload :=
  [("namespace", .str "file"), ("canonicalRoot", .str "/srv"), ("mountId", .str "29")]

/-- The digest is the text of the root. -/
def rootDigest (binding : Json) : String :=
  ((binding.get? "canonicalRoot").bind Json.asString?).getD "other"

def asked : Timed := (1, .createRequest sampleTask .scope requestedRoot)

def decided (approved : Bool) : Timed := (2, .decide "1" (some sampleTask) approved true false)

def resolved : Timed := (3, .answer 0 (some canonicalRoot) false)

theorem grants_of_approved_sample :
    (∀ grant ∈ (runOps tallyIds rootDigest [asked, decided true, resolved]).store.grants.rows,
      grant.status = .active → ∀ requestId, (grant.grantId, requestId) ∈
        (runOps tallyIds rootDigest [asked, decided true, resolved]).origins →
          ∃ request ∈ (runOps tallyIds rootDigest [asked, decided true, resolved]).store.requests.rows,
            request.requestId = requestId ∧ request.status = .approved) ∧
    ((runOps tallyIds rootDigest [asked, decided true, resolved]).origins.map Prod.snd).Nodup :=
  grants_of_approved (by decide)

/-- The analyst approves a scope and denies it while the target is still being asked: the request is
    denied and its grant is active. Two approvals at once give two grants. -/
theorem denied_and_active :
    (∃ grant ∈ (runOps tallyIds rootDigest
        [asked, decided true, decided false, resolved]).store.grants.rows, grant.status = .active ∧
      (grant.grantId, "1") ∈ (runOps tallyIds rootDigest
        [asked, decided true, decided false, resolved]).origins ∧
      ∀ request ∈ (runOps tallyIds rootDigest
        [asked, decided true, decided false, resolved]).store.requests.rows,
        request.requestId = "1" → request.status = .denied) ∧
    ¬ ((runOps tallyIds rootDigest
        [asked, decided true, decided true, resolved, resolved]).origins.map Prod.snd).Nodup := by
  decide

end HuntWarden.Grants
