import HuntWarden.Common.StableJson
import HuntWarden.Investigation.Dependencies
import HuntWarden.Protocol.Capability

/-! What a change of the grants does to the queue. The authorization version is a digest of the active
    grants; a grant that is approved or revoked gives the session a new version, and blocks the actions that
    wait under the old one. -/

namespace HuntWarden.GrantChanges

open Attempts Capability Dependencies InvestigationStore Outcome StableJson

/-! ### The version -/

def kindName : GrantKind → String
  | .category => "CATEGORY"
  | .scope => "SCOPE"
  | .sensitiveRead => "SENSITIVE_READ"
  | .probe => "PROBE"
  | .budgetExtension => "BUDGET_EXTENSION"

theorem kindName_injective : Function.Injective kindName := by
  intro kind kind' h
  cases kind <;> cases kind' <;> first | rfl | exact absurd h (by decide)

/-- A hash whose hexadecimal digests the comparison of texts tells apart. -/
structure OrderedHash (c : Collation) extends Hash where
  apart : ∀ text text', c.localeCompare (sha256 text) (sha256 text') = .eq → sha256 text = sha256 text'

variable {c : Collation} (numbers : NumberText) (hash : OrderedHash c)

/-- What of a grant its digest is made of: an absent end of its validity is left out of the text. -/
def contentFields (grant : ExpiringGrant) : Payload :=
  ("kind", .str (kindName grant.kind)) :: ("binding", .obj grant.binding) ::
    (grant.expiresAt.map fun text => ("expiresAt", Json.str text)).toList

def content (grant : ExpiringGrant) : Json := .obj (contentFields grant)

def contentDigest (grant : ExpiringGrant) : String := digestObject c numbers hash.toHash (content grant)

/-- What the digest is taken of. -/
def contentText (c : Collation) (grant : ExpiringGrant) : List Char := stableJson c numbers (content grant)

/-- The grants of the target that are active and have not expired. -/
def activeGrants (clock : Clock) (targetFingerprint : String) (grants : List ExpiringGrant) :
    List ExpiringGrant :=
  grants.filter fun grant => isActive clock grant && grant.targetFingerprint = targetFingerprint

def digestLE (left right : ExpiringGrant) : Bool :=
  c.localeCompare (contentDigest numbers hash left) (contentDigest numbers hash right) ≠ .gt

/-- `.sort((left, right) => digestObject(left).localeCompare(digestObject(right)))`, which is stable. -/
def sortGrants (grants : List ExpiringGrant) : List ExpiringGrant :=
  grants.insertionSort (digestLE numbers hash · ·)

def envelope (clock : Clock) (targetFingerprint : String) (grants : List ExpiringGrant) : Json :=
  .obj [("targetFingerprint", .str targetFingerprint),
    ("activeGrants", .arr ((sortGrants numbers hash (activeGrants clock targetFingerprint grants)).map content))]

def computeAuthorizationVersion (clock : Clock) (targetFingerprint : String) (grants : List ExpiringGrant) :
    String :=
  "1.0.0:" ++ digestObject c numbers hash.toHash (envelope numbers hash clock targetFingerprint grants)

/-! ### What the version says about the grants -/

/-- Grants that permit the same, the order of the names in their bindings aside. -/
structure SamePermission (grant grant' : ExpiringGrant) : Prop where
  kind : grant.kind = grant'.kind
  binding : Same (.obj grant.binding) (.obj grant'.binding)
  expiresAt : grant.expiresAt = grant'.expiresAt

/-- What a grant permits, as it is stored. -/
def permission (grant : ExpiringGrant) : GrantKind × Payload × Option String :=
  (grant.kind, grant.binding, grant.expiresAt)

variable {numbers hash}

theorem digestObject_inj {value value' : Json} :
    digestObject c numbers hash.toHash value = digestObject c numbers hash.toHash value' ↔
      stableJson c numbers value = stableJson c numbers value' :=
  hash.injective.eq_iff

/-- Records with the same names have one text only if each of their values has. -/
theorem text_of_field {fields fields' : List (String × Json)} {name : String} {value value' : Json}
    (h : stableJson c numbers (.obj fields) = stableJson c numbers (.obj fields'))
    (hnodup : (fields'.map Prod.fst).Nodup) (hmem : (name, value) ∈ fields) (hmem' : (name, value') ∈ fields') :
    stableJson c numbers value = stableJson c numbers value' := by
  have htext : (name, stableJson c numbers value) ∈ texts c numbers fields' :=
    (texts_of_perm h).mem_iff.1 (List.mem_map.2 ⟨_, hmem, rfl⟩)
  have htext' : (name, stableJson c numbers value') ∈ texts c numbers fields' :=
    List.mem_map.2 ⟨_, hmem', rfl⟩
  have hnodup' : ((texts c numbers fields').map Prod.fst).Nodup := by
    rw [names_texts]
    exact hnodup
  exact congrArg Prod.snd (PropertyOrder.eq_of_name hnodup' htext htext' rfl)

theorem mem_content {grant : ExpiringGrant} {name : String} {value : Json} :
    (name, value) ∈ contentFields grant ↔ (name = "kind" ∧ value = .str (kindName grant.kind)) ∨
      (name = "binding" ∧ value = .obj grant.binding) ∨
      (name = "expiresAt" ∧ ∃ text, grant.expiresAt = some text ∧ value = .str text) := by
  simp [contentFields, eq_comm, and_left_comm]

/-- The text gives away what the grant permits. -/
theorem samePermission_of_text {grant grant' : ExpiringGrant}
    (h : contentText numbers c grant = contentText numbers c grant') : SamePermission grant grant' := by
  obtain ⟨hlength, hmatch⟩ := same_obj.1 (same_of_stableJson h)
  obtain ⟨kind, hkind, hsameKind⟩ := hmatch ("kind", _) (mem_content.2 (Or.inl ⟨rfl, rfl⟩))
  obtain ⟨binding, hbinding, hsameBinding⟩ := hmatch ("binding", _) (mem_content.2 (Or.inr (Or.inl ⟨rfl, rfl⟩)))
  obtain rfl : kind = .str (kindName grant'.kind) := by simpa using mem_content.1 hkind
  obtain rfl : binding = .obj grant'.binding := by simpa using mem_content.1 hbinding
  refine ⟨kindName_injective (Json.str.inj hsameKind), hsameBinding, ?_⟩
  cases hexpires : grant.expiresAt with
  | none =>
    cases hexpires' : grant'.expiresAt with
    | none => rfl
    | some text => simp [contentFields, hexpires, hexpires'] at hlength
  | some text =>
    obtain ⟨expiresAt, hmem, hsame⟩ := hmatch ("expiresAt", _)
      (mem_content.2 (Or.inr (Or.inr ⟨rfl, text, hexpires, rfl⟩)))
    obtain ⟨text', hexpires', rfl⟩ : ∃ text, grant'.expiresAt = some text ∧ expiresAt = .str text := by
      simpa using mem_content.1 hmem
    rw [hexpires', Json.str.inj hsame]

theorem contentText_of_permission {grant grant' : ExpiringGrant} (h : permission grant = permission grant') :
    contentText numbers c grant = contentText numbers c grant' := by
  obtain ⟨hkind, hrest⟩ := Prod.mk.inj h
  obtain ⟨hbinding, hexpiresAt⟩ := Prod.mk.inj hrest
  rw [contentText, contentText, content, content, contentFields, contentFields, hkind, hbinding, hexpiresAt]

theorem perm_sortGrants (grants : List ExpiringGrant) : (sortGrants numbers hash grants).Perm grants :=
  List.perm_insertionSort _ _

/-- Grants listed in another order are sorted into the same texts. -/
theorem sorted_texts {grants grants' : List ExpiringGrant}
    (h : (grants.map (contentText numbers c)).Perm (grants'.map (contentText numbers c))) :
    (sortGrants numbers hash grants).map (contentText numbers c) =
      (sortGrants numbers hash grants').map (contentText numbers c) := by
  have hsort : ∀ grants : List ExpiringGrant,
      ((sortGrants numbers hash grants).map (contentText numbers c)).map
          (fun text => (hash.sha256 text, text)) =
        ((grants.map (contentText numbers c)).map fun text => (hash.sha256 text, text)).insertionSort
          (PropertyOrder.nameLE c · ·) := fun grants => by
    rw [List.map_map, List.map_map]
    exact List.map_insertionSort _ _ _ _ fun _ _ _ _ => Iff.rfl
  have hpairs : Function.Injective fun text : List Char => (hash.sha256 text, text) := fun _ _ heq =>
    congrArg Prod.snd heq
  refine List.map_injective_iff.2 hpairs ?_
  rw [hsort, hsort]
  refine List.Perm.eq_of_pairwise ?_ (List.pairwise_insertionSort _ _) (List.pairwise_insertionSort _ _)
    ((List.perm_insertionSort _ _).trans ((h.map _).trans (List.perm_insertionSort _ _).symm))
  intro a b ha hb hab hba
  obtain ⟨text, -, rfl⟩ := List.mem_map.1 ((List.mem_insertionSort _).1 ha)
  obtain ⟨text', -, rfl⟩ := List.mem_map.1 ((List.mem_insertionSort _).1 hb)
  obtain rfl := hash.injective (hash.apart text text' (PropertyOrder.localeCompare_eq_of_nameLE hab hba))
  rfl

/-- The version is the same exactly when the texts of the active grants are, in whatever order. -/
theorem version_eq_iff {clock clock' : Clock} {targetFingerprint : String} {grants grants' : List ExpiringGrant} :
    computeAuthorizationVersion numbers hash clock targetFingerprint grants =
        computeAuthorizationVersion numbers hash clock' targetFingerprint grants' ↔
      ((activeGrants clock targetFingerprint grants).map (contentText numbers c)).Perm
        ((activeGrants clock' targetFingerprint grants').map (contentText numbers c)) := by
  have hmap : ∀ grants : List ExpiringGrant,
      (grants.map content).map (stableJson c numbers) = grants.map (contentText numbers c) := fun grants =>
    List.map_map
  rw [computeAuthorizationVersion, computeAuthorizationVersion, String.append_right_inj, digestObject_inj]
  constructor
  · intro h
    have htexts := texts_of_arr (text_of_field h (by simp) (List.mem_cons_of_mem _ List.mem_cons_self)
      (List.mem_cons_of_mem _ List.mem_cons_self))
    rw [hmap, hmap] at htexts
    refine ((@perm_sortGrants c numbers hash _).map _).symm.trans ?_
    rw [htexts]
    exact (perm_sortGrants _).map _
  · intro h
    have htexts := @sorted_texts c numbers hash _ _ h
    rw [← hmap, ← hmap] at htexts
    have harr := congrArg (fun texts => '[' :: (JsonDump.joined [','] texts ++ [']'])) htexts
    rw [envelope, envelope, stableJson_obj, stableJson_obj]
    simp only [texts, List.map_cons, List.map_nil, Prod.map, id, stableJson_arr, harr]

/-- The version does not depend on the order of the grants, and it is another one exactly when the active
    grants of the target permit something else. -/
structure FollowsGrants (numbers : NumberText) (hash : OrderedHash c) (clock clock' : Clock)
    (targetFingerprint : String) (grants grants' : List ExpiringGrant) : Prop where
  unordered : grants.Perm grants' → computeAuthorizationVersion numbers hash clock targetFingerprint grants =
    computeAuthorizationVersion numbers hash clock targetFingerprint grants'
  changed : computeAuthorizationVersion numbers hash clock targetFingerprint grants =
      computeAuthorizationVersion numbers hash clock' targetFingerprint grants' →
    ∃ paired, List.Forall₂ SamePermission (activeGrants clock targetFingerprint grants) paired ∧
      paired.Perm (activeGrants clock' targetFingerprint grants')
  unchanged : ((activeGrants clock targetFingerprint grants).map permission).Perm
      ((activeGrants clock' targetFingerprint grants').map permission) →
    computeAuthorizationVersion numbers hash clock targetFingerprint grants =
      computeAuthorizationVersion numbers hash clock' targetFingerprint grants'

theorem followsGrants (numbers : NumberText) (hash : OrderedHash c) (clock clock' : Clock)
    (targetFingerprint : String) (grants grants' : List ExpiringGrant) :
    FollowsGrants numbers hash clock clock' targetFingerprint grants grants' := by
  refine ⟨fun h => version_eq_iff.2 ((h.filter _).map _), fun h => ?_, fun h => version_eq_iff.2 ?_⟩
  · have htexts := version_eq_iff.1 h
    obtain ⟨paired, hforall, hperm⟩ := List.perm_comp_forall₂ htexts
      (List.forall₂_map_left_iff.2 (List.forall₂_same.2 fun grant _ => rfl) :
        List.Forall₂ (fun text grant => text = contentText numbers c grant) _ _)
    exact ⟨paired, (List.forall₂_map_left_iff.1 hforall).imp fun _ _ => samePermission_of_text, hperm⟩
  · have hfactor : ∀ grants : List ExpiringGrant, grants.map (contentText numbers c) =
        (grants.map permission).map fun p =>
          contentText numbers c ⟨⟨"", "", "", p.1, .active, p.2.1, 0, none, none⟩, p.2.2⟩ := fun grants => by
      rw [List.map_map]
      exact List.map_congr_left fun grant _ => contentText_of_permission rfl
    rw [hfactor, hfactor]
    exact h.map _

/-! ### The machine -/

variable (numbers hash)

/-- The queue of the epoch, the grants of its task, and whether the session accepts no more work. -/
structure GrantSystem where
  queue : ActionSystem
  taskId : String
  targetFingerprint : String
  grants : List ExpiringGrant
  stopped : Bool

/-- What `decideGrantRequest` grants. -/
structure Approval where
  grantId : String
  kind : RequestKind
  binding : Payload
  createdAt : ℕ

def isRefresh : ActionOp → Bool
  | .refresh _ => true
  | _ => false

inductive GrantOp where
  | work (op : ActionOp) (planned : isRefresh op = false)
  | approve (now : ℤ) (approval : Approval)
  | revoke (now : ℤ) (grantId : String)
  | session (stopped : Bool)

variable (dateParse : String → Option ℤ)

def GrantSystem.version (s : GrantSystem) (now : ℤ) : String :=
  computeAuthorizationVersion numbers hash ⟨dateParse, now⟩ s.targetFingerprint s.grants

def refreshInvestigationAuthorization (s : GrantSystem) (now : ℤ) : GrantSystem :=
  if s.stopped then s
  else { s with queue := Attempts.step s.queue (.refresh (s.version numbers hash dateParse now)) }

def GrantSystem.granted (s : GrantSystem) (approval : Approval) : ExpiringGrant where
  grantId := approval.grantId
  taskId := s.taskId
  targetFingerprint := s.targetFingerprint
  kind := approval.kind.kind
  status := .active
  binding := approval.binding
  createdAt := approval.createdAt

def GrantSystem.approved (s : GrantSystem) (approval : Approval) : GrantSystem :=
  { s with grants := s.grants ++ [s.granted approval] }

/-- An active grant that is revoked. -/
def revokes (s : GrantSystem) (grantId : String) (grant : ExpiringGrant) : Bool :=
  grant.grantId = grantId && grant.targetFingerprint = s.targetFingerprint && grant.status = .active

def step (s : GrantSystem) : GrantOp → GrantSystem
  | .work op _ => { s with queue := Attempts.step s.queue op }
  | .approve now approval => refreshInvestigationAuthorization numbers hash dateParse (s.approved approval) now
  | .revoke now grantId =>
    if s.grants.any (revokes s grantId) then
      refreshInvestigationAuthorization numbers hash dateParse
        { s with grants := s.grants.map fun grant =>
            if revokes s grantId grant then { grant with status := .revoked } else grant } now
    else s
  | .session stopped => { s with stopped }

/-- A session of an epoch that has just begun. -/
def opened (taskId targetFingerprint : String) (grants : List ExpiringGrant) (now : ℤ) : GrantSystem where
  queue := ⟨.empty, computeAuthorizationVersion numbers hash ⟨dateParse, now⟩ targetFingerprint grants⟩
  taskId := taskId
  targetFingerprint := targetFingerprint
  grants := grants
  stopped := false

/-! ### What is to hold -/

/-- Some run from here has an action for that operation under way, under the present version. -/
def Replannable (s : GrantSystem) (idempotencyKey : String) : Prop :=
  ∃ ops, ∃ a ∈ (Runs.run (step numbers hash dateParse) s ops).queue.store.actions.rows,
    a.idempotencyKey = idempotencyKey ∧ a.status = .running ∧
      a.authorizationVersion = s.queue.authorizationVersion

/-- What an approval blocks of the work that was waiting under the version of the session can be planned and
    claimed again. -/
def KeepsWork (s : GrantSystem) (op : GrantOp) : Prop :=
  match op with
  | .approve .. => ∀ a ∈ s.queue.store.actions.rows, a.status = .ready →
    a.authorizationVersion = s.queue.authorizationVersion →
    ∀ a' ∈ (step numbers hash dateParse s op).queue.store.actions.rows, a'.actionId = a.actionId →
      a'.status = .blocked → a'.error = some "AUTHORIZATION_VERSION_CHANGED" →
      Replannable numbers hash dateParse (step numbers hash dateParse s op) a.idempotencyKey
  | _ => True

/-- An approval finds no work waiting under the version of the session, or leaves that version as it is. -/
def NothingWaiting (s : GrantSystem) : GrantOp → Prop
  | .approve now approval => s.stopped = true ∨
    (s.approved approval).version numbers hash dateParse now = s.queue.authorizationVersion ∨
    ∀ a ∈ s.queue.store.actions.rows, a.status = .ready →
      a.authorizationVersion ≠ s.queue.authorizationVersion
  | _ => True

/-- The version follows the grants, and no approval along the run loses work. -/
structure NoLostWork (start : GrantSystem) (ops : List GrantOp) : Prop where
  version : ∀ (clock clock' : Clock) (targetFingerprint : String) (grants grants' : List ExpiringGrant),
    FollowsGrants numbers hash clock clock' targetFingerprint grants grants'
  kept : Runs.Along (step numbers hash dateParse) (KeepsWork numbers hash dateParse) start ops

/-! ### Ended work stays as it is -/

/-- The operation that this key stands for has ended, and no other action has its key. -/
def EndedUnder (idempotencyKey : String) (s : InvestigationStore) : Prop :=
  ∃ a ∈ s.actions.rows, a.idempotencyKey = idempotencyKey ∧ a.status.isLive = false

theorem endedUnder_work {key : String} {q : ActionSystem} (op : ActionOp) (hq : Consistent q.store)
    (h : EndedUnder key q.store) : EndedUnder key (Attempts.step q op).store := by
  obtain ⟨f, added, hrows, hf, -⟩ := (step_carried op hq).rows
  obtain ⟨a, ha, hkey, hended⟩ := h
  refine ⟨f a, StepCarried.mem hrows ha, (hf a ha).idempotencyKey.trans hkey, ?_⟩
  rw [(hf a ha).ended hended]
  exact hended

variable {dateParse numbers hash}

/-- Every change to the grants does to the queue what a refresh, or nothing, does. -/
theorem queue_refresh (s : GrantSystem) (now : ℤ) :
    (refreshInvestigationAuthorization numbers hash dateParse s now).queue = s.queue ∨
      (refreshInvestigationAuthorization numbers hash dateParse s now).queue =
        Attempts.step s.queue (.refresh (s.version numbers hash dateParse now)) := by
  rw [refreshInvestigationAuthorization]
  split
  · exact Or.inl rfl
  · exact Or.inr rfl

theorem queue_step (s : GrantSystem) (op : GrantOp) :
    (step numbers hash dateParse s op).queue = s.queue ∨
      ∃ op', (step numbers hash dateParse s op).queue = Attempts.step s.queue op' := by
  cases op with
  | work op hplanned => exact Or.inr ⟨op, rfl⟩
  | approve now approval =>
    rcases queue_refresh (s.approved approval) now with h | h
    · exact Or.inl h
    · exact Or.inr ⟨_, h⟩
  | revoke now grantId =>
    rw [step]
    split
    · rcases @queue_refresh c numbers hash dateParse _ now with h | h
      · exact Or.inl h
      · exact Or.inr ⟨_, h⟩
    · exact Or.inl rfl
  | session stopped => exact Or.inl rfl

theorem step_consistent (s : GrantSystem) (op : GrantOp) (h : Consistent s.queue.store) :
    Consistent (step numbers hash dateParse s op).queue.store := by
  rcases queue_step s op with hsame | ⟨op', hstep⟩
  · rw [hsame]
    exact h
  · rw [hstep]
    exact Attempts.step_consistent s.queue op' h

theorem step_endedUnder {key : String} (s : GrantSystem) (op : GrantOp) (hs : Consistent s.queue.store)
    (h : EndedUnder key s.queue.store) : EndedUnder key (step numbers hash dateParse s op).queue.store := by
  rcases queue_step s op with hsame | ⟨op', hstep⟩
  · rw [hsame]
    exact h
  · rw [hstep]
    exact endedUnder_work op' hs h

/-- An operation that has ended is never under way again: whatever is proposed under its key is merged into
    the action that ended. -/
theorem not_replannable {key : String} {s : GrantSystem} (hs : Consistent s.queue.store)
    (h : EndedUnder key s.queue.store) : ¬ Replannable numbers hash dateParse s key := by
  rintro ⟨ops, a, ha, hkey, hrunning, -⟩
  have hinvariant : Consistent (Runs.run (step numbers hash dateParse) s ops).queue.store ∧
      EndedUnder key (Runs.run (step numbers hash dateParse) s ops).queue.store :=
    Runs.run_invariant (I := fun s => Consistent s.queue.store ∧ EndedUnder key s.queue.store) (C := fun _ _ => True)
      (fun s op hI _ => ⟨step_consistent s op hI.1, step_endedUnder s op hI.1 hI.2⟩) ops s ⟨hs, h⟩
      (Runs.along_true _ _)
  obtain ⟨-, b, hb, hkey', hended⟩ := hinvariant
  have hab := IndexedTable.eq_of_alt _ ha hb (hkey.trans hkey'.symm)
  rw [← hab, hrunning] at hended
  cases hended

/-! ### What a refresh blocks -/

/-- One turn of the loop of a refresh. -/
def blockStale (version : String) (s : InvestigationStore) (a : InvestigationAction) :
    Except Thrown InvestigationStore :=
  if ActionExecutor.staleReady version a then
    s.blockReadyInvestigationAction a.actionId "AUTHORIZATION_VERSION_CHANGED"
  else return s

theorem blockStale_ok {version : String} {s : InvestigationStore} {b : InvestigationAction} (hb : b ∈ s.actions.rows) :
    ∃ s', blockStale version s b = .ok s' ∧
      (∀ a ∈ s.actions.rows, a.actionId ≠ b.actionId → a ∈ s'.actions.rows) ∧
      (ActionExecutor.staleReady version b = true →
        (blocked "AUTHORIZATION_VERSION_CHANGED").apply b ∈ s'.actions.rows) := by
  by_cases hstale : ActionExecutor.staleReady version b = true
  · have hready : b.status = .ready := by
      simp only [ActionExecutor.staleReady, Bool.and_eq_true, decide_eq_true_eq] at hstale
      exact hstale.1
    refine ⟨s.updateAction b.actionId (blocked "AUTHORIZATION_VERSION_CHANGED"), ?_,
      fun a ha hne => updateAction_other ha hne, fun _ => updateAction_self hb⟩
    rw [blockStale, if_pos hstale, blockReadyInvestigationAction]
    simp only [bind_ok, orThrow_ok, require_ok, pure_ok]
    exact ⟨b, Table.get?_of_mem hb, (), decide_eq_true hready, trivial⟩
  · exact ⟨s, by rw [blockStale, if_neg hstale]; rfl, fun a ha _ => ha, fun h => absurd h hstale⟩

/-- The loop finds every listed action as it was listed, and blocks the ones that wait under another version. -/
theorem refresh_loop (version : String) : ∀ (rest : List InvestigationAction) (s : InvestigationStore),
    (rest.map (·.actionId)).Nodup → (∀ a ∈ rest, a ∈ s.actions.rows) →
    ∀ a ∈ s.actions.rows,
      (a.actionId ∉ rest.map (·.actionId) →
        a ∈ (ActionExecutor.eachUntilThrow (blockStale version) s rest).actions.rows) ∧
      (a ∈ rest → ActionExecutor.staleReady version a = true → (blocked "AUTHORIZATION_VERSION_CHANGED").apply a ∈
        (ActionExecutor.eachUntilThrow (blockStale version) s rest).actions.rows)
  | [], s, _, _, a, ha => ⟨fun _ => ha, fun h => absurd h List.not_mem_nil⟩
  | b :: rest, s, hnodup, hrows, a, ha => by
    obtain ⟨hb, hrest⟩ := List.nodup_cons.1 hnodup
    obtain ⟨s', hok, hothers, hblocked⟩ := @blockStale_ok version s b (hrows b List.mem_cons_self)
    have hkept : ∀ x ∈ rest, x ∈ s'.actions.rows := fun x hx =>
      hothers x (hrows x (List.mem_cons_of_mem _ hx)) fun heq => hb (List.mem_map.2 ⟨x, hx, heq⟩)
    rw [ActionExecutor.eachUntilThrow, hok]
    dsimp only
    refine ⟨fun hnot => ?_, fun hmem hstale => ?_⟩
    · rw [List.map_cons, List.mem_cons, not_or] at hnot
      exact (refresh_loop version rest s' hrest hkept a (hothers a ha hnot.1)).1 hnot.2
    · rcases List.mem_cons.1 hmem with rfl | hmem
      · exact (refresh_loop version rest s' hrest hkept _ (hblocked hstale)).1 hb
      · exact (refresh_loop version rest s' hrest hkept a (hkept a hmem)).2 hmem hstale

/-- A refresh blocks every action that waits under another version. -/
theorem refresh_blocks {s : InvestigationStore} {version : String} {a : InvestigationAction} (ha : a ∈ s.actions.rows)
    (hready : a.status = .ready) (hversion : a.authorizationVersion ≠ version) :
    (blocked "AUTHORIZATION_VERSION_CHANGED").apply a ∈
      (ActionExecutor.refreshInvestigationAuthorization s version).actions.rows := by
  have hperm : s.listInvestigationActions.Perm s.actions.rows := List.perm_insertionSort _ _
  refine (refresh_loop version s.listInvestigationActions s ?_ (fun a ha => mem_listInvestigationActions.1 ha) a ha).2
    (mem_listInvestigationActions.2 ha) ?_
  · exact (hperm.map _).nodup_iff.2 s.actions.keyed
  · simp [ActionExecutor.staleReady, hready, hversion]

/-! ### The law -/

theorem rows_of_unchanged {s : GrantSystem} {now : ℤ} {approval : Approval}
    (h : s.stopped = true ∨
      (s.approved approval).version numbers hash dateParse now = s.queue.authorizationVersion) :
    (step numbers hash dateParse s (.approve now approval)).queue = s.queue := by
  rw [step, refreshInvestigationAuthorization]
  rcases h with hstopped | hversion
  · rw [if_pos (show (s.approved approval).stopped = true from hstopped)]
    rfl
  · split
    · rfl
    · dsimp only
      rw [hversion]
      exact if_pos rfl

/-- An approval loses work exactly when it gives the session another version while work is waiting. -/
theorem keepsWork_iff (s : GrantSystem) (op : GrantOp) (hs : Consistent s.queue.store) :
    KeepsWork numbers hash dateParse s op ↔ NothingWaiting numbers hash dateParse s op := by
  cases op with
  | approve now approval =>
    constructor
    · intro hkeeps
      by_contra hlost
      simp only [NothingWaiting, not_or, not_forall, not_not] at hlost
      obtain ⟨hrunning, hversion, a, ha, hready, hcurrent⟩ := hlost
      have hqueue : (step numbers hash dateParse s (.approve now approval)).queue.store =
          ActionExecutor.refreshInvestigationAuthorization s.queue.store
            ((s.approved approval).version numbers hash dateParse now) := by
        rw [step, refreshInvestigationAuthorization, if_neg (show ¬ (s.approved approval).stopped = true from hrunning)]
        dsimp only [Attempts.step]
        exact congrArg ActionSystem.store (if_neg hversion)
      have hblocked : (blocked "AUTHORIZATION_VERSION_CHANGED").apply a ∈
          (step numbers hash dateParse s (.approve now approval)).queue.store.actions.rows := by
        rw [hqueue]
        exact refresh_blocks ha hready fun heq => hversion (heq.symm.trans hcurrent)
      exact not_replannable (step_consistent s _ hs) ⟨_, hblocked, rfl, rfl⟩
        (hkeeps a ha hready hcurrent _ hblocked rfl rfl rfl)
    · rintro hnothing a ha hready hcurrent a' ha' hid hblocked -
      rcases or_assoc.2 hnothing with hsame | hnone
      · rw [rows_of_unchanged hsame] at ha'
        rw [s.queue.store.actions.eq_of_key ha' ha hid, hready] at hblocked
        cases hblocked
      · exact absurd hcurrent (hnone a ha hready)
  | _ => exact Iff.rfl

variable (numbers hash dateParse)

/-- No approval of a run loses work exactly when none changes the version while work is waiting under it. -/
theorem no_lost_work_iff (taskId targetFingerprint : String) (grants : List ExpiringGrant) (now : ℤ)
    (ops : List GrantOp) :
    NoLostWork numbers hash dateParse (opened numbers hash dateParse taskId targetFingerprint grants now) ops ↔
      Runs.Along (step numbers hash dateParse) (NothingWaiting numbers hash dateParse)
        (opened numbers hash dateParse taskId targetFingerprint grants now) ops := by
  have hstart : Consistent (opened numbers hash dateParse taskId targetFingerprint grants now).queue.store :=
    consistent_empty
  have hiff : Runs.Along (step numbers hash dateParse) (KeepsWork numbers hash dateParse) _ ops ↔ _ :=
    Runs.along_congr (J := fun s : GrantSystem => Consistent s.queue.store) step_consistent keepsWork_iff ops _ hstart
  exact ⟨fun h => hiff.1 h.kept, fun h => ⟨fun clock clock' targetFingerprint grants grants' =>
    followsGrants numbers hash clock clock' targetFingerprint grants grants', hiff.2 h⟩⟩

/-! ### One action waiting, one grant approved -/

/-- A hash that gives the text itself. -/
def textHash : OrderedHash Js.codeUnitCollation where
  sha256 := String.ofList
  injective _ _ := String.ofList_injective
  apart _ _ h := Js.codeUnits_injective (Js.cmp_eq_eq.1 h)

def waiting (authorizationVersion : String) : InvestigationAction := { staleProposal with authorizationVersion }

def readRequest : Approval := ⟨"GRANT-1", .sensitiveRead, [("resourceRef", .str "RES-1")], 0⟩

theorem lost_on_approval : ¬ NoLostWork StableJson.tallyNumbers textHash (fun _ => none)
    (opened StableJson.tallyNumbers textHash (fun _ => none) "TASK-1" "SHA256:host" [] 0)
    [.work (.put (waiting (computeAuthorizationVersion StableJson.tallyNumbers textHash ⟨fun _ => none, 0⟩
      "SHA256:host" [])) rfl) rfl, .approve 0 readRequest] := by
  intro h
  rcases (keepsWork_iff _ _ (step_consistent _ _ consistent_empty)).1 h.kept.2.1 with hstopped | hversion | hnone
  · cases hstopped
  · have hlength := (version_eq_iff.1 hversion).length_eq
    exact absurd hlength (by decide)
  · exact hnone _ (List.mem_singleton_self _) rfl rfl

end HuntWarden.GrantChanges
