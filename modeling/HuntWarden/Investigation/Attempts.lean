import HuntWarden.Investigation.ActionExecutor

/-! The action queue and the attempts at its actions, over all orders in which proposals, claims, ends,
    blocks, refreshes of the authorization and recoveries can come. The store compares the version of an
    action with the one its worker names, and a worker names the version it was started with. -/

namespace HuntWarden.Attempts

open Outcome InvestigationStore

/-! ### The machine -/

/-- The queue of an epoch, and the authorization version of its session. -/
structure ActionSystem where
  store : InvestigationStore
  authorizationVersion : String

inductive ActionOp where
  | note (obligation : InvestigationObligation)
  /-- `putInvestigationAction`, as the planners call it. -/
  | put (action : InvestigationAction) (ready : action.status = .ready)
  | claim (attemptId authorizationVersion : String) (eligibleActionIds : Option (List String))
  | finish (actionId : String) (expectedRevision : ℕ) (status : { status : ActionStatus // status.isLive = false })
      (resultRefs : List String) (error : Option String)
  | block (actionId reason : String)
  | refresh (authorizationVersion : String)
  | recover

/-- A transaction that throws leaves the store as it was. -/
def ActionSystem.write (s : ActionSystem) (result : Except Thrown InvestigationStore) : ActionSystem :=
  { s with store := transact s.store result }

def step (s : ActionSystem) : ActionOp → ActionSystem
  | .note obligation => s.write ((s.store.putInvestigationObligation obligation).map (·.1))
  | .put action _ => { s with store := ActionExecutor.putProposal s.store action }
  | .claim attemptId version eligible =>
    s.write ((s.store.claimNextInvestigationAction attemptId version eligible).map (·.1))
  | .finish actionId revision status refs error =>
    s.write (s.store.finishInvestigationAction actionId revision status refs error)
  | .block actionId reason => s.write (s.store.blockReadyInvestigationAction actionId reason)
  | .refresh version =>
    if version = s.authorizationVersion then s
    else ⟨ActionExecutor.refreshInvestigationAuthorization s.store version, version⟩
  | .recover => { s with store := s.store.recoverInterruptedInvestigationActions }

/-! ### What is to hold -/

abbrev AttemptTable := Table InvestigationActionAttempt.attemptId

def attemptsOf (attempts : AttemptTable) (actionId : String) : List InvestigationActionAttempt :=
  attempts.rows.filter fun t => t.actionId = actionId

def runningAttempts (attempts : AttemptTable) (actionId : String) : List InvestigationActionAttempt :=
  attempts.rows.filter fun t => t.actionId = actionId ∧ t.status = .running

/-- What holds of the queue and its attempts in every state. -/
structure Consistent (s : InvestigationStore) : Prop where
  running : ∀ a ∈ s.actions.rows, a.status = .running ↔ (runningAttempts s.attempts a.actionId).length = 1
  idle : ∀ a ∈ s.actions.rows, a.status ≠ .running → runningAttempts s.attempts a.actionId = []
  numbered : ∀ a ∈ s.actions.rows, (attemptsOf s.attempts a.actionId).map (·.attempt) =
    List.range' 1 (attemptsOf s.attempts a.actionId).length
  owned : ∀ t ∈ s.attempts.rows, ∃ a ∈ s.actions.rows, a.actionId = t.actionId
  capacity : (s.actions.rows.filter fun a => a.status.isLive).length ≤ maxActiveInvestigationActions
  unique : (s.actions.rows.map (·.idempotencyKey)).Nodup

/-- What an operation may do to an action. -/
structure Moved (s : ActionSystem) (op : ActionOp) (a a' : InvestigationAction) : Prop where
  actionId : a'.actionId = a.actionId
  revision : a'.status ≠ a.status → a.revision < a'.revision
  ended : a.status.isLive = false → a'.status = a.status
  requeued : a.status = .running → a'.status = .ready → op = .recover ∧ a.replayPolicy = .safeReobserve
  claimed : a.status ≠ .running → a'.status = .running → a.status = .ready ∧
    (∀ id ∈ a.dependsOn, ∃ d ∈ s.store.actions.rows, d.actionId = id ∧
      (d.status = .succeeded ∨ d.status = .partialResult)) ∧
    a.authorizationVersion = s.authorizationVersion

/-- Every action is moved as it may be, and a new one is queued or refused. -/
structure StepSound (s : ActionSystem) (op : ActionOp) : Prop where
  kept : ∀ a ∈ s.store.actions.rows, ∃ a' ∈ (step s op).store.actions.rows, Moved s op a a'
  added : ∀ a' ∈ (step s op).store.actions.rows,
    (∃ a ∈ s.store.actions.rows, a.actionId = a'.actionId) ∨ a'.status = .ready ∨ a'.status = .blocked

/-- A claim that takes an action names the version of the session. -/
def ClaimsCurrent (s : ActionSystem) : ActionOp → Prop
  | .claim attemptId version eligible =>
    (∀ t ∈ s.store.attempts.rows, t.attemptId ≠ attemptId) →
      (∃ a ∈ s.store.actions.rows, s.store.claimable version eligible a = true) →
      version = s.authorizationVersion
  | _ => True

/-! ### Rows rewritten one by one -/

/-- An operation that keeps the attempts and rewrites the actions, each as `R` allows. -/
def Rewrites (R : InvestigationAction → InvestigationAction → Prop) (s s' : InvestigationStore) : Prop :=
  s'.attempts = s.attempts ∧
    ∃ f : InvestigationAction → InvestigationAction, s'.actions.rows = s.actions.rows.map f ∧
      ∀ a ∈ s.actions.rows, R a (f a)

/-- A READY action that is blocked, and any other one as it is. -/
def Blocks (a a' : InvestigationAction) : Prop :=
  a' = a ∨ (a.status = .ready ∧ ∃ reason, a' = (blocked reason).apply a)

theorem Blocks.trans {a b c : InvestigationAction} (h : Blocks a b) (h' : Blocks b c) : Blocks a c := by
  rcases h with rfl | ⟨hready, reason, rfl⟩
  · exact h'
  · rcases h' with rfl | ⟨hblocked, -⟩
    · exact Or.inr ⟨hready, reason, rfl⟩
    · cases hblocked

theorem Rewrites.refl {R : InvestigationAction → InvestigationAction → Prop} (hR : ∀ a, R a a)
    (s : InvestigationStore) : Rewrites R s s :=
  ⟨rfl, id, (List.map_id _).symm, fun a _ => hR a⟩

theorem Rewrites.trans {R : InvestigationAction → InvestigationAction → Prop}
    (hR : ∀ a b c, R a b → R b c → R a c) {s s' s'' : InvestigationStore} (h : Rewrites R s s')
    (h' : Rewrites R s' s'') : Rewrites R s s'' := by
  obtain ⟨hattempts, f, hf, hRf⟩ := h
  obtain ⟨hattempts', g, hg, hRg⟩ := h'
  refine ⟨hattempts'.trans hattempts, g ∘ f, by rw [hg, hf, List.map_map], fun a ha => ?_⟩
  exact hR _ _ _ (hRf a ha) (hRg (f a) (by rw [hf]; exact List.mem_map_of_mem ha))

theorem rewrites_block {s s' : InvestigationStore} {actionId reason : String}
    (h : s.blockReadyInvestigationAction actionId reason = .ok s') : Rewrites Blocks s s' := by
  obtain ⟨b, hb, hid, hready, rfl⟩ := blockReadyInvestigationAction_ok h
  refine ⟨rfl, _, rfl, fun a ha => ?_⟩
  dsimp only
  split
  · next hsame =>
    have hab := s.actions.eq_of_key ha hb ((of_decide_eq_true hsame).trans hid.symm)
    exact Or.inr ⟨hab ▸ hready, reason, rfl⟩
  · exact Or.inl rfl

theorem rewrites_refresh (s : InvestigationStore) (version : String) :
    Rewrites Blocks s (ActionExecutor.refreshInvestigationAuthorization s version) := by
  have hloop : ∀ (rest : List InvestigationAction) (s : InvestigationStore), Rewrites Blocks s
      (ActionExecutor.eachUntilThrow (fun s a => if ActionExecutor.staleReady version a then
        s.blockReadyInvestigationAction a.actionId "AUTHORIZATION_VERSION_CHANGED" else return s) s rest) := by
    intro rest
    induction rest with
    | nil => exact fun s => Rewrites.refl (fun a => Or.inl rfl) s
    | cons a rest ih =>
      intro s
      rw [ActionExecutor.eachUntilThrow]
      split
      · next s' hs' =>
        split at hs'
        · exact Rewrites.trans (R := Blocks) (fun _ _ _ => Blocks.trans) (rewrites_block hs') (ih s')
        · rw [← pure_ok.1 hs']
          exact ih s
      · exact Rewrites.refl (fun a => Or.inl rfl) s
  exact hloop _ s

/-! ### Operations that start and end no attempt -/

/-- An action that an operation leaves in its place in the queue, or takes out of it before it was claimed. -/
structure Quiet (a a' : InvestigationAction) : Prop where
  actionId : a'.actionId = a.actionId
  idempotencyKey : a'.idempotencyKey = a.idempotencyKey
  status : a'.status = a.status ∨ (a.status = .ready ∧ a'.status = .blocked ∧ a.revision < a'.revision)

theorem Quiet.running {a a' : InvestigationAction} (h : Quiet a a') :
    a'.status = .running ↔ a.status = .running := by
  rcases h.status with hsame | ⟨hready, hblocked, -⟩
  · rw [hsame]
  · rw [hready, hblocked]
    exact ⟨fun h => (nomatch h), fun h => (nomatch h)⟩

theorem Quiet.live {a a' : InvestigationAction} (h : Quiet a a') (hlive : a'.status.isLive = true) :
    a.status.isLive = true := by
  rcases h.status with hsame | ⟨hready, hblocked, -⟩
  · exact hsame ▸ hlive
  · rw [hready]
    rfl

theorem Quiet.moved {s : ActionSystem} {op : ActionOp} {a a' : InvestigationAction} (h : Quiet a a') :
    Moved s op a a' := by
  refine ⟨h.actionId, fun hne => ?_, fun hended => ?_, fun hrunning hready => ?_, fun hnot hrunning => ?_⟩
  · rcases h.status with hsame | ⟨-, -, hrevision⟩
    · exact absurd hsame hne
    · exact hrevision
  · rcases h.status with hsame | ⟨hready, -, -⟩
    · exact hsame
    · rw [hready] at hended
      cases hended
  · rw [h.running.2 hrunning] at hready
    cases hready
  · exact absurd (h.running.1 hrunning) hnot

theorem Blocks.quiet {a a' : InvestigationAction} (h : Blocks a a') : Quiet a a' := by
  rcases h with rfl | ⟨hready, reason, rfl⟩
  · exact ⟨rfl, rfl, Or.inl rfl⟩
  · exact ⟨rfl, rfl, Or.inr ⟨hready, rfl, Nat.lt_succ_self _⟩⟩

theorem length_live_map {rows : List InvestigationAction} {f : InvestigationAction → InvestigationAction}
    (h : ∀ a ∈ rows, (f a).status.isLive = true → a.status.isLive = true) :
    ((rows.map f).filter fun a => a.status.isLive).length ≤ (rows.filter fun a => a.status.isLive).length := by
  rw [← List.countP_eq_length_filter, ← List.countP_eq_length_filter, List.countP_map]
  exact List.countP_mono_left h

theorem Consistent.rewrites {s s' : InvestigationStore} (h : Consistent s) (hr : Rewrites Quiet s s') :
    Consistent s' := by
  obtain ⟨hattempts, f, hf, hquiet⟩ := hr
  have hmem : ∀ a' ∈ s'.actions.rows, ∃ a ∈ s.actions.rows, Quiet a a' := by
    intro a' ha'
    rw [hf] at ha'
    obtain ⟨a, ha, rfl⟩ := List.mem_map.1 ha'
    exact ⟨a, ha, hquiet a ha⟩
  refine ⟨fun a' ha' => ?_, fun a' ha' hnot => ?_, fun a' ha' => ?_, fun t ht => ?_, ?_, s'.actions.distinct⟩
  · obtain ⟨a, ha, hq⟩ := hmem a' ha'
    rw [hq.running, hq.actionId, hattempts]
    exact h.running a ha
  · obtain ⟨a, ha, hq⟩ := hmem a' ha'
    rw [hq.actionId, hattempts]
    exact h.idle a ha fun heq => hnot (hq.running.2 heq)
  · obtain ⟨a, ha, hq⟩ := hmem a' ha'
    rw [hq.actionId, hattempts]
    exact h.numbered a ha
  · obtain ⟨a, ha, hid⟩ := h.owned t (hattempts ▸ ht)
    refine ⟨f a, by rw [hf]; exact List.mem_map_of_mem ha, (hquiet a ha).actionId.trans hid⟩
  · rw [hf]
    exact (length_live_map fun a ha => (hquiet a ha).live).trans h.capacity

theorem rewrites_quiet {s s' : InvestigationStore} (h : Rewrites Blocks s s') : Rewrites Quiet s s' := by
  obtain ⟨hattempts, f, hf, hblocks⟩ := h
  exact ⟨hattempts, f, hf, fun a ha => (hblocks a ha).quiet⟩

/-- What an operation makes of the actions that were there, and the ones it adds. -/
theorem sound_of_rows {s : ActionSystem} {op : ActionOp} {f : InvestigationAction → InvestigationAction}
    (added : List InvestigationAction)
    (hrows : (step s op).store.actions.rows = s.store.actions.rows.map f ++ added)
    (hmoved : ∀ a ∈ s.store.actions.rows, Moved s op a (f a))
    (hadded : ∀ a ∈ added, a.status = .ready ∨ a.status = .blocked) : StepSound s op := by
  refine ⟨fun a ha => ⟨f a, ?_, hmoved a ha⟩, fun a' ha' => ?_⟩
  · rw [hrows]
    exact List.mem_append_left _ (List.mem_map_of_mem ha)
  · rw [hrows] at ha'
    rcases List.mem_append.1 ha' with hold | hnew
    · obtain ⟨a, ha, rfl⟩ := List.mem_map.1 hold
      exact Or.inl ⟨a, ha, (hmoved a ha).actionId.symm⟩
    · exact Or.inr (hadded a' hnew)

theorem sound_of_quiet {s : ActionSystem} {op : ActionOp} (h : Rewrites Quiet s.store (step s op).store) :
    StepSound s op := by
  obtain ⟨-, f, hf, hquiet⟩ := h
  exact sound_of_rows [] (by rw [hf, List.append_nil]) (fun a ha => (hquiet a ha).moved)
    fun _ ha => absurd ha List.not_mem_nil

theorem quiet_refl (a : InvestigationAction) : Quiet a a := ⟨rfl, rfl, Or.inl rfl⟩

theorem rewrites_note (s : InvestigationStore) (obligation : InvestigationObligation) :
    Rewrites Quiet s (transact s ((s.putInvestigationObligation obligation).map (·.1))) := by
  cases hput : s.putInvestigationObligation obligation with
  | error e => exact Rewrites.refl quiet_refl s
  | ok result =>
    obtain ⟨s', stored⟩ := result
    obtain ⟨-, hactions, -⟩ := putInvestigationObligation_ok hput
    refine ⟨?_, id, by rw [List.map_id]; exact congrArg (·.rows) hactions, fun a _ => quiet_refl a⟩
    simp only [putInvestigationObligation, bind_ok, orThrow_ok, pure_ok] at hput
    obtain ⟨found, -, hput⟩ := hput
    rw [← (Prod.mk.inj hput).1]
    rfl

/-! ### Proposals -/

theorem attempts_mergeAction (s : InvestigationStore) (stored value : InvestigationAction) :
    (s.mergeAction stored value).1.attempts = s.attempts := by
  rw [mergeAction]
  dsimp only
  split
  · rfl
  · split <;> rfl

/-- A proposal is queued where there is room, refused where there is none, or merged. -/
theorem put_spec {s s' : InvestigationStore} {value stored : InvestigationAction}
    (hready : value.status = .ready) (h : s.putInvestigationAction value = .ok (s', stored)) :
    s'.attempts = s.attempts ∧
    ((s'.actions.rows = s.actions.rows ++ [value] ∧ s.capacityExceeded value = false) ∨
      s'.actions.rows = s.actions.rows ++ [capacityBlocked value] ∨ Rewrites Quiet s s') := by
  have hcases := (putInvestigationAction_cases h).2
  simp only [putInvestigationAction, bind_ok, require_ok] at h
  obtain ⟨_, _, _, _, _, -, h⟩ := h
  have hmerge : ∀ old ∈ s.actions.rows, s' = (s.mergeAction old value).1 → Rewrites Quiet s s' := by
    rintro old hold rfl
    refine ⟨attempts_mergeAction s old value, ?_⟩
    rw [mergeAction]
    dsimp only
    have hquiet : ∀ a : InvestigationAction, Quiet a (if a.actionId = old.actionId then
        (mergeInto value).apply a else a) := by
      intro a
      split
      · exact ⟨rfl, rfl, Or.inl rfl⟩
      · exact quiet_refl a
    have hrows : (s.updateAction old.actionId (mergeInto value)).actions.rows = s.actions.rows.map
        fun a => if a.actionId = old.actionId then (mergeInto value).apply a else a := by
      simp only [updateAction, IndexedTable.modify, decide_eq_true_eq]
    split
    · exact ⟨id, (List.map_id _).symm, fun a _ => quiet_refl a⟩
    · split
      · exact ⟨_, hrows, fun a _ => hquiet a⟩
      · exact ⟨_, hrows, fun a _ => hquiet a⟩
  split at h
  · rw [pure_ok] at h
    obtain ⟨rfl, -⟩ := Prod.mk.inj h
    refine ⟨attempts_mergeAction s _ value, Or.inr (Or.inr ?_)⟩
    next old hold => exact hmerge old (List.mem_of_find?_eq_some hold) rfl
  · simp only [insertAction, bind_ok, orThrow_ok] at h
    obtain ⟨found, -, h⟩ := h
    by_cases hcap : s.capacityExceeded value = true
    · rw [if_pos hcap, pure_ok] at h
      obtain ⟨rfl, -⟩ := Prod.mk.inj h
      refine ⟨rfl, ?_⟩
      rcases hcases with ⟨hrows, -⟩ | ⟨hrows, -⟩ | ⟨old, hold, -, hs'⟩
      · rw [if_pos hcap] at hrows
        have hrows : (s.actions.insertOrIgnore (capacityBlocked value)).rows = s.actions.rows ++ [value] :=
          hrows
        by_cases hfresh : ∀ x ∈ s.actions.rows, x.actionId ≠ (capacityBlocked value).actionId ∧
            x.idempotencyKey ≠ (capacityBlocked value).idempotencyKey
        · rw [IndexedTable.insertOrIgnore_fresh hfresh] at hrows
          have hsame := (List.cons.inj (List.append_cancel_left hrows)).1
          rw [← hsame] at hready
          cases hready
        · rw [IndexedTable.insertOrIgnore_taken hfresh] at hrows
          have hlength := congrArg List.length hrows
          rw [List.length_append, List.length_singleton] at hlength
          omega
      · exact Or.inr (Or.inl hrows)
      · exact Or.inr (Or.inr (hmerge old hold hs'))
    · rw [if_neg hcap, pure_ok] at h
      obtain ⟨rfl, -⟩ := Prod.mk.inj h
      refine ⟨rfl, ?_⟩
      rcases hcases with ⟨hrows, -⟩ | ⟨hrows, -⟩ | ⟨old, hold, -, hs'⟩
      · exact Or.inl ⟨hrows, Bool.eq_false_iff.2 hcap⟩
      · exact Or.inr (Or.inl hrows)
      · exact Or.inr (Or.inr (hmerge old hold hs'))

/-- A new action has no attempts yet. -/
theorem Consistent.append {s s' : InvestigationStore} (h : Consistent s) {value : InvestigationAction}
    (hattempts : s'.attempts = s.attempts) (hrows : s'.actions.rows = s.actions.rows ++ [value])
    (hstatus : value.status ≠ .running)
    (hroom : value.status.isLive = true →
      (s.actions.rows.filter fun a => a.status.isLive).length < maxActiveInvestigationActions) :
    Consistent s' := by
  have hfresh : ∀ a ∈ s.actions.rows, a.actionId ≠ value.actionId := by
    have hkeyed := s'.actions.keyed
    rw [hrows, List.map_append, List.map_singleton, List.nodup_append] at hkeyed
    exact fun a ha heq => hkeyed.2.2 _ (List.mem_map_of_mem ha) _ (List.mem_singleton_self _) heq
  have hnone : ∀ t ∈ s.attempts.rows, t.actionId ≠ value.actionId := by
    intro t ht heq
    obtain ⟨a, ha, hid⟩ := h.owned t ht
    exact hfresh a ha (hid.trans heq)
  have hrunning : runningAttempts s.attempts value.actionId = [] :=
    List.filter_eq_nil_iff.2 fun t ht hp => hnone t ht (of_decide_eq_true hp).1
  have hattemptsOf : attemptsOf s.attempts value.actionId = [] :=
    List.filter_eq_nil_iff.2 fun t ht hp => hnone t ht (of_decide_eq_true hp)
  have hmem : ∀ a ∈ s'.actions.rows, a ∈ s.actions.rows ∨ a = value := by
    intro a ha
    rw [hrows] at ha
    exact (List.mem_append.1 ha).imp_right List.mem_singleton.1
  refine ⟨fun a ha => ?_, fun a ha hnot => ?_, fun a ha => ?_, fun t ht => ?_, ?_, s'.actions.distinct⟩
  · rw [hattempts]
    rcases hmem a ha with hold | rfl
    · exact h.running a hold
    · rw [hrunning]
      exact ⟨fun hr => absurd hr hstatus, fun hlength => by cases hlength⟩
  · rw [hattempts]
    rcases hmem a ha with hold | rfl
    · exact h.idle a hold hnot
    · exact hrunning
  · rw [hattempts]
    rcases hmem a ha with hold | rfl
    · exact h.numbered a hold
    · rw [hattemptsOf]
      rfl
  · obtain ⟨a, ha, hid⟩ := h.owned t (hattempts ▸ ht)
    exact ⟨a, by rw [hrows]; exact List.mem_append_left _ ha, hid⟩
  · rw [hrows, List.filter_append, List.length_append]
    cases hlive : value.status.isLive with
    | true =>
      have hone : [value].filter (fun a => a.status.isLive) = [value] := by simp [hlive]
      rw [hone, List.length_singleton]
      exact hroom hlive
    | false =>
      have hnil : [value].filter (fun a => a.status.isLive) = [] := by simp [hlive]
      rw [hnil, List.length_nil, Nat.add_zero]
      exact h.capacity

theorem put_sound {s : ActionSystem} (h : Consistent s.store) {action : InvestigationAction}
    (hready : action.status = .ready) :
    Consistent (step s (.put action hready)).store ∧ StepSound s (.put action hready) := by
  have hstep : (step s (.put action hready)).store = ActionExecutor.putProposal s.store action := rfl
  cases hput : s.store.putInvestigationAction action with
  | error e =>
    have hsame : (step s (.put action hready)).store = s.store := by
      rw [hstep, ActionExecutor.putProposal, hput]
    have hquiet : Rewrites Quiet s.store (step s (.put action hready)).store := by
      rw [hsame]
      exact Rewrites.refl quiet_refl _
    exact ⟨h.rewrites hquiet, sound_of_quiet hquiet⟩
  | ok result =>
    obtain ⟨s', stored⟩ := result
    have hnext : (step s (.put action hready)).store = s' := by
      rw [hstep, ActionExecutor.putProposal, hput]
    obtain ⟨hattempts, ⟨hrows, hcap⟩ | hrows | hquiet⟩ := put_spec hready hput
    · refine ⟨hnext ▸ h.append hattempts hrows (by rw [hready]; decide) fun _ => ?_, ?_⟩
      · rw [capacityExceeded, hready] at hcap
        simpa using hcap
      · exact sound_of_rows (f := id) [action] (by rw [hnext, hrows, List.map_id]) (fun a _ => (quiet_refl a).moved)
          fun a ha => Or.inl (by rw [List.mem_singleton.1 ha, hready])
    · refine ⟨hnext ▸ h.append hattempts hrows (fun hr => (nomatch hr)) fun hlive => (nomatch hlive), ?_⟩
      exact sound_of_rows (f := id) [capacityBlocked action] (by rw [hnext, hrows, List.map_id])
        (fun a _ => (quiet_refl a).moved) fun a ha => Or.inr (by rw [List.mem_singleton.1 ha]; rfl)
    · rw [← hnext] at hquiet
      exact ⟨h.rewrites hquiet, sound_of_quiet hquiet⟩

/-! ### Attempts that end -/

theorem mem_runningAttempts {attempts : AttemptTable} {actionId : String} {t : InvestigationActionAttempt} :
    t ∈ runningAttempts attempts actionId ↔ t ∈ attempts.rows ∧ t.actionId = actionId ∧ t.status = .running := by
  rw [runningAttempts, List.mem_filter, decide_eq_true_eq]

theorem runningAttempt_some {attempts : AttemptTable} {actionId : String} {t : InvestigationActionAttempt}
    (h : runningAttempt attempts actionId = some t) : t ∈ runningAttempts attempts actionId :=
  (List.perm_insertionSort _ _).mem_iff.1 (List.mem_of_mem_head? h)

theorem runningAttempt_none {attempts : AttemptTable} {actionId : String}
    (h : runningAttempt attempts actionId = none) : runningAttempts attempts actionId = [] := by
  have hsorted := List.head?_eq_none_iff.1 h
  have hperm := List.perm_insertionSort (fun a b : InvestigationActionAttempt => b.attempt ≤ a.attempt)
    (runningAttempts attempts actionId)
  exact (hsorted ▸ hperm).symm.eq_nil

/-- The one attempt that was under way at an action is no longer so; nothing else has changed. -/
structure Ended (attempts attempts' : AttemptTable) (actionId : String) : Prop where
  owners : attempts'.rows.map (·.actionId) = attempts.rows.map (·.actionId)
  numbers : ∀ id, (attemptsOf attempts' id).map (·.attempt) = (attemptsOf attempts id).map (·.attempt)
  running : runningAttempts attempts' actionId = []
  others : ∀ id, id ≠ actionId → runningAttempts attempts' id = runningAttempts attempts id

theorem ended_set {attempts : AttemptTable} {t : InvestigationActionAttempt} {actionId : String}
    {status : ActionStatus} (hone : runningAttempts attempts actionId = [t]) (hstatus : status ≠ .running) :
    Ended attempts (attempts.set { t with status }) actionId := by
  obtain ⟨hrow, hid, hrunning⟩ := mem_runningAttempts.1 (hone ▸ List.mem_singleton_self t)
  have hset : (attempts.set { t with status }).rows = attempts.rows.map fun x =>
      if x.attemptId = t.attemptId then { t with status } else x := rfl
  have hsame : ∀ x ∈ attempts.rows, x.attemptId = t.attemptId → x = t := fun x hx => attempts.eq_of_key hx hrow
  have hmap : ∀ {β : Type} (g : InvestigationActionAttempt → β), g { t with status } = g t →
      ∀ x ∈ attempts.rows, g (if x.attemptId = t.attemptId then { t with status } else x) = g x := by
    intro β g hg x hx
    split
    · next heq => rw [hg, hsame x hx heq]
    · rfl
  refine ⟨?_, fun id => ?_, ?_, fun id hne => ?_⟩
  · rw [hset, List.map_map]
    exact List.map_congr_left fun x hx => hmap _ rfl x hx
  · rw [attemptsOf, attemptsOf, hset, List.filter_map, List.map_map]
    have hfilter : attempts.rows.filter ((fun x : InvestigationActionAttempt => decide (x.actionId = id)) ∘
        fun x => if x.attemptId = t.attemptId then { t with status } else x) =
        attempts.rows.filter fun x => x.actionId = id :=
      List.filter_congr fun x hx => hmap (fun x => decide (x.actionId = id)) rfl x hx
    rw [hfilter]
    exact List.map_congr_left fun x hx => hmap _ rfl x (List.mem_filter.1 hx).1
  · refine List.filter_eq_nil_iff.2 fun x hx hp => ?_
    rw [hset] at hx
    obtain ⟨y, hy, rfl⟩ := List.mem_map.1 hx
    have hp := of_decide_eq_true hp
    by_cases heq : y.attemptId = t.attemptId
    · rw [if_pos heq] at hp
      exact hstatus hp.2
    · rw [if_neg heq] at hp
      have hmem : y ∈ runningAttempts attempts actionId := mem_runningAttempts.2 ⟨hy, hp⟩
      rw [hone] at hmem
      exact heq (congrArg _ (List.mem_singleton.1 hmem))
  · have hbad : ∀ x ∈ attempts.rows, x.attemptId = t.attemptId → x.actionId ≠ id := by
      intro x hx heq hxid
      rw [hsame x hx heq] at hxid
      exact hne (hxid.symm.trans hid)
    rw [runningAttempts, runningAttempts, hset, List.filter_map]
    have hfilter : attempts.rows.filter ((fun x : InvestigationActionAttempt =>
        decide (x.actionId = id ∧ x.status = .running)) ∘
        fun x => if x.attemptId = t.attemptId then { t with status } else x) =
        attempts.rows.filter fun x => x.actionId = id ∧ x.status = .running := by
      refine List.filter_congr fun x hx => decide_eq_decide.2 ?_
      by_cases heq : x.attemptId = t.attemptId
      · simp only [if_pos heq]
        exact ⟨fun h => absurd (hid.symm.trans h.1) (Ne.symm hne), fun h => absurd h.1 (hbad x hx heq)⟩
      · simp only [if_neg heq]
    rw [hfilter, List.map_congr_left (g := fun x => x), List.map_id']
    intro x hx
    obtain ⟨hx, hp⟩ := List.mem_filter.1 hx
    exact if_neg fun heq => hbad x hx heq (of_decide_eq_true hp).1

/-- Actions that were under way and are so no longer, their attempts having ended with them. -/
theorem Consistent.closed {s s' : InvestigationStore} (h : Consistent s)
    {f : InvestigationAction → InvestigationAction} (hrows : s'.actions.rows = s.actions.rows.map f)
    (howners : s'.attempts.rows.map (·.actionId) = s.attempts.rows.map (·.actionId))
    (hnumbers : ∀ id, (attemptsOf s'.attempts id).map (·.attempt) = (attemptsOf s.attempts id).map (·.attempt))
    (hclosed : ∀ a ∈ s.actions.rows, (f a).actionId = a.actionId ∧
      ((f a = a ∧ runningAttempts s'.attempts a.actionId = runningAttempts s.attempts a.actionId) ∨
        (a.status = .running ∧ (f a).status ≠ .running ∧ runningAttempts s'.attempts a.actionId = []))) :
    Consistent s' := by
  have hmem : ∀ a' ∈ s'.actions.rows, ∃ a ∈ s.actions.rows, a' = f a := by
    intro a' ha'
    rw [hrows] at ha'
    obtain ⟨a, ha, rfl⟩ := List.mem_map.1 ha'
    exact ⟨a, ha, rfl⟩
  refine ⟨fun a' ha' => ?_, fun a' ha' hnot => ?_, fun a' ha' => ?_, fun t ht => ?_, ?_, s'.actions.distinct⟩
  · obtain ⟨a, ha, rfl⟩ := hmem a' ha'
    obtain ⟨hid, ⟨hsame, hattempts⟩ | ⟨-, hstopped, hnone⟩⟩ := hclosed a ha
    · rw [hsame, hattempts]
      exact h.running a ha
    · rw [hid, hnone]
      exact ⟨fun hr => absurd hr hstopped, fun hlength => by cases hlength⟩
  · obtain ⟨a, ha, rfl⟩ := hmem a' ha'
    obtain ⟨hid, ⟨hsame, hattempts⟩ | ⟨-, -, hnone⟩⟩ := hclosed a ha
    · rw [hsame] at hnot
      rw [hsame, hattempts]
      exact h.idle a ha hnot
    · rw [hid, hnone]
  · obtain ⟨a, ha, rfl⟩ := hmem a' ha'
    have hlength : (attemptsOf s'.attempts a.actionId).length = (attemptsOf s.attempts a.actionId).length := by
      simpa only [List.length_map] using congrArg List.length (hnumbers a.actionId)
    rw [(hclosed a ha).1, hnumbers, hlength]
    exact h.numbered a ha
  · have howner : t.actionId ∈ s.attempts.rows.map (·.actionId) := howners ▸ List.mem_map_of_mem ht
    obtain ⟨t₀, ht₀, hsame⟩ := List.mem_map.1 howner
    obtain ⟨a, ha, hid⟩ := h.owned t₀ ht₀
    refine ⟨f a, by rw [hrows]; exact List.mem_map_of_mem ha, ?_⟩
    rw [(hclosed a ha).1, hid]
    exact hsame
  · rw [hrows]
    refine (length_live_map fun a ha hlive => ?_).trans h.capacity
    obtain ⟨-, ⟨hsame, -⟩ | ⟨hrunning, -⟩⟩ := hclosed a ha
    · rwa [hsame] at hlive
    · rw [hrunning]
      rfl

theorem Consistent.one {s : InvestigationStore} (h : Consistent s) {a : InvestigationAction}
    (ha : a ∈ s.actions.rows) (hrunning : a.status = .running) :
    ∃ t, runningAttempts s.attempts a.actionId = [t] :=
  List.length_eq_one_iff.1 ((h.running a ha).1 hrunning)

/-! ### Claims, ends and recoveries -/

theorem rows_updateAction {s : InvestigationStore} {actionId : String} {f : ActionRewrite} :
    (s.updateAction actionId f).actions.rows =
      s.actions.rows.map fun a => if a.actionId = actionId then f.apply a else a := by
  simp only [updateAction, IndexedTable.modify, decide_eq_true_eq]

theorem claimable_iff {s : InvestigationStore} {version : String} {eligible : Option (List String)}
    {a : InvestigationAction} (h : s.claimable version eligible a = true) :
    a.status = .ready ∧ a.authorizationVersion = version ∧
      ∀ id ∈ a.dependsOn, ∃ d ∈ s.actions.rows, d.actionId = id ∧
        (d.status = .succeeded ∨ d.status = .partialResult) := by
  simp only [claimable, Bool.and_eq_true, decide_eq_true_eq, List.all_eq_true, List.any_eq_true] at h
  exact ⟨h.1.1.1, h.1.2, h.2⟩

/-- A claim takes an action that can be taken and starts its next attempt, or does nothing. -/
theorem claim_spec {s s' : InvestigationStore} {attemptId version : String} {eligible : Option (List String)}
    {result : Option InvestigationAction}
    (h : s.claimNextInvestigationAction attemptId version eligible = .ok (s', result)) :
    s' = s ∨ ∃ a ∈ s.actions.rows, s.claimable version eligible a = true ∧
      s'.actions.rows = (s.actions.rows.map fun b => if b.actionId = a.actionId then claimed.apply b else b) ∧
      (∀ t ∈ s.attempts.rows, t.attemptId ≠ attemptId) ∧
      s'.attempts.rows = s.attempts.rows ++
        [⟨attemptId, a.actionId, (attemptsOf s.attempts a.actionId).length + 1, .running⟩] := by
  unfold claimNextInvestigationAction at h
  split at h
  · rw [pure_ok] at h
    exact Or.inl (Prod.mk.inj h).1.symm
  · next a ha =>
    simp only [bind_ok, orThrow_ok, pure_ok] at h
    obtain ⟨attempts, hinsert, h⟩ := h
    obtain ⟨rfl, -⟩ := Prod.mk.inj h
    obtain ⟨hfresh, hrows⟩ := Table.insert?_eq_some hinsert
    exact Or.inr ⟨a, mem_listInvestigationActions.1 (List.mem_of_find?_eq_some ha), List.find?_some ha,
      rows_updateAction, hfresh, hrows⟩

/-- A claim under a new attempt id takes some action, when one can be taken. -/
theorem claim_takes {s : InvestigationStore} {attemptId version : String} {eligible : Option (List String)}
    (hfresh : ∀ t ∈ s.attempts.rows, t.attemptId ≠ attemptId)
    (hsome : ∃ a ∈ s.actions.rows, s.claimable version eligible a = true) :
    ∃ s' a, s.claimNextInvestigationAction attemptId version eligible = .ok (s', some (claimed.apply a)) ∧
      a ∈ s.actions.rows ∧ s.claimable version eligible a = true ∧
      s'.actions.rows = s.actions.rows.map fun b => if b.actionId = a.actionId then claimed.apply b else b := by
  obtain ⟨b, hb, hclaimable⟩ := hsome
  cases hfind : s.listInvestigationActions.find? (s.claimable version eligible) with
  | none => exact absurd hclaimable (List.find?_eq_none.1 hfind b (mem_listInvestigationActions.2 hb))
  | some a =>
    have hinsert : ∃ attempts, s.attempts.insert? ⟨attemptId, a.actionId,
        (s.attempts.rows.filter fun t => t.actionId = a.actionId).length + 1, .running⟩ = some attempts := by
      cases hnone : s.attempts.insert? ⟨attemptId, a.actionId,
          (s.attempts.rows.filter fun t => t.actionId = a.actionId).length + 1, .running⟩ with
      | some attempts => exact ⟨attempts, rfl⟩
      | none =>
        obtain ⟨t, ht, htaken⟩ := Table.insert?_eq_none.1 hnone
        exact absurd htaken (hfresh t ht)
    obtain ⟨attempts, hinsert⟩ := hinsert
    refine ⟨{ s.updateAction a.actionId claimed with attempts }, a, ?_,
      mem_listInvestigationActions.1 (List.mem_of_find?_eq_some hfind), List.find?_some hfind, rows_updateAction⟩
    rw [claimNextInvestigationAction, hfind]
    simp only [hinsert]
    rfl

/-- The next attempt at a queued action is numbered after the last one and is the only one under way. -/
theorem Consistent.claim {s s' : InvestigationStore} (h : Consistent s) {a : InvestigationAction}
    {attemptId : String} (ha : a ∈ s.actions.rows) (hready : a.status = .ready)
    (hrows : s'.actions.rows = s.actions.rows.map fun b =>
      if b.actionId = a.actionId then claimed.apply b else b)
    (hattempts : s'.attempts.rows = s.attempts.rows ++
      [⟨attemptId, a.actionId, (attemptsOf s.attempts a.actionId).length + 1, .running⟩]) :
    Consistent s' := by
  have hself : ∀ b ∈ s.actions.rows, b.actionId = a.actionId → b = a := fun b hb => s.actions.eq_of_key hb ha
  have hmem : ∀ a' ∈ s'.actions.rows, (a' = claimed.apply a) ∨ (a' ∈ s.actions.rows ∧ a'.actionId ≠ a.actionId) := by
    intro a' ha'
    rw [hrows] at ha'
    obtain ⟨b, hb, rfl⟩ := List.mem_map.1 ha'
    by_cases heq : b.actionId = a.actionId
    · rw [if_pos heq, hself b hb heq]
      exact Or.inl rfl
    · rw [if_neg heq]
      exact Or.inr ⟨hb, heq⟩
  have hnew : runningAttempts s'.attempts a.actionId =
      [⟨attemptId, a.actionId, (attemptsOf s.attempts a.actionId).length + 1, .running⟩] := by
    have hidle := h.idle a ha (by rw [hready]; exact fun hr => (nomatch hr))
    rw [runningAttempts] at hidle
    rw [runningAttempts, hattempts, List.filter_append, hidle]
    simp
  have hnewAll : attemptsOf s'.attempts a.actionId = attemptsOf s.attempts a.actionId ++
      [⟨attemptId, a.actionId, (attemptsOf s.attempts a.actionId).length + 1, .running⟩] := by
    rw [attemptsOf, hattempts, List.filter_append]
    simp [attemptsOf]
  have hother : ∀ id, id ≠ a.actionId → attemptsOf s'.attempts id = attemptsOf s.attempts id ∧
      runningAttempts s'.attempts id = runningAttempts s.attempts id := by
    intro id hne
    rw [attemptsOf, runningAttempts, hattempts, List.filter_append, List.filter_append]
    simp [attemptsOf, runningAttempts, hne.symm]
  refine ⟨fun a' ha' => ?_, fun a' ha' hnot => ?_, fun a' ha' => ?_, fun t ht => ?_, ?_, s'.actions.distinct⟩
  · rcases hmem a' ha' with rfl | ⟨hold, hne⟩
    · exact ⟨fun _ => by rw [show (claimed.apply a).actionId = a.actionId from rfl, hnew]; rfl, fun _ => rfl⟩
    · rw [(hother _ hne).2]
      exact h.running a' hold
  · rcases hmem a' ha' with rfl | ⟨hold, hne⟩
    · exact absurd rfl hnot
    · rw [(hother _ hne).2]
      exact h.idle a' hold hnot
  · rcases hmem a' ha' with rfl | ⟨hold, hne⟩
    · rw [show (claimed.apply a).actionId = a.actionId from rfl, hnewAll, List.map_append, h.numbered a ha,
        List.length_append, List.length_singleton, List.range'_concat, List.map_singleton, Nat.one_mul, Nat.add_comm 1]
    · rw [(hother _ hne).1]
      exact h.numbered a' hold
  · have howner : ∃ b ∈ s.actions.rows, b.actionId = t.actionId := by
      rw [hattempts] at ht
      rcases List.mem_append.1 ht with hold | hnew
      · exact h.owned t hold
      · exact ⟨a, ha, by rw [List.mem_singleton.1 hnew]⟩
    obtain ⟨b, hb, hid⟩ := howner
    refine ⟨_, by rw [hrows]; exact List.mem_map_of_mem hb, ?_⟩
    split <;> exact hid
  · rw [hrows]
    refine (length_live_map fun b hb hlive => ?_).trans h.capacity
    by_cases heq : b.actionId = a.actionId
    · rw [hself b hb heq, hready]
      rfl
    · rwa [if_neg heq] at hlive

theorem finish_spec {s s' : InvestigationStore} (h : Consistent s) {actionId : String} {revision : ℕ}
    {status : ActionStatus} {refs : List String} {error : Option String} (hstatus : status.isLive = false)
    (hfinish : s.finishInvestigationAction actionId revision status refs error = .ok s') :
    ∃ a ∈ s.actions.rows, a.actionId = actionId ∧ a.status = .running ∧
      s'.actions.rows = (s.actions.rows.map fun b =>
        if b.actionId = actionId then (finished status refs error).apply b else b) ∧
      Ended s.attempts s'.attempts actionId := by
  simp only [finishInvestigationAction, bind_ok, orThrow_ok, require_ok, pure_ok] at hfinish
  obtain ⟨a, ha, _, hguard, t, ht, rfl⟩ := hfinish
  obtain ⟨hmem, hid⟩ := Table.get?_eq_some.1 ha
  have hrunning := (of_decide_eq_true hguard).1
  refine ⟨a, hmem, hid, hrunning, rows_updateAction, ?_⟩
  obtain ⟨t', hone⟩ := h.one hmem hrunning
  rw [hid] at hone
  have hsame := runningAttempt_some ht
  rw [hone] at hsame
  obtain rfl := List.mem_singleton.1 hsame
  exact ended_set hone fun heq => by rw [heq] at hstatus; cases hstatus

theorem finish_sound {s : ActionSystem} (h : Consistent s.store) (actionId : String) (revision : ℕ)
    (status : { status : ActionStatus // status.isLive = false }) (refs : List String) (error : Option String) :
    Consistent (step s (.finish actionId revision status refs error)).store ∧
      StepSound s (.finish actionId revision status refs error) := by
  cases hfinish : s.store.finishInvestigationAction actionId revision status refs error with
  | error e =>
    have hsame : (step s (.finish actionId revision status refs error)).store = s.store := by
      rw [step, ActionSystem.write, hfinish]
      rfl
    have hquiet : Rewrites Quiet s.store (step s (.finish actionId revision status refs error)).store := by
      rw [hsame]
      exact Rewrites.refl quiet_refl _
    exact ⟨h.rewrites hquiet, sound_of_quiet hquiet⟩
  | ok s' =>
    have hnext : (step s (.finish actionId revision status refs error)).store = s' := by
      rw [step, ActionSystem.write, hfinish]
      rfl
    obtain ⟨a, ha, hid, hrunning, hrows, hended⟩ := finish_spec h status.property hfinish
    have hself : ∀ b ∈ s.store.actions.rows, b.actionId = actionId → b.status = .running := by
      intro b hb heq
      rw [s.store.actions.eq_of_key hb ha (heq.trans hid.symm)]
      exact hrunning
    have hstopped : status.val ≠ .running := fun heq => by
      have hlive := status.property
      rw [heq] at hlive
      cases hlive
    have hnotReady : status.val ≠ .ready := fun heq => by
      have hlive := status.property
      rw [heq] at hlive
      cases hlive
    refine ⟨hnext ▸ h.closed hrows hended.owners hended.numbers fun b hb => ?_, ?_⟩
    · by_cases heq : b.actionId = actionId
      · rw [if_pos heq]
        exact ⟨rfl, Or.inr ⟨hself b hb heq, hstopped, heq ▸ hended.running⟩⟩
      · rw [if_neg heq]
        exact ⟨rfl, Or.inl ⟨rfl, hended.others _ heq⟩⟩
    · refine sound_of_rows [] (by rw [hnext, hrows, List.append_nil]) (fun b hb => ?_)
        fun _ hnone => absurd hnone List.not_mem_nil
      by_cases heq : b.actionId = actionId
      · have hrunning := hself b hb heq
        rw [if_pos heq]
        refine ⟨rfl, fun _ => Nat.lt_succ_self _, fun hnot => ?_, fun _ hready => absurd hready hnotReady,
          fun hnot => absurd hrunning hnot⟩
        rw [hrunning] at hnot
        cases hnot
      · rw [if_neg heq]
        exact (quiet_refl b).moved

/-- The recovery ends the attempts of the actions it goes through, and no others. -/
theorem recover_attempts : ∀ (rest : List InvestigationAction) (attempts : AttemptTable),
    (∀ a ∈ rest, (runningAttempts attempts a.actionId).length ≤ 1) →
    ((rest.foldl recoverAttempt attempts).rows.map (·.actionId) = attempts.rows.map (·.actionId)) ∧
    (∀ id, (attemptsOf (rest.foldl recoverAttempt attempts) id).map (·.attempt) =
      (attemptsOf attempts id).map (·.attempt)) ∧
    (∀ a ∈ rest, runningAttempts (rest.foldl recoverAttempt attempts) a.actionId = []) ∧
    (∀ id, (∀ a ∈ rest, a.actionId ≠ id) →
      runningAttempts (rest.foldl recoverAttempt attempts) id = runningAttempts attempts id)
  | [], _, _ => ⟨rfl, fun _ => rfl, fun _ ha => absurd ha List.not_mem_nil, fun _ _ => rfl⟩
  | a :: rest, attempts, hone => by
    have hended : (recoverAttempt attempts a = attempts ∧ runningAttempts attempts a.actionId = []) ∨
        Ended attempts (recoverAttempt attempts a) a.actionId := by
      rw [recoverAttempt]
      cases hrunning : runningAttempt attempts a.actionId with
      | none => exact Or.inl ⟨rfl, runningAttempt_none hrunning⟩
      | some t =>
        have hmem := runningAttempt_some hrunning
        have hlength : (runningAttempts attempts a.actionId).length = 1 :=
          Nat.le_antisymm (hone a List.mem_cons_self) (List.length_pos_of_mem hmem)
        obtain ⟨t', ht'⟩ := List.length_eq_one_iff.1 hlength
        rw [ht'] at hmem
        obtain rfl := List.mem_singleton.1 hmem
        refine Or.inr (ended_set ht' ?_)
        split <;> exact fun heq => nomatch heq
    have hstep : (recoverAttempt attempts a).rows.map (·.actionId) = attempts.rows.map (·.actionId) ∧
        (∀ id, (attemptsOf (recoverAttempt attempts a) id).map (·.attempt) =
          (attemptsOf attempts id).map (·.attempt)) ∧
        runningAttempts (recoverAttempt attempts a) a.actionId = [] ∧
        ∀ id, id ≠ a.actionId →
          runningAttempts (recoverAttempt attempts a) id = runningAttempts attempts id := by
      rcases hended with ⟨hsame, hnone⟩ | hended
      · rw [hsame]
        exact ⟨rfl, fun _ => rfl, hnone, fun _ _ => rfl⟩
      · exact ⟨hended.owners, hended.numbers, hended.running, hended.others⟩
    obtain ⟨howners, hnumbers, hself, hothers⟩ := hstep
    have hone' : ∀ b ∈ rest, (runningAttempts (recoverAttempt attempts a) b.actionId).length ≤ 1 := by
      intro b hb
      by_cases heq : b.actionId = a.actionId
      · rw [heq, hself]
        exact Nat.zero_le 1
      · rw [hothers _ heq]
        exact hone b (List.mem_cons_of_mem _ hb)
    obtain ⟨howners', hnumbers', hself', hothers'⟩ := recover_attempts rest (recoverAttempt attempts a) hone'
    refine ⟨howners'.trans howners, fun id => (hnumbers' id).trans (hnumbers id), fun b hb => ?_,
      fun id hid => ?_⟩
    · by_cases hrest : ∃ c ∈ rest, c.actionId = b.actionId
      · obtain ⟨c, hc, heq⟩ := hrest
        rw [← heq]
        exact hself' c hc
      · rcases List.mem_cons.1 hb with rfl | hb
        · exact (hothers' _ fun c hc heq => hrest ⟨c, hc, heq⟩).trans hself
        · exact absurd ⟨b, hb, rfl⟩ hrest
    · exact (hothers' id fun c hc => hid c (List.mem_cons_of_mem _ hc)).trans
        (hothers id (Ne.symm (hid a List.mem_cons_self)))

theorem recover_sound {s : ActionSystem} (h : Consistent s.store) :
    Consistent (step s .recover).store ∧ StepSound s .recover := by
  have hrows : (step s .recover).store.actions.rows =
      s.store.actions.rows.map fun a => if a.status = .running then recovered.apply a else a := by
    simp only [step, recoverInterruptedInvestigationActions, IndexedTable.modify, decide_eq_true_eq]
  have hlisted : ∀ a, a ∈ s.store.listInvestigationActions.filter (fun a => a.status = .running) ↔
      a ∈ s.store.actions.rows ∧ a.status = .running := by
    intro a
    rw [List.mem_filter, mem_listInvestigationActions, decide_eq_true_eq]
  obtain ⟨howners, hnumbers, hself, hothers⟩ := recover_attempts
    (s.store.listInvestigationActions.filter fun a => a.status = .running) s.store.attempts fun a ha => by
      obtain ⟨ha, hrunning⟩ := (hlisted a).1 ha
      exact Nat.le_of_eq ((h.running a ha).1 hrunning)
  refine ⟨h.closed hrows howners hnumbers fun a ha => ?_, ?_⟩
  · by_cases hrunning : a.status = .running
    · rw [if_pos hrunning]
      refine ⟨rfl, Or.inr ⟨hrunning, ?_, hself a ((hlisted a).2 ⟨ha, hrunning⟩)⟩⟩
      dsimp only [recovered]
      split <;>
        · intro heq
          cases heq
    · rw [if_neg hrunning]
      refine ⟨rfl, Or.inl ⟨rfl, hothers a.actionId fun b hb heq => ?_⟩⟩
      obtain ⟨hb, hbrunning⟩ := (hlisted b).1 hb
      exact hrunning (s.store.actions.eq_of_key ha hb heq.symm ▸ hbrunning)
  · refine sound_of_rows [] (by rw [hrows, List.append_nil]) (fun a _ => ?_)
      fun _ hnone => absurd hnone List.not_mem_nil
    by_cases hrunning : a.status = .running
    · rw [if_pos hrunning]
      refine ⟨rfl, fun _ => Nat.lt_succ_self _, fun hended => ?_, fun _ hready => ⟨rfl, ?_⟩,
        fun hnot => absurd hrunning hnot⟩
      · rw [hrunning] at hended
        cases hended
      · by_contra hrefused
        dsimp only [recovered] at hready
        rw [if_neg hrefused] at hready
        cases hready
    · rw [if_neg hrunning]
      exact (quiet_refl a).moved

theorem claim_consistent {s : ActionSystem} (h : Consistent s.store) (attemptId version : String)
    (eligible : Option (List String)) : Consistent (step s (.claim attemptId version eligible)).store := by
  refine transact_induction (P := Consistent) h fun s' hs' => ?_
  cases hclaim : s.store.claimNextInvestigationAction attemptId version eligible with
  | error e => rw [hclaim] at hs'; cases hs'
  | ok result =>
    rw [hclaim] at hs'
    cases hs'
    rcases claim_spec hclaim with hsame | ⟨a, ha, hclaimable, hrows, -, hattempts⟩
    · have hkept : Consistent result.1 := by rw [hsame]; exact h
      exact hkept
    · exact h.claim ha (claimable_iff hclaimable).1 hrows hattempts

/-- A claim moves its action as it may exactly when the version it names is the session's, if it takes one. -/
theorem claim_sound_iff (s : ActionSystem) (attemptId version : String) (eligible : Option (List String)) :
    StepSound s (.claim attemptId version eligible) ↔ ClaimsCurrent s (.claim attemptId version eligible) := by
  constructor
  · intro hsound hfresh hsome
    obtain ⟨s', a, hclaim, ha, hclaimable, hrows⟩ := claim_takes hfresh hsome
    obtain ⟨hready, hversion, -⟩ := claimable_iff hclaimable
    have hnext : (step s (.claim attemptId version eligible)).store = s' := by
      rw [step, ActionSystem.write, hclaim]
      rfl
    obtain ⟨a', ha', hmoved⟩ := hsound.kept a ha
    have htaken : claimed.apply a ∈ s'.actions.rows := by
      rw [hrows]
      exact List.mem_map.2 ⟨a, ha, if_pos rfl⟩
    have hsame : a' = claimed.apply a := s'.actions.eq_of_key (hnext ▸ ha') htaken hmoved.actionId
    have hnot : a.status ≠ .running := by
      rw [hready]
      exact fun heq => nomatch heq
    rw [← hversion]
    exact (hmoved.claimed hnot (by rw [hsame]; rfl)).2.2
  · intro hcurrent
    cases hclaim : s.store.claimNextInvestigationAction attemptId version eligible with
    | error e =>
      have hsame : (step s (.claim attemptId version eligible)).store = s.store := by
        rw [step, ActionSystem.write, hclaim]
        rfl
      exact sound_of_quiet (by rw [hsame]; exact Rewrites.refl quiet_refl _)
    | ok result =>
      obtain ⟨s', taken⟩ := result
      have hnext : (step s (.claim attemptId version eligible)).store = s' := by
        rw [step, ActionSystem.write, hclaim]
        rfl
      rcases claim_spec hclaim with hsame | ⟨a, ha, hclaimable, hrows, hfresh, -⟩
      · exact sound_of_quiet (by rw [hnext, hsame]; exact Rewrites.refl quiet_refl _)
      · obtain ⟨hready, hversion, hdepends⟩ := claimable_iff hclaimable
        refine sound_of_rows [] (by rw [hnext, hrows, List.append_nil]) (fun b hb => ?_)
          fun _ hnone => absurd hnone List.not_mem_nil
        by_cases heq : b.actionId = a.actionId
        · obtain rfl := s.store.actions.eq_of_key hb ha heq
          rw [if_pos rfl]
          refine ⟨rfl, fun _ => Nat.lt_succ_self _, fun hended => ?_, fun hrunning => ?_, fun _ _ =>
            ⟨hready, hdepends, hversion.trans (hcurrent hfresh ⟨b, hb, hclaimable⟩)⟩⟩
          · rw [hready] at hended
            cases hended
          · rw [hready] at hrunning
            cases hrunning
        · rw [if_neg heq]
          exact (quiet_refl b).moved

/-! ### All runs -/

theorem rewrites_step {s : ActionSystem} (op : ActionOp) (h : Consistent s.store)
    (hr : Rewrites Quiet s.store (step s op).store) : Consistent (step s op).store ∧ StepSound s op :=
  ⟨h.rewrites hr, sound_of_quiet hr⟩

theorem rewrites_blockOp (s : ActionSystem) (actionId reason : String) :
    Rewrites Quiet s.store (step s (.block actionId reason)).store := by
  refine transact_induction (P := Rewrites Quiet s.store) (Rewrites.refl quiet_refl _) fun s' hs' => ?_
  exact rewrites_quiet (rewrites_block hs')

theorem rewrites_refreshOp (s : ActionSystem) (version : String) :
    Rewrites Quiet s.store (step s (.refresh version)).store := by
  rw [step]
  split
  · exact Rewrites.refl quiet_refl _
  · exact rewrites_quiet (rewrites_refresh _ _)

/-- The queue stays consistent under every operation. -/
theorem step_consistent (s : ActionSystem) (op : ActionOp) (h : Consistent s.store) :
    Consistent (step s op).store :=
  match op with
  | .note obligation => (rewrites_step (.note obligation) h (rewrites_note s.store obligation)).1
  | .put _ hready => (put_sound h hready).1
  | .claim attemptId version eligible => claim_consistent h attemptId version eligible
  | .finish actionId revision status refs error => (finish_sound h actionId revision status refs error).1
  | .block actionId reason => (rewrites_step (.block actionId reason) h (rewrites_blockOp s actionId reason)).1
  | .refresh version => (rewrites_step (.refresh version) h (rewrites_refreshOp s version)).1
  | .recover => (recover_sound h).1

/-- Only a claim can move an action as it may not. -/
theorem step_sound_iff (s : ActionSystem) (op : ActionOp) (h : Consistent s.store) :
    StepSound s op ↔ ClaimsCurrent s op :=
  match op with
  | .note obligation => iff_of_true (rewrites_step (.note obligation) h (rewrites_note s.store obligation)).2 trivial
  | .put _ hready => iff_of_true (put_sound h hready).2 trivial
  | .claim attemptId version eligible => claim_sound_iff s attemptId version eligible
  | .finish actionId revision status refs error =>
    iff_of_true (finish_sound h actionId revision status refs error).2 trivial
  | .block actionId reason =>
    iff_of_true (rewrites_step (.block actionId reason) h (rewrites_blockOp s actionId reason)).2 trivial
  | .refresh version => iff_of_true (rewrites_step (.refresh version) h (rewrites_refreshOp s version)).2 trivial
  | .recover => iff_of_true (recover_sound h).2 trivial

theorem consistent_empty : Consistent .empty :=
  ⟨fun _ ha => absurd ha List.not_mem_nil, fun _ ha => absurd ha List.not_mem_nil,
    fun _ ha => absurd ha List.not_mem_nil, fun _ ht => absurd ht List.not_mem_nil, Nat.zero_le _, List.nodup_nil⟩

/-- The queue is consistent all along the run, and every step moves its actions as it may. -/
structure Disciplined (authorizationVersion : String) (ops : List ActionOp) : Prop where
  consistent : ∀ n, Consistent (Runs.run step ⟨.empty, authorizationVersion⟩ (ops.take n)).store
  sound : Runs.Along step StepSound ⟨.empty, authorizationVersion⟩ ops

theorem run_consistent (authorizationVersion : String) (ops : List ActionOp) :
    Consistent (Runs.run step ⟨.empty, authorizationVersion⟩ ops).store :=
  Runs.run_invariant (I := fun s : ActionSystem => Consistent s.store) (C := fun _ _ => True)
    (fun s op h _ => step_consistent s op h) ops _ consistent_empty (Runs.along_true _ _)

/-- A run keeps the queue as it should exactly when the claims that take an action name the version of the
    session. -/
theorem disciplined_iff (authorizationVersion : String) (ops : List ActionOp) :
    Disciplined authorizationVersion ops ↔
      Runs.Along step ClaimsCurrent ⟨.empty, authorizationVersion⟩ ops := by
  have hiff := Runs.along_congr (J := fun s : ActionSystem => Consistent s.store) step_consistent step_sound_iff ops
    ⟨.empty, authorizationVersion⟩ consistent_empty
  exact ⟨fun h => hiff.1 h.sound, fun h => ⟨fun n => run_consistent authorizationVersion _, hiff.2 h⟩⟩

/-- The planners and the worker keep the session they were started with: an action proposed after the grants
    have changed carries the old version, and is claimed under it. -/
def staleProposal : InvestigationAction where
  actionId := "action-1"
  obligationIds := []
  authorizationVersion := "v1"
  priority := 50
  dependsOn := []
  idempotencyKey := "key-1"
  replayPolicy := .safeReobserve
  status := .ready
  resultRefs := none
  error := none
  createdAt := 0
  revision := 0

theorem disciplined_stale_claim : ¬ Disciplined "v1"
    [.refresh "v2", .put staleProposal rfl, .claim "attempt-1" "v1" none] := by
  intro h
  have hcurrent := (claim_sound_iff _ _ _ _).1 h.sound.2.2.1
  have hversion := hcurrent (fun t ht => absurd ht List.not_mem_nil)
    ⟨staleProposal, List.mem_singleton_self _, by decide⟩
  exact absurd hversion (by decide)

end HuntWarden.Attempts
