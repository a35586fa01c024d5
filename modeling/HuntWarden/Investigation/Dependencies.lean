import HuntWarden.Investigation.Attempts
import HuntWarden.Lib.TopologicalOrder

/-! The order in which the actions of a queue are taken up. An action waits for the ones it depends on, by
    the ids it was stored with; what was stored first depends on nothing stored later. -/

namespace HuntWarden.Dependencies

open Attempts InvestigationStore Outcome TopologicalOrder

/-! ### What every operation keeps -/

/-- Every dependency of the action has ended with a result. -/
def DependenciesEnded (s : InvestigationStore) (a : InvestigationAction) : Prop :=
  ∀ id ∈ a.dependsOn, ∃ d ∈ s.actions.rows, d.actionId = id ∧ (d.status = .succeeded ∨ d.status = .partialResult)

/-- What becomes of an action: it waits on the same ones as before, and is taken up only after them. -/
structure Carried (s : InvestigationStore) (a a' : InvestigationAction) : Prop where
  actionId : a'.actionId = a.actionId
  idempotencyKey : a'.idempotencyKey = a.idempotencyKey
  dependsOn : a'.dependsOn = a.dependsOn
  status : a'.status = a.status ∨ (a.status = .ready ∧ a'.status = .blocked) ∨
    (a.status = .ready ∧ a'.status = .running ∧ DependenciesEnded s a) ∨ a.status = .running

theorem Carried.ended {s : InvestigationStore} {a a' : InvestigationAction} (h : Carried s a a')
    (hended : a.status.isLive = false) : a'.status = a.status := by
  rcases h.status with hsame | ⟨hready, -⟩ | ⟨hready, -⟩ | hrunning
  · exact hsame
  · rw [hready] at hended
    cases hended
  · rw [hready] at hended
    cases hended
  · rw [hrunning] at hended
    cases hended

theorem carried_refl (s : InvestigationStore) (a : InvestigationAction) : Carried s a a := ⟨rfl, rfl, rfl, Or.inl rfl⟩

theorem carried_of_blocks {s : InvestigationStore} {a a' : InvestigationAction} (h : Blocks a a') : Carried s a a' := by
  rcases h with rfl | ⟨hready, reason, rfl⟩
  · exact carried_refl s _
  · exact ⟨rfl, rfl, rfl, Or.inr (Or.inl ⟨hready, rfl⟩)⟩

/-- An operation carries the actions on, may add one whose dependencies are on record, and starts an attempt
    only at an action that waits for nothing. -/
structure StepCarried (s s' : InvestigationStore) : Prop where
  rows : ∃ f added, s'.actions.rows = s.actions.rows.map f ++ added ∧
    (∀ a ∈ s.actions.rows, Carried s a (f a)) ∧
    (added = [] ∨ ∃ value, added = [value] ∧ ∀ id ∈ value.dependsOn, ∃ d ∈ s.actions.rows, d.actionId = id)
  kept : ∀ t ∈ s.attempts.rows, ∃ t' ∈ s'.attempts.rows, t'.actionId = t.actionId
  started : ∀ t' ∈ s'.attempts.rows, (∃ t ∈ s.attempts.rows, t.actionId = t'.actionId) ∨
    ∃ a ∈ s.actions.rows, a.actionId = t'.actionId ∧ a.status = .ready ∧ DependenciesEnded s a

/-- The same attempts at the same actions. -/
theorem stepCarried_of_owners {s s' : InvestigationStore}
    (howners : s'.attempts.rows.map (·.actionId) = s.attempts.rows.map (·.actionId))
    (hrows : ∃ f added, s'.actions.rows = s.actions.rows.map f ++ added ∧
      (∀ a ∈ s.actions.rows, Carried s a (f a)) ∧
      (added = [] ∨ ∃ value, added = [value] ∧ ∀ id ∈ value.dependsOn, ∃ d ∈ s.actions.rows, d.actionId = id)) :
    StepCarried s s' := by
  refine ⟨hrows, fun t ht => ?_, fun t' ht' => Or.inl ?_⟩
  · have hmem := List.mem_map_of_mem (f := (·.actionId)) ht
    rw [← howners] at hmem
    exact List.mem_map.1 hmem
  · have hmem := List.mem_map_of_mem (f := (·.actionId)) ht'
    rw [howners] at hmem
    exact List.mem_map.1 hmem

theorem stepCarried_of_map {s s' : InvestigationStore} {f : InvestigationAction → InvestigationAction}
    (howners : s'.attempts.rows.map (·.actionId) = s.attempts.rows.map (·.actionId))
    (hrows : s'.actions.rows = s.actions.rows.map f) (hf : ∀ a ∈ s.actions.rows, Carried s a (f a)) :
    StepCarried s s' :=
  stepCarried_of_owners howners ⟨f, [], by rw [hrows, List.append_nil], hf, Or.inl rfl⟩

theorem stepCarried_refl (s : InvestigationStore) : StepCarried s s :=
  stepCarried_of_map rfl (List.map_id _).symm fun a _ => carried_refl s a

theorem stepCarried_of_blocks {s s' : InvestigationStore} (h : Rewrites Blocks s s') : StepCarried s s' := by
  obtain ⟨hattempts, f, hf, hblocks⟩ := h
  exact stepCarried_of_map (by rw [hattempts]) hf fun a ha => carried_of_blocks (hblocks a ha)

theorem stepCarried_merge (s : InvestigationStore) (stored value : InvestigationAction) :
    StepCarried s (s.mergeAction stored value).1 := by
  have hupdate : StepCarried s (s.updateAction stored.actionId (mergeInto value)) := by
    refine stepCarried_of_map rfl rows_updateAction fun a _ => ?_
    split
    · exact ⟨rfl, rfl, rfl, Or.inl rfl⟩
    · exact carried_refl s a
  rw [mergeAction]
  dsimp only
  split
  · exact stepCarried_refl s
  · split
    · exact hupdate
    · exact ⟨hupdate.rows, hupdate.kept, hupdate.started⟩

theorem stepCarried_put {s s' : InvestigationStore} {value stored : InvestigationAction}
    (hready : value.status = .ready) (h : s.putInvestigationAction value = .ok (s', stored)) : StepCarried s s' := by
  have hattempts := (put_spec hready h).1
  have hdepends : ∀ id ∈ value.dependsOn, ∃ d ∈ s.actions.rows, d.actionId = id := by
    simp only [putInvestigationAction, bind_ok, require_ok] at h
    obtain ⟨_, _, _, hdepends, _⟩ := h
    exact fun id hid => by simpa using List.all_eq_true.1 hdepends id hid
  have howners : s'.attempts.rows.map (·.actionId) = s.attempts.rows.map (·.actionId) := by rw [hattempts]
  rcases (putInvestigationAction_cases h).2 with ⟨hrows, -⟩ | ⟨hrows, -⟩ | ⟨old, -, -, hmerged⟩
  · exact stepCarried_of_owners howners ⟨id, [value], by rw [hrows, List.map_id], fun a _ => carried_refl s a,
      Or.inr ⟨value, rfl, hdepends⟩⟩
  · exact stepCarried_of_owners howners ⟨id, [capacityBlocked value], by rw [hrows, List.map_id],
      fun a _ => carried_refl s a, Or.inr ⟨_, rfl, hdepends⟩⟩
  · rw [hmerged]
    exact stepCarried_merge s old value

theorem recover_owners {s : ActionSystem} (h : Consistent s.store) :
    (step s .recover).store.attempts.rows.map (·.actionId) = s.store.attempts.rows.map (·.actionId) := by
  refine (recover_attempts (s.store.listInvestigationActions.filter fun a => a.status = .running) s.store.attempts
    fun a ha => ?_).1
  obtain ⟨hlisted, hrunning⟩ := List.mem_filter.1 ha
  exact Nat.le_of_eq ((h.running a (mem_listInvestigationActions.1 hlisted)).1 (of_decide_eq_true hrunning))

/-- What the operations of the queue do to its actions and attempts. -/
theorem step_carried {s : ActionSystem} (op : ActionOp) (hs : Consistent s.store) :
    StepCarried s.store (step s op).store := by
  cases op with
  | note obligation =>
    refine transact_induction (P := StepCarried s.store) (stepCarried_refl _) fun s' hs' => ?_
    cases hput : s.store.putInvestigationObligation obligation with
    | error e => rw [hput] at hs'; cases hs'
    | ok result =>
      rw [hput] at hs'
      cases hs'
      have hrewrites := rewrites_note s.store obligation
      rw [hput] at hrewrites
      obtain ⟨hattempts, -⟩ := hrewrites
      have hactions : result.1.actions = s.store.actions := (putInvestigationObligation_ok hput).2.1
      exact stepCarried_of_map (f := id)
        (congrArg (fun attempts : AttemptTable => attempts.rows.map (·.actionId)) hattempts)
        (by rw [hactions, List.map_id]) fun a _ => carried_refl _ a
  | put action hready =>
    have hstep : (step s (.put action hready)).store = ActionExecutor.putProposal s.store action := rfl
    rw [hstep, ActionExecutor.putProposal]
    cases hput : s.store.putInvestigationAction action with
    | error e => exact stepCarried_refl _
    | ok result => exact stepCarried_put hready hput
  | claim attemptId version eligible =>
    refine transact_induction (P := StepCarried s.store) (stepCarried_refl _) fun s' hs' => ?_
    cases hclaim : s.store.claimNextInvestigationAction attemptId version eligible with
    | error e => rw [hclaim] at hs'; cases hs'
    | ok result =>
      rw [hclaim] at hs'
      cases hs'
      rcases claim_spec hclaim with hsame | ⟨a, ha, hclaimable, hrows, -, hattempts⟩
      · have hkept : StepCarried s.store result.1 := by
          rw [hsame]
          exact stepCarried_refl _
        exact hkept
      · obtain ⟨hready, -, hdepends⟩ := claimable_iff hclaimable
        refine ⟨⟨_, [], by rw [hrows, List.append_nil], fun b hb => ?_, Or.inl rfl⟩, fun t ht => ?_, fun t' ht' => ?_⟩
        · by_cases heq : b.actionId = a.actionId
          · obtain rfl := s.store.actions.eq_of_key hb ha heq
            rw [if_pos rfl]
            exact ⟨rfl, rfl, rfl, Or.inr (Or.inr (Or.inl ⟨hready, rfl, hdepends⟩))⟩
          · rw [if_neg heq]
            exact carried_refl _ b
        · exact ⟨t, by rw [hattempts]; exact List.mem_append_left _ ht, rfl⟩
        · rw [hattempts] at ht'
          rcases List.mem_append.1 ht' with hold | hnew
          · exact Or.inl ⟨t', hold, rfl⟩
          · rw [List.mem_singleton.1 hnew]
            exact Or.inr ⟨a, ha, rfl, hready, hdepends⟩
  | finish actionId revision status refs error =>
    refine transact_induction (P := StepCarried s.store) (stepCarried_refl _) fun s' hs' => ?_
    obtain ⟨a, ha, hid, hrunning, hrows, hended⟩ := finish_spec hs status.property hs'
    refine stepCarried_of_map hended.owners hrows fun b hb => ?_
    by_cases heq : b.actionId = actionId
    · rw [if_pos heq]
      refine ⟨rfl, rfl, rfl, Or.inr (Or.inr (Or.inr ?_))⟩
      rw [s.store.actions.eq_of_key hb ha (heq.trans hid.symm)]
      exact hrunning
    · rw [if_neg heq]
      exact carried_refl _ b
  | block actionId reason =>
    exact transact_induction (P := StepCarried s.store) (stepCarried_refl _) fun s' hs' =>
      stepCarried_of_blocks (rewrites_block hs')
  | refresh version =>
    rw [step]
    split
    · exact stepCarried_refl _
    · exact stepCarried_of_blocks (rewrites_refresh _ _)
  | recover =>
    have hrows : (step s .recover).store.actions.rows =
        s.store.actions.rows.map fun a => if a.status = .running then recovered.apply a else a := by
      simp only [step, recoverInterruptedInvestigationActions, IndexedTable.modify, decide_eq_true_eq]
    refine stepCarried_of_map (recover_owners hs) hrows fun a _ => ?_
    by_cases hrunning : a.status = .running
    · rw [if_pos hrunning]
      exact ⟨rfl, rfl, rfl, Or.inr (Or.inr (Or.inr hrunning))⟩
    · rw [if_neg hrunning]
      exact carried_refl _ a

/-! ### What was stored first -/

/-- What an action depends on was stored before it. -/
def Grounded (s : InvestigationStore) : Prop :=
  Layered InvestigationAction.actionId InvestigationAction.dependsOn [] s.actions.rows

theorem StepCarried.grounded {s s' : InvestigationStore} (h : StepCarried s s') (hs : Grounded s) : Grounded s' := by
  obtain ⟨f, added, hrows, hf, hadded⟩ := h.rows
  have hmap : Layered InvestigationAction.actionId InvestigationAction.dependsOn [] (s.actions.rows.map f) :=
    (layered_map fun a ha => ⟨(hf a ha).actionId, (hf a ha).dependsOn⟩).2 hs
  rw [Grounded, hrows]
  rcases hadded with rfl | ⟨value, rfl, hdepends⟩
  · rw [List.append_nil]
    exact hmap
  · refine layered_concat.2 ⟨hmap, fun id hid => ?_⟩
    obtain ⟨d, hd, rfl⟩ := hdepends id hid
    rw [List.nil_append, List.map_map]
    exact List.mem_map.2 ⟨d, hd, (hf d hd).actionId⟩

/-! ### Waiting for an action to end -/

def EndedIn (s : InvestigationStore) (actionId : String) : Prop :=
  ∃ a ∈ s.actions.rows, a.actionId = actionId ∧ a.status.isLive = false

/-- Ended in a way that lets the actions that depend on it go on. -/
def isResult (status : ActionStatus) : Prop := status = .succeeded ∨ status = .partialResult

/-- An action that comes to no result while `target` has not ended: it is the target, it has failed, or it waits
    for one of this kind. -/
inductive Stalled (s : InvestigationStore) (target : String) : String → Prop
  | self : Stalled s target target
  | failed {a : InvestigationAction} (ha : a ∈ s.actions.rows) (hended : a.status.isLive = false)
      (hresult : ¬ isResult a.status) : Stalled s target a.actionId
  | waits {a : InvestigationAction} {id : String} (ha : a ∈ s.actions.rows) (hready : a.status = .ready)
      (hid : id ∈ a.dependsOn) (hstalled : Stalled s target id) : Stalled s target a.actionId

/-- An action that is not taken up while `target` has not ended. -/
def Barred (s : InvestigationStore) (target actionId : String) : Prop :=
  ∃ a ∈ s.actions.rows, a.actionId = actionId ∧
    (a.status.isLive = false ∨ (a.status = .ready ∧ ∃ id ∈ a.dependsOn, Stalled s target id))

def Unclaimed (s : InvestigationStore) (actionId : String) : Prop :=
  ∀ t ∈ s.attempts.rows, t.actionId ≠ actionId

/-- The target has ended, or the action has never been taken up and is not before the target ends. -/
def Behind (s : InvestigationStore) (actionId target : String) : Prop :=
  EndedIn s target ∨ (Unclaimed s actionId ∧ Barred s target actionId)

/-- An action that has been taken up finds the target ended. -/
def TakenAfter (s : InvestigationStore) (actionId target : String) : Prop :=
  (∃ t ∈ s.attempts.rows, t.actionId = actionId) → EndedIn s target

theorem Behind.takenAfter {s : InvestigationStore} {actionId target : String} (h : Behind s actionId target) :
    TakenAfter s actionId target := by
  rintro ⟨t, ht, hid⟩
  rcases h with hended | ⟨hunclaimed, -⟩
  · exact hended
  · exact absurd hid (hunclaimed t ht)

/-- An action with a result is stalled only as the target itself. -/
theorem Stalled.eq_target {s : InvestigationStore} {target : String} {d : InvestigationAction}
    (h : Stalled s target d.actionId) (hd : d ∈ s.actions.rows) (hresult : isResult d.status) :
    d.actionId = target := by
  generalize hid : d.actionId = id at h
  cases h with
  | self => rfl
  | failed ha _ hfailed =>
    rw [s.actions.eq_of_key hd ha hid] at hresult
    exact absurd hresult hfailed
  | waits ha hready _ _ =>
    rw [s.actions.eq_of_key hd ha hid, hready] at hresult
    rcases hresult with h | h <;> cases h

variable {s s' : InvestigationStore} {target actionId : String}

theorem isLive_of_isResult {status : ActionStatus} (h : isResult status) : status.isLive = false := by
  rcases h with rfl | rfl <;> rfl

theorem StepCarried.mem {f : InvestigationAction → InvestigationAction} {added : List InvestigationAction}
    (hrows : s'.actions.rows = s.actions.rows.map f ++ added) {a : InvestigationAction} (ha : a ∈ s.actions.rows) :
    f a ∈ s'.actions.rows := by
  rw [hrows]
  exact List.mem_append_left _ (List.mem_map_of_mem ha)

theorem StepCarried.endedIn (h : StepCarried s s') (hended : EndedIn s target) : EndedIn s' target := by
  obtain ⟨f, added, hrows, hf, -⟩ := h.rows
  obtain ⟨a, ha, hid, hlive⟩ := hended
  exact ⟨f a, StepCarried.mem hrows ha, (hf a ha).actionId.trans hid, ((hf a ha).ended hlive) ▸ hlive⟩

/-- An action is taken up only when its dependencies have ended, so one that waits for a stalled one stays. -/
theorem not_started_of_stalled {a : InvestigationAction} {id : String} (hid : id ∈ a.dependsOn)
    (hstalled : Stalled s target id) (hdepends : DependenciesEnded s a) : EndedIn s target := by
  obtain ⟨d, hd, rfl, hresult⟩ := hdepends id hid
  exact ⟨d, hd, hstalled.eq_target hd hresult, isLive_of_isResult hresult⟩

/-- A waiting action goes on waiting, or is blocked, until the target has ended. -/
theorem Carried.waiting {a a' : InvestigationAction} {id : String} (h : Carried s a a') (hready : a.status = .ready)
    (hid : id ∈ a.dependsOn) (hstalled : Stalled s target id) :
    EndedIn s target ∨ a'.status = .blocked ∨ a'.status = .ready := by
  rcases h.status with hsame | ⟨-, hblocked⟩ | ⟨-, -, hdepends⟩ | hrunning
  · exact Or.inr (Or.inr (hsame.trans hready))
  · exact Or.inr (Or.inl hblocked)
  · exact Or.inl (not_started_of_stalled hid hstalled hdepends)
  · rw [hready] at hrunning
    cases hrunning

theorem StepCarried.stalled (h : StepCarried s s') {id : String} (hstalled : Stalled s target id) :
    EndedIn s' target ∨ Stalled s' target id := by
  obtain ⟨f, added, hrows, hf, -⟩ := h.rows
  induction hstalled with
  | self => exact Or.inr .self
  | failed ha hended hfailed =>
    have hsame := (hf _ ha).ended hended
    rw [← (hf _ ha).actionId]
    exact Or.inr (.failed (StepCarried.mem hrows ha) (hsame ▸ hended) (hsame ▸ hfailed))
  | waits ha hready hid hstalled ih =>
    rcases ih with hended | hstalled'
    · exact Or.inl hended
    · rw [← (hf _ ha).actionId]
      rcases Carried.waiting (hf _ ha) hready hid hstalled with hended | hblocked | hready'
      · exact Or.inl (h.endedIn hended)
      · refine Or.inr (.failed (StepCarried.mem hrows ha) (by rw [hblocked]; rfl) ?_)
        rw [hblocked]
        rintro (h | h) <;> cases h
      · exact Or.inr (.waits (StepCarried.mem hrows ha) hready' ((hf _ ha).dependsOn ▸ hid) hstalled')

theorem StepCarried.behind (h : StepCarried s s') (hbehind : Behind s actionId target) :
    Behind s' actionId target := by
  rcases hbehind with hended | ⟨hunclaimed, a, ha, rfl, hbarred⟩
  · exact Or.inl (h.endedIn hended)
  · by_cases hended : EndedIn s' target
    · exact Or.inl hended
    · obtain ⟨f, added, hrows, hf, -⟩ := id h.rows
      refine Or.inr ⟨fun t' ht' heq => ?_, f a, StepCarried.mem hrows ha, (hf a ha).actionId, ?_⟩
      · rcases h.started t' ht' with ⟨t, ht, hsame⟩ | ⟨b, hb, hid, hready, hdepends⟩
        · exact hunclaimed t ht (hsame.trans heq)
        · obtain rfl := s.actions.eq_of_key hb ha (hid.trans heq)
          rcases hbarred with hlive | ⟨-, id, hid, hstalled⟩
          · rw [hready] at hlive
            cases hlive
          · exact hended (h.endedIn (not_started_of_stalled hid hstalled hdepends))
      · rcases hbarred with hlive | ⟨hready, id, hid, hstalled⟩
        · exact Or.inl ((hf a ha).ended hlive ▸ hlive)
        · rcases Carried.waiting (hf a ha) hready hid hstalled with hended' | hblocked | hready'
          · exact absurd (h.endedIn hended') hended
          · exact Or.inl (by rw [hblocked]; rfl)
          · exact Or.inr ⟨hready', id, (hf a ha).dependsOn ▸ hid, (h.stalled hstalled).resolve_left hended⟩

/-! ### Bringing the others to a result -/

def ResultIn (s : InvestigationStore) (actionId : String) : Prop :=
  ∃ a ∈ s.actions.rows, a.actionId = actionId ∧ isResult a.status

/-- Some actions other than the target have come to a result, and nothing else has changed. -/
structure Advanced (target : String) (s s' : InvestigationStore) : Prop where
  rows : ∃ f, s'.actions.rows = s.actions.rows.map f ∧ ∀ a ∈ s.actions.rows, (f a).actionId = a.actionId ∧
    (f a).dependsOn = a.dependsOn ∧ (f a = a ∨
      (a.actionId ≠ target ∧ isResult (f a).status ∧ ∃ t ∈ s'.attempts.rows, t.actionId = a.actionId))
  kept : ∀ t ∈ s.attempts.rows, ∃ t' ∈ s'.attempts.rows, t'.actionId = t.actionId

theorem Advanced.refl (target : String) (s : InvestigationStore) : Advanced target s s :=
  ⟨⟨id, (List.map_id _).symm, fun _ _ => ⟨rfl, rfl, Or.inl rfl⟩⟩, fun t ht => ⟨t, ht, rfl⟩⟩

theorem Advanced.trans {s'' : InvestigationStore} (h : Advanced target s s') (h' : Advanced target s' s'') :
    Advanced target s s'' := by
  obtain ⟨f, hrows, hf⟩ := h.rows
  obtain ⟨g, hrows', hg⟩ := h'.rows
  refine ⟨⟨g ∘ f, by rw [hrows', hrows, List.map_map], fun a ha => ?_⟩, fun t ht => ?_⟩
  · obtain ⟨hid, hdepends, hchange⟩ := hf a ha
    have hmem : f a ∈ s'.actions.rows := by
      rw [hrows]
      exact List.mem_map_of_mem ha
    obtain ⟨hid', hdepends', hchange'⟩ := hg (f a) hmem
    refine ⟨hid'.trans hid, hdepends'.trans hdepends, ?_⟩
    rcases hchange' with hsame' | ⟨hne, hresult, t, ht, htid⟩
    · rcases hchange with hsame | ⟨hne, hresult, t, ht, htid⟩
      · exact Or.inl (hsame'.trans hsame)
      · obtain ⟨t', ht', htid'⟩ := h'.kept t ht
        exact Or.inr ⟨hne, by rw [Function.comp_apply, hsame']; exact hresult, t', ht', htid'.trans htid⟩
    · exact Or.inr ⟨hid ▸ hne, hresult, t, ht, htid.trans hid⟩
  · obtain ⟨t', ht', htid⟩ := h.kept t ht
    obtain ⟨t'', ht'', htid'⟩ := h'.kept t' ht'
    exact ⟨t'', ht'', htid'.trans htid⟩

theorem Advanced.mem_of_mem {f : InvestigationAction → InvestigationAction} (hrows : s'.actions.rows =
    s.actions.rows.map f) {a : InvestigationAction} (ha : a ∈ s.actions.rows) : f a ∈ s'.actions.rows := by
  rw [hrows]
  exact List.mem_map_of_mem ha

theorem Advanced.resultIn (h : Advanced target s s') (hresult : ResultIn s actionId) : ResultIn s' actionId := by
  obtain ⟨f, hrows, hf⟩ := h.rows
  obtain ⟨a, ha, rfl, hstatus⟩ := hresult
  obtain ⟨hid, -, hchange⟩ := hf a ha
  refine ⟨f a, Advanced.mem_of_mem hrows ha, hid, ?_⟩
  rcases hchange with hsame | ⟨-, hstatus', -⟩
  · rw [hsame]
    exact hstatus
  · exact hstatus'

/-- An action that has come to a result stalls nothing. -/
theorem Advanced.stalled (h : Advanced target s s') {id : String} (hstalled : Stalled s' target id) :
    Stalled s target id := by
  obtain ⟨f, hrows, hf⟩ := h.rows
  induction hstalled with
  | self => exact .self
  | failed hmem hended hfailed =>
    rw [hrows] at hmem
    obtain ⟨a, ha, rfl⟩ := List.mem_map.1 hmem
    obtain ⟨-, -, hsame | ⟨-, hresult, -⟩⟩ := hf a ha
    · rw [hsame] at hended hfailed ⊢
      exact .failed ha hended hfailed
    · exact absurd hresult hfailed
  | waits hmem hready hid hstalled ih =>
    rw [hrows] at hmem
    obtain ⟨a, ha, rfl⟩ := List.mem_map.1 hmem
    obtain ⟨-, -, hsame | ⟨-, hresult, -⟩⟩ := hf a ha
    · rw [hsame] at hready hid ⊢
      exact .waits ha hready hid ih
    · rw [hready] at hresult
      rcases hresult with h | h <;> cases h

/-- A run from the one state to the other, in which the target is left alone. -/
structure Reaches (target : String) (q q' : ActionSystem) : Prop where
  run : ∃ ops, q' = Runs.run step q ops
  advanced : Advanced target q.store q'.store

theorem Reaches.refl (target : String) (q : ActionSystem) : Reaches target q q := ⟨⟨[], rfl⟩, Advanced.refl _ _⟩

theorem Reaches.trans {q q' q'' : ActionSystem} (h : Reaches target q q') (h' : Reaches target q' q'') :
    Reaches target q q'' := by
  obtain ⟨ops, rfl⟩ := h.run
  obtain ⟨ops', rfl⟩ := h'.run
  exact ⟨⟨ops ++ ops', (Runs.run_append _ _ _).symm⟩, h.advanced.trans h'.advanced⟩

theorem Reaches.consistent {q q' : ActionSystem} (h : Reaches target q q') (hq : Consistent q.store) :
    Consistent q'.store := by
  obtain ⟨ops, rfl⟩ := h.run
  exact Runs.run_invariant (I := fun q : ActionSystem => Consistent q.store) (C := fun _ _ => True)
    (fun q op hI _ => step_consistent q op hI) ops q hq (Runs.along_true _ _)

variable {q : ActionSystem}

theorem runningAttempt_of_one {attempts : AttemptTable} {t : InvestigationActionAttempt}
    (h : runningAttempts attempts actionId = [t]) : runningAttempt attempts actionId = some t := by
  cases hattempt : runningAttempt attempts actionId with
  | none =>
    rw [runningAttempt_none hattempt] at h
    cases h
  | some t' =>
    have hmem := runningAttempt_some hattempt
    rw [h] at hmem
    rw [List.mem_singleton.1 hmem]

/-- What is under way can be finished. -/
theorem finish_running (hq : Consistent q.store) {a : InvestigationAction} (ha : a ∈ q.store.actions.rows)
    (hrunning : a.status = .running) :
    ∃ op, (step q op).store.actions.rows = (q.store.actions.rows.map fun b => if b.actionId = a.actionId then
        (finished .succeeded [] none).apply b else b) ∧
      (step q op).store.attempts.rows.map (·.actionId) = q.store.attempts.rows.map (·.actionId) := by
  obtain ⟨t, hone⟩ := hq.one ha hrunning
  have hfinish : ∃ s', q.store.finishInvestigationAction a.actionId a.revision .succeeded [] none = .ok s' := by
    simp only [finishInvestigationAction, bind_ok, orThrow_ok, require_ok, pure_ok]
    exact ⟨_, a, Table.get?_of_mem ha, (), decide_eq_true ⟨hrunning, rfl⟩, t, runningAttempt_of_one hone, rfl⟩
  obtain ⟨s', hs'⟩ := hfinish
  obtain ⟨-, -, -, -, hrows, hended⟩ := finish_spec hq rfl hs'
  refine ⟨.finish a.actionId a.revision ⟨.succeeded, rfl⟩ [] none, ?_⟩
  rw [step, ActionSystem.write, hs']
  exact ⟨hrows, hended.owners⟩

/-- What waits for nothing can be taken up. -/
theorem take_ready {a : InvestigationAction} (ha : a ∈ q.store.actions.rows) (hready : a.status = .ready)
    (hdepends : DependenciesEnded q.store a) :
    ∃ op, (step q op).store.actions.rows = (q.store.actions.rows.map fun b => if b.actionId = a.actionId then
        claimed.apply b else b) ∧
      (∀ t ∈ q.store.attempts.rows, t ∈ (step q op).store.attempts.rows) ∧
      ∃ t ∈ (step q op).store.attempts.rows, t.actionId = a.actionId := by
  have hfresh : ∃ attemptId, ∀ t ∈ q.store.attempts.rows, t.attemptId ≠ attemptId :=
    ⟨strokeIds.draw "" (q.store.attempts.rows.map (·.attemptId)), fun t ht heq =>
      strokeIds.fresh "" (q.store.attempts.rows.map (·.attemptId)) (heq ▸ List.mem_map_of_mem ht)⟩
  obtain ⟨attemptId, hfresh⟩ := hfresh
  have hclaimable : q.store.claimable a.authorizationVersion (some [a.actionId]) a = true := by
    simp only [claimable, Bool.and_eq_true, decide_eq_true_eq, List.all_eq_true, List.any_eq_true]
    exact ⟨⟨⟨hready, by simp⟩, trivial⟩, hdepends⟩
  obtain ⟨s', b, hclaim, hb, hclaimable', hrows⟩ := claim_takes hfresh ⟨a, ha, hclaimable⟩
  obtain rfl : b = a := by
    refine q.store.actions.eq_of_key hb ha ?_
    simp only [claimable, Bool.and_eq_true, Option.all_some, List.mem_singleton, decide_eq_true_eq] at hclaimable'
    exact hclaimable'.1.1.2
  have hnext : (step q (.claim attemptId b.authorizationVersion (some [b.actionId]))).store = s' := by
    rw [step, ActionSystem.write, hclaim]
    rfl
  refine ⟨.claim attemptId b.authorizationVersion (some [b.actionId]), ?_⟩
  rw [hnext]
  refine ⟨hrows, ?_⟩
  rcases claim_spec hclaim with hsame | ⟨d, hd, -, hrows', -, hattempts⟩
  · have htaken : claimed.apply b ∈ q.store.actions.rows := by
      rw [← hsame, hrows]
      exact List.mem_map.2 ⟨b, hb, if_pos rfl⟩
    have hstatus := congrArg InvestigationAction.status (q.store.actions.eq_of_key hb htaken rfl)
    rw [hready] at hstatus
    cases hstatus
  · obtain rfl : d = b := by
      by_contra hne
      have hother : b ∈ s'.actions.rows := by
        rw [hrows']
        exact List.mem_map.2 ⟨b, hb, if_neg fun heq => hne (q.store.actions.eq_of_key hb hd heq).symm⟩
      have htaken : claimed.apply b ∈ s'.actions.rows := by
        rw [hrows]
        exact List.mem_map.2 ⟨b, hb, if_pos rfl⟩
      have hstatus := congrArg InvestigationAction.status (s'.actions.eq_of_key hother htaken rfl)
      rw [hready] at hstatus
      cases hstatus
    rw [hattempts]
    exact ⟨fun t ht => List.mem_append_left _ ht, _, List.mem_append_right _ (List.mem_singleton_self _), rfl⟩

/-- An action under way, other than the target, can be brought to a result. -/
theorem reaches_of_running (hq : Consistent q.store) {a : InvestigationAction} (ha : a ∈ q.store.actions.rows)
    (hrunning : a.status = .running) (hne : a.actionId ≠ target) :
    ∃ q', Reaches target q q' ∧ ResultIn q'.store a.actionId := by
  obtain ⟨op, hrows, howners⟩ := finish_running hq ha hrunning
  have howner : ∀ t ∈ q.store.attempts.rows, ∃ t' ∈ (step q op).store.attempts.rows, t'.actionId = t.actionId := by
    intro t ht
    have hmem := List.mem_map_of_mem (f := (·.actionId)) ht
    rw [← howners] at hmem
    exact List.mem_map.1 hmem
  refine ⟨step q op, ⟨⟨[op], rfl⟩, ⟨⟨_, hrows, fun b hb => ?_⟩, howner⟩⟩,
    (finished .succeeded [] none).apply a, ?_, rfl, Or.inl rfl⟩
  · by_cases heq : b.actionId = a.actionId
    · rw [if_pos heq]
      obtain ⟨t, hone⟩ := hq.one ha hrunning
      obtain ⟨ht, htid, -⟩ := mem_runningAttempts.1 (hone ▸ List.mem_singleton_self t)
      obtain ⟨t', ht', htid'⟩ := howner t ht
      exact ⟨rfl, rfl, Or.inr ⟨heq ▸ hne, Or.inl rfl, t', ht', htid'.trans (htid.trans heq.symm)⟩⟩
    · rw [if_neg heq]
      exact ⟨rfl, rfl, Or.inl rfl⟩
  · rw [hrows]
    exact List.mem_map.2 ⟨a, ha, if_pos rfl⟩

/-- So can one that waits for nothing. -/
theorem reaches_of_ready (hq : Consistent q.store) {a : InvestigationAction} (ha : a ∈ q.store.actions.rows)
    (hready : a.status = .ready) (hdepends : DependenciesEnded q.store a) (hne : a.actionId ≠ target) :
    ∃ q', Reaches target q q' ∧ ResultIn q'.store a.actionId := by
  obtain ⟨op, hrows, hkept, t, ht, htid⟩ := take_ready ha hready hdepends
  have htaken : claimed.apply a ∈ (step q op).store.actions.rows := by
    rw [hrows]
    exact List.mem_map.2 ⟨a, ha, if_pos rfl⟩
  obtain ⟨op', hrows', howners⟩ := finish_running (step_consistent q op hq) htaken rfl
  have hgrown : ∀ t ∈ (step q op).store.attempts.rows,
      ∃ t' ∈ (step (step q op) op').store.attempts.rows, t'.actionId = t.actionId := by
    intro t ht
    have hmem := List.mem_map_of_mem (f := (·.actionId)) ht
    rw [← howners] at hmem
    exact List.mem_map.1 hmem
  rw [hrows, List.map_map] at hrows'
  refine ⟨step (step q op) op', ⟨⟨[op, op'], rfl⟩, ⟨⟨_, hrows', fun b hb => ?_⟩, fun t ht => hgrown t (hkept t ht)⟩⟩,
    (finished .succeeded [] none).apply (claimed.apply a), ?_, rfl, Or.inl rfl⟩
  · by_cases heq : b.actionId = a.actionId
    · obtain ⟨t', ht', htid'⟩ := hgrown t ht
      rw [Function.comp_apply, if_pos heq,
        if_pos (show (claimed.apply b).actionId = (claimed.apply a).actionId from heq)]
      exact ⟨rfl, rfl, Or.inr ⟨heq ▸ hne, Or.inl rfl, t', ht', htid'.trans (htid.trans heq.symm)⟩⟩
    · rw [Function.comp_apply, if_neg heq, if_neg (show ¬ b.actionId = (claimed.apply a).actionId from heq)]
      exact ⟨rfl, rfl, Or.inl rfl⟩
  · rw [hrows']
    exact List.mem_map.2 ⟨a, ha, by rw [Function.comp_apply, if_pos rfl, if_pos rfl]⟩

/-- Wherever the run from `q` has come to, this action can be brought to a result unless the target stalls it. -/
def Settles (target : String) (q : ActionSystem) (actionId : String) : Prop :=
  ∀ q', Reaches target q q' → ¬ Stalled q'.store target actionId →
    ∃ q'', Reaches target q' q'' ∧ ResultIn q''.store actionId

theorem settles_all {ids : List String} (hids : ∀ id ∈ ids, Settles target q id) :
    ∀ q', Reaches target q q' → (∀ id ∈ ids, ¬ Stalled q'.store target id) →
      ∃ q'', Reaches target q' q'' ∧ ∀ id ∈ ids, ResultIn q''.store id := by
  induction ids with
  | nil => exact fun q' _ _ => ⟨q', Reaches.refl _ _, fun _ hid => absurd hid List.not_mem_nil⟩
  | cons id ids ih =>
    intro q' hq' hstalled
    obtain ⟨q₁, hq₁, hresult⟩ := hids id List.mem_cons_self q' hq' (hstalled id List.mem_cons_self)
    obtain ⟨q₂, hq₂, hresults⟩ := ih (fun id hid => hids id (List.mem_cons_of_mem _ hid)) q₁ (hq'.trans hq₁)
      fun id hid hstalled' => hstalled id (List.mem_cons_of_mem _ hid) (hq₁.advanced.stalled hstalled')
    refine ⟨q₂, hq₁.trans hq₂, fun id' hid' => ?_⟩
    rcases List.mem_cons.1 hid' with rfl | hid'
    · exact hq₂.advanced.resultIn hresult
    · exact hresults id' hid'

/-- What an action waits for can be brought to a result before it, so every action that is not stalled can. -/
theorem settles (hq : Consistent q.store) (hgrounded : Grounded q.store) :
    ∀ a ∈ q.store.actions.rows, Settles target q a.actionId := by
  refine hgrounded.induction (P := Settles target q) (fun id hid => absurd hid List.not_mem_nil)
    fun a ha hdepends q' hq' hstalled => ?_
  have hq'c := hq'.consistent hq
  obtain ⟨f, hrows, hf⟩ := hq'.advanced.rows
  obtain ⟨hid, hneeds, -⟩ := hf a ha
  have hmem : f a ∈ q'.store.actions.rows := Advanced.mem_of_mem hrows ha
  rw [← hid] at hstalled ⊢
  have hne : (f a).actionId ≠ target := fun heq => hstalled (heq ▸ Stalled.self)
  by_cases hresult : isResult (f a).status
  · exact ⟨q', Reaches.refl _ _, f a, hmem, rfl, hresult⟩
  · by_cases hrunning : (f a).status = .running
    · exact reaches_of_running hq'c hmem hrunning hne
    · have hready : (f a).status = .ready := by
        by_contra hnot
        refine hstalled (.failed hmem ?_ hresult)
        cases hstatus : (f a).status <;> simp_all [ActionStatus.isLive]
      have hsettles : ∀ id ∈ (f a).dependsOn, Settles target q id := hneeds ▸ hdepends
      obtain ⟨q₁, hq₁, hresults⟩ := settles_all hsettles q' hq'
        fun id hid hstalled' => hstalled (.waits hmem hready hid hstalled')
      obtain ⟨g, hrows₁, hg⟩ := hq₁.advanced.rows
      have hmem₁ : g (f a) ∈ q₁.store.actions.rows := Advanced.mem_of_mem hrows₁ hmem
      obtain ⟨hid₁, -, hsame | ⟨-, hresult₁, -⟩⟩ := hg (f a) hmem
      · rw [hsame] at hmem₁
        obtain ⟨q₂, hq₂, hresult₂⟩ := reaches_of_ready (hq₁.consistent hq'c) hmem₁ hready hresults hne
        exact ⟨q₂, hq₁.trans hq₂, hresult₂⟩
      · exact ⟨q₁, hq₁, _, hmem₁, hid₁, hresult₁⟩

/-! ### Exactly when an action stays behind another -/

/-- The row of the target in a state in which only others have come to a result. -/
theorem Advanced.target_row (h : Advanced target s s') {d : InvestigationAction} (hd : d ∈ s.actions.rows)
    (hid : d.actionId = target) : d ∈ s'.actions.rows := by
  obtain ⟨f, hrows, hf⟩ := h.rows
  obtain ⟨-, -, hsame | ⟨hne, -⟩⟩ := hf d hd
  · rw [← hsame]
    exact Advanced.mem_of_mem hrows hd
  · exact absurd hid hne

theorem not_endedIn {d : InvestigationAction} (hd : d ∈ s.actions.rows) (hid : d.actionId = target)
    (hlive : d.status.isLive = true) : ¬ EndedIn s target := by
  rintro ⟨b, hb, hbid, hended⟩
  rw [s.actions.eq_of_key hb hd (hbid.trans hid.symm), hlive] at hended
  cases hended

/-- In no run an action is taken up before the target has ended, exactly when it is behind it. -/
theorem behind_iff (hq : Consistent q.store) (hgrounded : Grounded q.store)
    (ha : ∃ a ∈ q.store.actions.rows, a.actionId = actionId)
    (hd : ∃ d ∈ q.store.actions.rows, d.actionId = target) :
    Behind q.store actionId target ↔ ∀ ops, TakenAfter (Runs.run step q ops).store actionId target := by
  constructor
  · intro h ops
    have hrun := Runs.run_invariant (I := fun q : ActionSystem => Consistent q.store ∧ Behind q.store actionId target)
      (C := fun _ _ => True)
      (fun q op hI _ => ⟨step_consistent q op hI.1, (step_carried op hI.1).behind hI.2⟩) ops q ⟨hq, h⟩
      (Runs.along_true _ _)
    exact hrun.2.takenAfter
  · intro h
    by_contra hnot
    rw [Behind, not_or, not_and_or] at hnot
    obtain ⟨hlive, hnot⟩ := hnot
    obtain ⟨d, hd, hdid⟩ := hd
    have hdlive : d.status.isLive = true := by
      by_contra hended
      exact hlive ⟨d, hd, hdid, Bool.eq_false_iff.2 hended⟩
    have hunclaimed : Unclaimed q.store actionId := fun t ht hid => hlive (h [] ⟨t, ht, hid⟩)
    have hfree := hnot.resolve_left (not_not.2 hunclaimed)
    obtain ⟨a, ha, haid⟩ := ha
    have hready : a.status = .ready := by
      cases hstatus : a.status with
      | ready => rfl
      | running =>
        obtain ⟨t, hone⟩ := hq.one ha hstatus
        obtain ⟨ht, htid, -⟩ := mem_runningAttempts.1 (hone ▸ List.mem_singleton_self t)
        exact absurd (htid.trans haid) (hunclaimed t ht)
      | _ => exact absurd ⟨a, ha, haid, Or.inl (by rw [hstatus]; rfl)⟩ hfree
    have hstalled : ∀ id ∈ a.dependsOn, ¬ Stalled q.store target id := fun id hid hstalled =>
      hfree ⟨a, ha, haid, Or.inr ⟨hready, id, hid, hstalled⟩⟩
    have hneeded : ∀ id ∈ a.dependsOn, Settles target q id := by
      intro id hid
      obtain ⟨b, hb, rfl⟩ := List.mem_map.1 (hgrounded.needs_mem a ha id hid)
      exact settles hq hgrounded b hb
    obtain ⟨q₁, hq₁, hresults⟩ := settles_all hneeded q (Reaches.refl _ _) hstalled
    obtain ⟨ops, rfl⟩ := hq₁.run
    have hd₁ := hq₁.advanced.target_row hd hdid
    obtain ⟨f, hrows, hf⟩ := hq₁.advanced.rows
    obtain ⟨hfid, hfdepends, hsame | ⟨-, -, t, ht, htid⟩⟩ := hf a ha
    · have hmem : a ∈ (Runs.run step q ops).store.actions.rows := by
        rw [← hsame]
        exact Advanced.mem_of_mem hrows ha
      obtain ⟨op, hrows', -, t, ht, htid⟩ := take_ready hmem hready hresults
      have htaken := h (ops ++ [op])
      rw [Runs.run_append] at htaken
      have htarget : ∃ d' ∈ (step (Runs.run step q ops) op).store.actions.rows, d'.actionId = target ∧
          d'.status.isLive = true := by
        rw [hrows']
        refine ⟨_, List.mem_map_of_mem hd₁, ?_⟩
        split
        · exact ⟨hdid, rfl⟩
        · exact ⟨hdid, hdlive⟩
      obtain ⟨d', hd', hdid', hdlive'⟩ := htarget
      exact not_endedIn hd' hdid' hdlive' (htaken ⟨t, ht, htid.trans haid⟩)
    · exact not_endedIn hd₁ hdid hdlive (h ops ⟨t, ht, htid.trans haid⟩)

/-! ### What a put leaves as it was -/

/-- New rows, and on the old ones nothing that bears on the order. -/
structure Extended (s s' : InvestigationStore) : Prop where
  rows : ∃ f added, s'.actions.rows = s.actions.rows.map f ++ added ∧ ∀ a ∈ s.actions.rows,
    (f a).actionId = a.actionId ∧ (f a).dependsOn = a.dependsOn ∧ (f a).status = a.status
  attempts : s'.attempts = s.attempts

theorem Extended.refl (s : InvestigationStore) : Extended s s :=
  ⟨⟨id, [], by rw [List.map_id, List.append_nil], fun _ _ => ⟨rfl, rfl, rfl⟩⟩, rfl⟩

theorem Extended.trans {s'' : InvestigationStore} (h : Extended s s') (h' : Extended s' s'') : Extended s s'' := by
  obtain ⟨f, added, hrows, hf⟩ := h.rows
  obtain ⟨g, added', hrows', hg⟩ := h'.rows
  refine ⟨⟨g ∘ f, added.map g ++ added', ?_, fun a ha => ?_⟩, h'.attempts.trans h.attempts⟩
  · rw [hrows', hrows, List.map_append, List.map_map, List.append_assoc]
  · obtain ⟨hid, hdepends, hstatus⟩ := hf a ha
    obtain ⟨hid', hdepends', hstatus'⟩ := hg (f a) (StepCarried.mem hrows ha)
    exact ⟨hid'.trans hid, hdepends'.trans hdepends, hstatus'.trans hstatus⟩

theorem Extended.onRecord (h : Extended s s') {id : String} (hrow : ∃ a ∈ s.actions.rows, a.actionId = id) :
    ∃ a ∈ s'.actions.rows, a.actionId = id := by
  obtain ⟨f, added, hrows, hf⟩ := h.rows
  obtain ⟨a, ha, rfl⟩ := hrow
  exact ⟨f a, StepCarried.mem hrows ha, (hf a ha).1⟩

/-- The row of an id that was on record before. -/
theorem Extended.row {f : InvestigationAction → InvestigationAction} {added : List InvestigationAction}
    (hrows : s'.actions.rows = s.actions.rows.map f ++ added)
    (hf : ∀ a ∈ s.actions.rows, (f a).actionId = a.actionId ∧ (f a).dependsOn = a.dependsOn ∧
      (f a).status = a.status) {a' : InvestigationAction} (ha' : a' ∈ s'.actions.rows)
    (hold : ∃ a ∈ s.actions.rows, a.actionId = a'.actionId) : ∃ a ∈ s.actions.rows, a' = f a := by
  obtain ⟨a, ha, hid⟩ := hold
  exact ⟨a, ha, s'.actions.eq_of_key ha' (StepCarried.mem hrows ha) (hid.symm.trans (hf a ha).1.symm)⟩

theorem Extended.endedIn (h : Extended s s') (htarget : ∃ d ∈ s.actions.rows, d.actionId = target) :
    EndedIn s' target ↔ EndedIn s target := by
  obtain ⟨f, added, hrows, hf⟩ := h.rows
  constructor
  · rintro ⟨d', hd', rfl, hended⟩
    obtain ⟨d, hd, rfl⟩ := Extended.row hrows hf hd' htarget
    exact ⟨d, hd, (hf d hd).1.symm, (hf d hd).2.2 ▸ hended⟩
  · rintro ⟨d, hd, rfl, hended⟩
    exact ⟨f d, StepCarried.mem hrows hd, (hf d hd).1, (hf d hd).2.2 ▸ hended⟩

theorem Extended.stalled (h : Extended s s') (hgrounded : Grounded s) {id : String}
    (hid : ∃ a ∈ s.actions.rows, a.actionId = id) : Stalled s' target id ↔ Stalled s target id := by
  obtain ⟨f, added, hrows, hf⟩ := h.rows
  constructor
  · intro hstalled
    induction hstalled with
    | self => exact .self
    | failed ha' hended hfailed =>
      obtain ⟨a, ha, rfl⟩ := Extended.row hrows hf ha' hid
      obtain ⟨hsame, -, hstatus⟩ := hf a ha
      rw [hstatus] at hended hfailed
      rw [hsame]
      exact .failed ha hended hfailed
    | waits ha' hready hneed hstalled ih =>
      obtain ⟨a, ha, rfl⟩ := Extended.row hrows hf ha' hid
      obtain ⟨hsame, hdepends, hstatus⟩ := hf a ha
      rw [hstatus] at hready
      rw [hdepends] at hneed
      rw [hsame]
      exact .waits ha hready hneed (ih (List.mem_map.1 (hgrounded.needs_mem a ha _ hneed)))
  · intro hstalled
    clear hid
    induction hstalled with
    | self => exact .self
    | failed ha hended hfailed =>
      obtain ⟨hsame, -, hstatus⟩ := hf _ ha
      rw [← hsame]
      exact .failed (StepCarried.mem hrows ha) (hstatus ▸ hended) (hstatus ▸ hfailed)
    | waits ha hready hneed hstalled ih =>
      obtain ⟨hsame, hdepends, hstatus⟩ := hf _ ha
      rw [← hsame]
      exact .waits (StepCarried.mem hrows ha) (hstatus.trans hready) (hdepends ▸ hneed) ih

theorem Extended.behind (h : Extended s s') (hgrounded : Grounded s) (hid : ∃ a ∈ s.actions.rows, a.actionId = actionId)
    (htarget : ∃ d ∈ s.actions.rows, d.actionId = target) :
    Behind s' actionId target ↔ Behind s actionId target := by
  obtain ⟨f, added, hrows, hf⟩ := id h.rows
  have hneeds : ∀ a ∈ s.actions.rows, ∀ id ∈ a.dependsOn, ∃ d ∈ s.actions.rows, d.actionId = id := fun a ha id hid =>
    List.mem_map.1 (hgrounded.needs_mem a ha id hid)
  have hbarred : Barred s' target actionId ↔ Barred s target actionId := by
    constructor
    · rintro ⟨a', ha', rfl, hwaits⟩
      obtain ⟨a, ha, rfl⟩ := Extended.row hrows hf ha' hid
      obtain ⟨hsame, hdepends, hstatus⟩ := hf a ha
      rw [hstatus, hdepends] at hwaits
      refine ⟨a, ha, hsame.symm, hwaits.imp_right fun ⟨hready, id, hid, hstalled⟩ => ⟨hready, id, hid, ?_⟩⟩
      exact (h.stalled hgrounded (hneeds a ha id hid)).1 hstalled
    · rintro ⟨a, ha, rfl, hwaits⟩
      obtain ⟨hsame, hdepends, hstatus⟩ := hf a ha
      refine ⟨f a, StepCarried.mem hrows ha, hsame, ?_⟩
      rw [hstatus, hdepends]
      exact hwaits.imp_right fun ⟨hready, id, hid, hstalled⟩ =>
        ⟨hready, id, hid, (h.stalled hgrounded (hneeds a ha id hid)).2 hstalled⟩
  rw [Behind, Behind, h.endedIn htarget, hbarred, Unclaimed, Unclaimed, h.attempts]

/-! ### One put -/

theorem extended_merge (s : InvestigationStore) (stored value : InvestigationAction) :
    Extended s (s.mergeAction stored value).1 := by
  refine ⟨?_, attempts_mergeAction s stored value⟩
  have hupdate : ∃ f added, (s.updateAction stored.actionId (mergeInto value)).actions.rows =
      s.actions.rows.map f ++ added ∧ ∀ a ∈ s.actions.rows, (f a).actionId = a.actionId ∧
        (f a).dependsOn = a.dependsOn ∧ (f a).status = a.status := by
    refine ⟨_, [], by rw [rows_updateAction, List.append_nil], fun a _ => ?_⟩
    split <;> exact ⟨rfl, rfl, rfl⟩
  rw [mergeAction]
  dsimp only
  split
  · exact (Extended.refl s).rows
  · split
    · exact hupdate
    · exact hupdate

theorem actionId_mergeAction (s : InvestigationStore) (stored value : InvestigationAction) :
    (s.mergeAction stored value).2.actionId = stored.actionId := by
  rw [mergeAction]
  dsimp only
  split
  · rfl
  · split <;> rfl

/-- A proposal whose key is new is stored, or refused for lack of room. -/
theorem insertAction_ok {value : InvestigationAction} (hfresh : ∀ a ∈ s.actions.rows, a.actionId ≠ value.actionId)
    (hkey : ∀ a ∈ s.actions.rows, a.idempotencyKey ≠ value.idempotencyKey) :
    ∃ s' candidate, s.insertAction value = .ok (s', candidate) ∧ s'.attempts = s.attempts ∧
      s'.actions.rows = s.actions.rows ++ [candidate] ∧ (candidate = value ∨ candidate = capacityBlocked value) := by
  have hinsert : ∀ candidate : InvestigationAction, candidate.actionId = value.actionId →
      candidate.idempotencyKey = value.idempotencyKey →
      (s.actions.insertOrIgnore candidate).rows = s.actions.rows ++ [candidate] ∧
        (s.actions.insertOrIgnore candidate).rows.find? (fun a => a.idempotencyKey = value.idempotencyKey) =
          some candidate := by
    intro candidate hid hcandidate
    have hrows : (s.actions.insertOrIgnore candidate).rows = s.actions.rows ++ [candidate] :=
      IndexedTable.insertOrIgnore_fresh fun a ha => ⟨hid ▸ hfresh a ha, hcandidate ▸ hkey a ha⟩
    have hnone : s.actions.rows.find? (fun a => a.idempotencyKey = value.idempotencyKey) = none :=
      List.find?_eq_none.2 fun a ha => by simpa using hkey a ha
    refine ⟨hrows, ?_⟩
    rw [hrows, List.find?_append, hnone]
    simp [hcandidate]
  cases hcap : s.capacityExceeded value with
  | true =>
    obtain ⟨hrows, hfound⟩ := hinsert (capacityBlocked value) rfl rfl
    have hok : s.insertAction value = .ok (({ s with actions := s.actions.insertOrIgnore (capacityBlocked value) } :
        InvestigationStore).closeObligations (fun o => o.obligationId ∈ value.obligationIds) capacityClosing,
        capacityBlocked value) := by
      rw [insertAction, hcap, if_pos rfl, hfound]
      rfl
    exact ⟨_, _, hok, rfl, hrows, Or.inr rfl⟩
  | false =>
    obtain ⟨hrows, hfound⟩ := hinsert value rfl rfl
    have hok : s.insertAction value = .ok ({ s with actions := s.actions.insertOrIgnore value }, value) := by
      rw [insertAction, hcap, if_neg Bool.false_ne_true, hfound]
      rfl
    exact ⟨_, _, hok, rfl, hrows, Or.inl rfl⟩

/-- A proposal with a new id, for obligations and dependencies on record, is merged or stored. -/
theorem put_ok {value : InvestigationAction} (hfresh : ∀ a ∈ s.actions.rows, a.actionId ≠ value.actionId)
    (hdepends : ∀ id ∈ value.dependsOn, ∃ d ∈ s.actions.rows, d.actionId = id)
    (hobligations : ∀ id ∈ value.obligationIds, ∃ o ∈ s.obligations.rows, o.obligationId = id) :
    ∃ s' stored, s.putInvestigationAction value = .ok (s', stored) ∧ Extended s s' ∧
      ((∃ old ∈ s.actions.rows, old.idempotencyKey = value.idempotencyKey ∧ stored.actionId = old.actionId) ∨
        ((∀ old ∈ s.actions.rows, old.idempotencyKey ≠ value.idempotencyKey) ∧
          stored ∈ s'.actions.rows ∧ (stored = value ∨ stored = capacityBlocked value))) := by
  have hself : value.actionId ∉ value.dependsOn := fun hmem => by
    obtain ⟨d, hd, hid⟩ := hdepends _ hmem
    exact hfresh d hd hid
  cases hfind : s.actions.rows.find? fun a => a.idempotencyKey = value.idempotencyKey with
  | some old =>
    have hok : s.putInvestigationAction value = .ok (s.mergeAction old value) := by
      simp only [putInvestigationAction, bind_ok, require_ok, hfind]
      exact ⟨(), decide_eq_true hself, (), by simpa using hdepends, (), by simpa using hobligations, rfl⟩
    have hkey := List.find?_some hfind
    exact ⟨_, _, hok, extended_merge s old value, Or.inl ⟨old, List.mem_of_find?_eq_some hfind,
      of_decide_eq_true hkey, actionId_mergeAction s old value⟩⟩
  | none =>
    have hnone : ∀ a ∈ s.actions.rows, a.idempotencyKey ≠ value.idempotencyKey := fun a ha => by
      simpa using List.find?_eq_none.1 hfind a ha
    obtain ⟨s', candidate, hinsert, hattempts, hrows, hcandidate⟩ := insertAction_ok hfresh hnone
    have hok : s.putInvestigationAction value = .ok (s', candidate) := by
      simp only [putInvestigationAction, bind_ok, require_ok, hfind]
      exact ⟨(), decide_eq_true hself, (), by simpa using hdepends, (), by simpa using hobligations, hinsert⟩
    refine ⟨s', candidate, hok, ⟨⟨id, [candidate], by rw [hrows, List.map_id], fun _ _ => ⟨rfl, rfl, rfl⟩⟩, hattempts⟩,
      Or.inr ⟨hnone, ?_, hcandidate⟩⟩
    rw [hrows]
    exact List.mem_append_right _ (List.mem_singleton_self _)

end HuntWarden.Dependencies
