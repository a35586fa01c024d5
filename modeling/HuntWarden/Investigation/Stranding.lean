import Mathlib.Data.Fintype.Defs
import HuntWarden.Investigation.ActionExecutor

/-! No stranded obligation. An obligation that is QUEUED waits for an action that lists it, so one of
    those must be READY or RUNNING. Planning, merging, claiming and the executor keep this. Three
    operations end a live action without looking at what it lists: the authorization refresh, the
    recovery of an action that may not be replayed, and a worker whose copy misses what was merged
    while it ran. `KeepsCover` says when they do no harm, and then no run strands an obligation. -/

namespace HuntWarden.ActionExecutor

open Outcome InvestigationStore

/-- Some live action lists the obligation. -/
def Covered (s : InvestigationStore) (obligationId : String) : Prop :=
  ∃ a ∈ s.actions.rows, obligationId ∈ a.obligationIds ∧ a.status.isLive = true

/-- Every obligation that waits has an action to wait for. -/
def NoStranded (s : InvestigationStore) : Prop :=
  ∀ o ∈ s.obligations.rows, o.status = .queued → Covered s o.obligationId

/-- An obligation of the action that waits is also listed by an action of the given kind. -/
def ListedElsewhere (s : InvestigationStore) (a : InvestigationAction)
    (keeps : InvestigationAction → Prop) : Prop :=
  ∀ o ∈ s.obligations.rows, o.status = .queued → o.obligationId ∈ a.obligationIds →
    ∃ b ∈ s.actions.rows, o.obligationId ∈ b.obligationIds ∧ keeps b

/-- The step ends no action that is the last hope of a waiting obligation it will not look at. -/
def KeepsCover (s : System) : Op → Prop
  | .refresh version => ∀ a ∈ s.store.actions.rows, staleReady version a = true →
      ListedElsewhere s.store a fun b => b.status.isLive = true ∧ staleReady version b = false
  | .recover => ∀ a ∈ s.store.actions.rows, a.status = .running → a.replayPolicy ≠ .safeReobserve →
      ListedElsewhere s.store a fun b =>
        b.status = .ready ∨ (b.status = .running ∧ b.replayPolicy = .safeReobserve)
  | .finish actionId _ => ∀ claimed ∈ s.inFlight.find? (fun a => a.actionId = actionId),
      ∀ a ∈ s.store.actions.rows, a.actionId = actionId →
        ∀ o ∈ s.store.obligations.rows, o.status = .queued → o.obligationId ∈ a.obligationIds →
          o.obligationId ∈ claimed.obligationIds ∨ ∃ b ∈ s.store.actions.rows,
            b.actionId ≠ actionId ∧ o.obligationId ∈ b.obligationIds ∧ b.status.isLive = true
  | _ => True

instance : DecidablePred NoStranded := fun s =>
  inferInstanceAs (Decidable (∀ o ∈ s.obligations.rows, o.status = .queued →
    ∃ a ∈ s.actions.rows, o.obligationId ∈ a.obligationIds ∧ a.status.isLive = true))

instance (s : System) (op : Op) : Decidable (KeepsCover s op) := by
  unfold KeepsCover ListedElsewhere
  cases op <;> infer_instance

/-- It is enough to follow the obligations that still wait, and the live actions that list them. -/
theorem NoStranded.step {s s' : InvestigationStore} (h : NoStranded s)
    (hstep : ∀ o' ∈ s'.obligations.rows, o'.status = .queued → o' ∈ s.obligations.rows ∧
      ∀ a ∈ s.actions.rows, o'.obligationId ∈ a.obligationIds → a.status.isLive = true →
        Covered s' o'.obligationId) : NoStranded s' := by
  intro o' ho' hqueued
  obtain ⟨ho, hcover⟩ := hstep o' ho' hqueued
  obtain ⟨a, ha, hmem, hlive⟩ := h o' ho hqueued
  exact hcover a ha hmem hlive

/-! ### Closing and resolving -/

/-- An obligation that still waits after a closing was not selected by it. -/
theorem queued_of_closed {s : InvestigationStore} {selected : InvestigationObligation → Bool}
    {close : Closing} (hclose : ∀ o, selected o = true → close.status o ≠ .queued)
    {o' : InvestigationObligation} (ho' : o' ∈ (s.closeObligations selected close).obligations.rows)
    (hqueued : o'.status = .queued) : o' ∈ s.obligations.rows ∧ selected o' = false := by
  obtain ⟨o, ho, rfl⟩ := mem_closeObligations.1 ho'
  by_cases hsel : (o.status.isOpen && selected o) = true
  · rw [if_pos hsel] at hqueued
    exact absurd hqueued (hclose o (Bool.and_eq_true _ _ ▸ hsel).2)
  · rw [if_neg hsel] at hqueued ⊢
    refine ⟨ho, ?_⟩
    simpa [hqueued, ObligationStatus.isOpen] using hsel

theorem sharedVerdict_eq_none {contributors : List InvestigationAction} {ended : Verdict} :
    sharedVerdict contributors ended = none ↔ ∃ a ∈ contributors, a.status.isLive = true := by
  rw [← List.any_eq_true, sharedVerdict]
  cases contributors.any fun a => a.status.isLive with
  | true => simp
  | false => simp only [Bool.false_eq_true, if_false, iff_false]; split <;> simp

/-- What resolving leaves waiting is covered, or none of the ended action's business. -/
theorem covered_of_resolved {s : InvestigationStore} {action : InvestigationAction} {ended : Verdict}
    {refs : List String} {reason : Option String} {o' : InvestigationObligation}
    (ho' : o' ∈ (resolveObligations s action ended refs reason).obligations.rows)
    (hqueued : o'.status = .queued) : o' ∈ s.obligations.rows ∧
      (o'.obligationId ∈ action.obligationIds → Covered s o'.obligationId) := by
  have hclose : ∀ o : InvestigationObligation, decide (o.obligationId ∈ action.obligationIds ∧
      (sharedVerdict (s.contributors o.obligationId) ended).isSome) = true →
      (resolveClosing s ended refs reason).status o ≠ .queued := by
    intro o ho
    obtain ⟨verdict, hverdict⟩ := Option.isSome_iff_exists.1 (of_decide_eq_true ho).2
    simp only [resolveClosing, hverdict]
    cases verdict <;> simp [Verdict.status]
  obtain ⟨ho, hsel⟩ := queued_of_closed hclose ho' hqueued
  refine ⟨ho, fun hmem => ?_⟩
  have hnone : sharedVerdict (s.contributors o'.obligationId) ended = none := by
    simpa [hmem] using hsel
  obtain ⟨a, ha, hlive⟩ := sharedVerdict_eq_none.1 hnone
  obtain ⟨ha, hlist⟩ := mem_contributors.1 ha
  exact ⟨a, ha, hlist, hlive⟩

/-! ### The shape of the tables -/

/-- Actions keep their ids and lists, obligations their ids. -/
structure SameShape (s s' : InvestigationStore) : Prop where
  actions : ∀ a' ∈ s'.actions.rows, ∃ a ∈ s.actions.rows,
    a'.actionId = a.actionId ∧ a'.obligationIds = a.obligationIds
  obligations : ∀ o' ∈ s'.obligations.rows, ∃ o ∈ s.obligations.rows,
    o'.obligationId = o.obligationId
  kept : ∀ o ∈ s.obligations.rows, ∃ o' ∈ s'.obligations.rows, o'.obligationId = o.obligationId

theorem SameShape.refl (s : InvestigationStore) : SameShape s s :=
  ⟨fun a h => ⟨a, h, rfl, rfl⟩, fun o h => ⟨o, h, rfl⟩, fun o h => ⟨o, h, rfl⟩⟩

theorem SameShape.trans {s₁ s₂ s₃ : InvestigationStore} (h : SameShape s₁ s₂)
    (h' : SameShape s₂ s₃) : SameShape s₁ s₃ where
  actions a'' ha'' := by
    obtain ⟨a', ha', hid', hlist'⟩ := h'.actions a'' ha''
    obtain ⟨a, ha, hid, hlist⟩ := h.actions a' ha'
    exact ⟨a, ha, hid'.trans hid, hlist'.trans hlist⟩
  obligations o'' ho'' := by
    obtain ⟨o', ho', hid'⟩ := h'.obligations o'' ho''
    obtain ⟨o, ho, hid⟩ := h.obligations o' ho'
    exact ⟨o, ho, hid'.trans hid⟩
  kept o ho := by
    obtain ⟨o', ho', hid⟩ := h.kept o ho
    obtain ⟨o'', ho'', hid'⟩ := h'.kept o' ho'
    exact ⟨o'', ho'', hid'.trans hid⟩

theorem sameShape_close (s : InvestigationStore) (selected : InvestigationObligation → Bool)
    (close : Closing) : SameShape s (s.closeObligations selected close) where
  actions a ha := ⟨a, ha, rfl, rfl⟩
  obligations o' ho' := by
    obtain ⟨o, ho, rfl⟩ := mem_closeObligations.1 ho'
    exact ⟨o, ho, by split <;> rfl⟩
  kept o ho := ⟨_, mem_closeObligations.2 ⟨o, ho, rfl⟩, by split <;> rfl⟩

/-- Rewriting actions without touching what they list. -/
theorem sameShape_modify {s s' : InvestigationStore} {selected : InvestigationAction → Bool}
    {f : ActionRewrite} (hf : ∀ a, (f.apply a).obligationIds = a.obligationIds)
    (hactions : s'.actions = s.actions.modify selected f)
    (hobligations : s'.obligations = s.obligations) : SameShape s s' where
  actions a' ha' := by
    rw [hactions] at ha'
    obtain ⟨a, ha, rfl⟩ := IndexedTable.mem_modify.1 ha'
    refine ⟨a, ha, ?_⟩
    split
    · exact ⟨f.key_apply a, hf a⟩
    · exact ⟨rfl, rfl⟩
  obligations o ho := ⟨o, hobligations ▸ ho, rfl⟩
  kept o ho := ⟨o, hobligations ▸ ho, rfl⟩

theorem sameShape_update (s : InvestigationStore) (actionId : String) {f : ActionRewrite}
    (hf : ∀ a, (f.apply a).obligationIds = a.obligationIds) :
    SameShape s (s.updateAction actionId f) :=
  sameShape_modify hf rfl rfl

/-- Ids come from the supply, lists have no repetitions and name obligations on record. -/
structure Wired (ids : IdSupply) (drawn : ℕ) (s : InvestigationStore) : Prop where
  actionIds : ∀ a ∈ s.actions.rows, ∃ n < drawn, a.actionId = ids.createId .investigationAction n
  obligationIds : ∀ o ∈ s.obligations.rows, ∃ n < drawn, o.obligationId = ids.createId .obligation n
  nodup : ∀ a ∈ s.actions.rows, a.obligationIds.Nodup
  listed : ∀ a ∈ s.actions.rows, ∀ id ∈ a.obligationIds, ∃ o ∈ s.obligations.rows, o.obligationId = id

variable {ids : IdSupply}

theorem Wired.mono {n m : ℕ} {s : InvestigationStore} (h : Wired ids n s) (hnm : n ≤ m) :
    Wired ids m s where
  actionIds a ha := by
    obtain ⟨k, hk, hid⟩ := h.actionIds a ha
    exact ⟨k, hk.trans_le hnm, hid⟩
  obligationIds o ho := by
    obtain ⟨k, hk, hid⟩ := h.obligationIds o ho
    exact ⟨k, hk.trans_le hnm, hid⟩
  nodup := h.nodup
  listed := h.listed

theorem Wired.of_sameShape {n : ℕ} {s s' : InvestigationStore} (h : Wired ids n s)
    (hs : SameShape s s') : Wired ids n s' where
  actionIds a' ha' := by
    obtain ⟨a, ha, hid, -⟩ := hs.actions a' ha'
    rw [hid]; exact h.actionIds a ha
  obligationIds o' ho' := by
    obtain ⟨o, ho, hid⟩ := hs.obligations o' ho'
    rw [hid]; exact h.obligationIds o ho
  nodup a' ha' := by
    obtain ⟨a, ha, -, hlist⟩ := hs.actions a' ha'
    rw [hlist]; exact h.nodup a ha
  listed a' ha' id hid := by
    obtain ⟨a, ha, -, hlist⟩ := hs.actions a' ha'
    obtain ⟨o, ho, rfl⟩ := h.listed a ha id (hlist ▸ hid)
    exact hs.kept o ho

/-- A new action row whose list is on record. -/
theorem Wired.of_insert {n : ℕ} {s s' : InvestigationStore} {value : InvestigationAction}
    (h : Wired ids n s) (hid : ∃ k < n, value.actionId = ids.createId .investigationAction k)
    (hnodup : value.obligationIds.Nodup)
    (hlisted : ∀ id ∈ value.obligationIds, ∃ o ∈ s.obligations.rows, o.obligationId = id)
    (hactions : s'.actions.rows = s.actions.rows ++ [value])
    (hobligations : s'.obligations = s.obligations) : Wired ids n s' := by
  have hmem : ∀ a ∈ s'.actions.rows, a ∈ s.actions.rows ∨ a = value := by simp [hactions]
  refine ⟨fun a ha => ?_, fun o ho => h.obligationIds o (hobligations ▸ ho), fun a ha => ?_,
    fun a ha => ?_⟩
  · rcases hmem a ha with ha | rfl
    · exact h.actionIds a ha
    · exact hid
  · rcases hmem a ha with ha | rfl
    · exact h.nodup a ha
    · exact hnodup
  · rw [hobligations]
    rcases hmem a ha with ha | rfl
    · exact h.listed a ha
    · exact hlisted

/-- A proposal merged into a stored action. -/
theorem Wired.of_merge {n : ℕ} {s : InvestigationStore} {value : InvestigationAction}
    (h : Wired ids n s) (actionId : String)
    (hlisted : ∀ id ∈ value.obligationIds, ∃ o ∈ s.obligations.rows, o.obligationId = id) :
    Wired ids n (s.updateAction actionId (mergeInto value)) := by
  refine ⟨fun a' ha' => ?_, h.obligationIds, fun a' ha' => ?_, fun a' ha' => ?_⟩ <;>
    obtain ⟨a, ha, rfl⟩ := mem_updateAction.1 ha'
  · obtain ⟨k, hk, hid⟩ := h.actionIds a ha
    exact ⟨k, hk, by split <;> exact hid⟩
  · split
    · exact Js.nodup_addAll List.nodup_nil
    · exact h.nodup a ha
  · split
    · intro id hid
      rcases List.mem_append.1 (Js.mem_distinct.1 hid) with hid | hid
      · exact h.listed a ha id hid
      · exact hlisted id hid
    · exact h.listed a ha

/-! ### Proposals -/

/-- A proposal under a fresh id, for obligations on record and without dependencies, is accepted. -/
theorem putInvestigationAction_accepted {s : InvestigationStore} {value : InvestigationAction}
    (hdepends : value.dependsOn = [])
    (hlisted : ∀ id ∈ value.obligationIds, ∃ o ∈ s.obligations.rows, o.obligationId = id)
    (hfresh : ∀ a ∈ s.actions.rows, a.actionId ≠ value.actionId) :
    ∃ r, s.putInvestigationAction value = .ok r := by
  have hrecord : (value.obligationIds.all fun id =>
      s.obligations.rows.any fun o => o.obligationId = id) = true := by simpa using hlisted
  simp only [putInvestigationAction, bind_ok, require_ok]
  cases hfind : s.actions.rows.find? fun a => a.idempotencyKey = value.idempotencyKey with
  | some old =>
    exact ⟨s.mergeAction old value, (), by simp [hdepends], (), by simp [hdepends], (), hrecord, rfl⟩
  | none =>
    have hkey : ∀ a ∈ s.actions.rows, a.idempotencyKey ≠ value.idempotencyKey := by
      simpa using List.find?_eq_none.1 hfind
    have hinsert : ∀ candidate : InvestigationAction, candidate.actionId = value.actionId →
        candidate.idempotencyKey = value.idempotencyKey →
        (s.actions.insertOrIgnore candidate).rows.find?
          (fun a => a.idempotencyKey = value.idempotencyKey) = some candidate := by
      intro candidate hid hk
      rw [IndexedTable.insertOrIgnore_fresh fun x hx =>
        ⟨hid ▸ hfresh x hx, hk ▸ hkey x hx⟩, List.find?_append, hfind]
      simp [hk]
    have hstored : ∃ r, s.insertAction value = .ok r := by
      simp only [insertAction, bind_ok, orThrow_ok]
      by_cases hcap : s.capacityExceeded value = true
      · simp only [if_pos hcap]
        exact ⟨_, capacityBlocked value, hinsert _ rfl rfl, rfl⟩
      · simp only [if_neg hcap]
        exact ⟨_, value, hinsert value rfl rfl, rfl⟩
    obtain ⟨r, hr⟩ := hstored
    exact ⟨r, (), by simp [hdepends], (), by simp [hdepends], (), hrecord, hr⟩

/-- Obligations that wait are covered, but for the one this proposal is about to serve. -/
def CoveredBut (s : InvestigationStore) (value : InvestigationAction) : Prop :=
  ∀ o ∈ s.obligations.rows, o.status = .queued → Covered s o.obligationId ∨
    (o.obligationId ∈ value.obligationIds ∧ value.status = .ready ∧
      ∀ a ∈ s.actions.rows, o.obligationId ∉ a.obligationIds)

theorem covered_merge {s : InvestigationStore} {value old : InvestigationAction} {id : String}
    (hold : old ∈ s.actions.rows) (h : Covered s id) :
    Covered (s.updateAction old.actionId (mergeInto value)) id := by
  obtain ⟨a, ha, hmem, hlive⟩ := h
  by_cases hid : a.actionId = old.actionId
  · obtain rfl := s.actions.eq_of_key ha hold hid
    exact ⟨_, updateAction_self ha, Js.mem_distinct.2 (List.mem_append_left _ hmem), hlive⟩
  · exact ⟨a, updateAction_other ha hid, hmem, hlive⟩

theorem put_noStranded {n : ℕ} {s s' : InvestigationStore} {value stored : InvestigationAction}
    (hw : Wired ids n s) (hcover : CoveredBut s value)
    (h : s.putInvestigationAction value = .ok (s', stored)) : NoStranded s' := by
  obtain ⟨-, ⟨hactions, hobligations⟩ | ⟨hactions, hobligations⟩ | ⟨old, hold, -, rfl⟩⟩ :=
    putInvestigationAction_cases h
  · -- stored as a new action
    intro o ho hqueued
    rw [hobligations] at ho
    rcases hcover o ho hqueued with ⟨a, ha, hmem, hlive⟩ | ⟨hmem, hready, -⟩
    · exact ⟨a, by rw [hactions]; exact List.mem_append_left _ ha, hmem, hlive⟩
    · exact ⟨value, by simp [hactions], hmem, by rw [hready]; rfl⟩
  · -- refused: what it lists is closed
    intro o ho hqueued
    rw [hobligations] at ho
    obtain ⟨ho, hsel⟩ := queued_of_closed (fun _ _ => by simp [capacityClosing]) ho hqueued
    rcases hcover o ho hqueued with ⟨a, ha, hmem, hlive⟩ | ⟨hmem, -⟩
    · exact ⟨a, by rw [hactions]; exact List.mem_append_left _ ha, hmem, hlive⟩
    · simp [hmem] at hsel
  · rcases mergeAction_cases (s := s) (hw.nodup old hold) with ⟨hall, heq⟩ | ⟨hlive, heq⟩ |
      ⟨-, -, heq⟩ <;> rw [heq]
    · -- nothing new
      intro o ho hqueued
      rcases hcover o ho hqueued with hc | ⟨hmem, -, hnone⟩
      · exact hc
      · exact absurd (hall _ hmem) (hnone old hold)
    · -- merged into a live action
      intro o ho hqueued
      rcases hcover o ho hqueued with hc | ⟨hmem, -, -⟩
      · exact covered_merge hold hc
      · exact ⟨_, updateAction_self hold, Js.mem_distinct.2 (List.mem_append_right _ hmem), hlive⟩
    · -- merged into an ended action: what the proposal lists is closed
      intro o ho hqueued
      have hclose : ∀ x : InvestigationObligation,
          decide (x.obligationId ∈ value.obligationIds) = true →
          (reuseClosing old).status x ≠ .queued := fun x _ => by
        rw [reuseClosing_status]; cases reuseVerdict old <;> simp [Verdict.status]
      obtain ⟨ho, hsel⟩ := queued_of_closed hclose ho hqueued
      rcases hcover o ho hqueued with hc | ⟨hmem, -⟩
      · exact covered_merge hold hc
      · simp [hmem] at hsel

theorem put_wired {n : ℕ} {s s' : InvestigationStore} {value stored : InvestigationAction}
    (hw : Wired ids n s) (hid : ∃ k < n, value.actionId = ids.createId .investigationAction k)
    (hnodup : value.obligationIds.Nodup)
    (h : s.putInvestigationAction value = .ok (s', stored)) : Wired ids n s' := by
  obtain ⟨hlisted, ⟨hactions, hobligations⟩ | ⟨hactions, hobligations⟩ | ⟨old, hold, -, rfl⟩⟩ :=
    putInvestigationAction_cases h
  · exact hw.of_insert hid hnodup hlisted hactions hobligations
  · have hclosed := hw.of_sameShape
      (sameShape_close s (fun o => o.obligationId ∈ value.obligationIds) capacityClosing)
    have hlisted' : ∀ id ∈ (capacityBlocked value).obligationIds, ∃ o ∈ (s.closeObligations
        (fun o => o.obligationId ∈ value.obligationIds) capacityClosing).obligations.rows,
        o.obligationId = id := by
      intro id hmem
      obtain ⟨o, ho, rfl⟩ := hlisted id hmem
      exact (sameShape_close s _ _).kept o ho
    exact Wired.of_insert hclosed (by exact hid) (by exact hnodup) hlisted' hactions hobligations
  · rcases mergeAction_cases (s := s) (hw.nodup old hold) with ⟨-, heq⟩ | ⟨-, heq⟩ | ⟨-, -, heq⟩ <;>
      rw [heq]
    · exact hw
    · exact hw.of_merge _ hlisted
    · exact (hw.of_merge _ hlisted).of_sameShape (sameShape_close _ _ _)

/-- An obligation recorded under a fresh id. -/
theorem Wired.of_obligation {n : ℕ} {s s' : InvestigationStore}
    {value stored : InvestigationObligation} (h : Wired ids n s)
    (hid : value.obligationId = ids.createId .obligation n)
    (hput : s.putInvestigationObligation value = .ok (s', stored)) : Wired ids (n + 1) s' := by
  obtain ⟨-, hactions, hsame | ⟨-, hrows⟩⟩ := putInvestigationObligation_ok hput
  · have hshape : SameShape s s' := ⟨fun a ha => ⟨a, hactions ▸ ha, rfl, rfl⟩,
      fun o ho => ⟨o, hsame ▸ ho, rfl⟩, fun o ho => ⟨o, hsame ▸ ho, rfl⟩⟩
    exact (h.of_sameShape hshape).mono (Nat.le_succ n)
  · have h' := h.mono (Nat.le_succ n)
    refine ⟨hactions ▸ h'.actionIds, fun o ho => ?_, hactions ▸ h.nodup, fun a ha id hmem => ?_⟩
    · rcases List.mem_append.1 (hrows ▸ ho) with ho | ho
      · exact h'.obligationIds o ho
      · exact ⟨n, Nat.lt_succ_self n, by rw [List.mem_singleton.1 ho, hid]⟩
    · obtain ⟨o, ho, hoid⟩ := h.listed a (hactions ▸ ha) id hmem
      exact ⟨o, hrows ▸ List.mem_append_left _ ho, hoid⟩

/-- No action lists an id that has not been drawn yet. -/
theorem Wired.unlisted {n : ℕ} {s : InvestigationStore} (h : Wired ids n s)
    {a : InvestigationAction} (ha : a ∈ s.actions.rows) :
    ids.createId .obligation n ∉ a.obligationIds := by
  intro hmem
  obtain ⟨o, ho, hoid⟩ := h.listed a ha _ hmem
  obtain ⟨k, hk, hkid⟩ := h.obligationIds o ho
  exact absurd (ids.injective _ (hkid.symm.trans hoid)) hk.ne

/-! ### The ids of a run -/

/-- What every turn keeps holds wherever the loop stops. -/
theorem eachUntilThrow_induction {P : InvestigationStore → Prop}
    {body : InvestigationStore → InvestigationAction → Except Thrown InvestigationStore}
    {as : List InvestigationAction} {s : InvestigationStore} (hs : P s)
    (hbody : ∀ s s' a, a ∈ as → P s → body s a = .ok s' → P s') :
    P (eachUntilThrow body s as) := by
  induction as generalizing s with
  | nil => exact hs
  | cons a rest ih =>
    simp only [eachUntilThrow]
    split
    · rename_i s' hok
      exact ih (hbody s s' a (List.mem_cons_self ..) hs hok)
        fun s s' b hb => hbody s s' b (List.mem_cons_of_mem _ hb)
    · exact hs

theorem blockDependent_sameShape {actions : List InvestigationAction} {s s' : InvestigationStore}
    {a : InvestigationAction} (hok : blockDependent actions s a = .ok s') : SameShape s s' := by
  unfold blockDependent at hok
  split at hok
  · split at hok
    · cases hok; exact SameShape.refl s
    · simp only [bind_ok, pure_ok] at hok
      obtain ⟨mid, hblock, rfl⟩ := hok
      obtain ⟨-, -, -, -, rfl⟩ := blockReadyInvestigationAction_ok hblock
      exact (sameShape_update s a.actionId fun _ => rfl).trans (sameShape_close _ _ _)
  · cases hok; exact SameShape.refl s

/-- The refresh rewrites stale READY actions and nothing else. -/
theorem refresh_kept {s : InvestigationStore} (version : String) :
    SameShape s (refreshInvestigationAuthorization s version) ∧
    (refreshInvestigationAuthorization s version).obligations = s.obligations ∧
    ∀ a ∈ s.actions.rows, staleReady version a = false →
      a ∈ (refreshInvestigationAuthorization s version).actions.rows := by
  refine eachUntilThrow_induction (P := fun st => SameShape s st ∧ st.obligations = s.obligations ∧
      ∀ a ∈ s.actions.rows, staleReady version a = false → a ∈ st.actions.rows)
    ⟨SameShape.refl s, rfl, fun a ha _ => ha⟩ fun st st' a ha hst hok => ?_
  obtain ⟨hshape, hobligations, hkept⟩ := hst
  split at hok
  · rename_i hstale
    obtain ⟨b, hb, hbid, -, rfl⟩ := blockReadyInvestigationAction_ok hok
    refine ⟨hshape.trans (sameShape_update st a.actionId fun _ => rfl), hobligations, ?_⟩
    intro c hc hfresh
    refine updateAction_other (hkept c hc hfresh) fun hcid => ?_
    obtain rfl := s.actions.eq_of_key hc (mem_listInvestigationActions.1 ha) hcid
    rw [hstale] at hfresh; cases hfresh
  · cases hok; exact ⟨hshape, hobligations, hkept⟩

theorem finishClaimed_sameShape {s s' : InvestigationStore} {copy : InvestigationAction}
    {outcome : ActionOutcome} (hok : finishClaimed s copy outcome = .ok s') : SameShape s s' := by
  simp only [finishClaimed, bind_ok, pure_ok] at hok
  obtain ⟨mid, hfinish, rfl⟩ := hok
  obtain ⟨a, -, -, -, -, hobligations, hactions⟩ := finishInvestigationAction_ok hfinish
  exact (sameShape_modify (fun _ => rfl) hactions hobligations).trans (sameShape_close mid _ _)

theorem Wired.of_putProposal {n : ℕ} {store : InvestigationStore} {value : InvestigationAction}
    (h : Wired ids n store) (hid : ∃ k < n, value.actionId = ids.createId .investigationAction k)
    (hnodup : value.obligationIds.Nodup) : Wired ids n (putProposal store value) := by
  unfold putProposal
  split
  · rename_i hput; exact put_wired h hid hnodup hput
  · exact h

theorem step_wired {s : System} (h : Wired ids s.drawn s.store) (op : Op) :
    Wired ids (step ids s op).drawn (step ids s op).store := by
  cases op with
  | note obligation hnot =>
    simp only [step]
    split
    · rename_i hput; exact h.of_obligation rfl hput
    · exact h
  | put action hnodup =>
    exact (h.mono (Nat.le_succ _)).of_putProposal ⟨s.drawn, Nat.lt_succ_self _, rfl⟩ hnodup
  | plan obligation action =>
    simp only [step, proposal]
    split
    · rename_i hp
      split at hp
      · rename_i hput
        cases hp
        exact (h.of_obligation rfl hput).of_putProposal ⟨s.drawn, Nat.lt_succ_self _, rfl⟩
          (List.nodup_singleton _)
      · cases hp
    · exact h
  | claim version eligible =>
    simp only [step]
    split
    · rename_i hclaim
      rcases claimNextInvestigationAction_ok hclaim with
        ⟨-, rfl⟩ | ⟨a, ha, -, -, hobligations, hactions⟩
      · exact h.mono (Nat.le_succ _)
      · exact (h.of_sameShape (sameShape_modify (fun _ => rfl) hactions hobligations)).mono
          (Nat.le_succ _)
    · exact h
  | finish actionId outcome =>
    simp only [step]
    split
    · exact transact_induction (P := fun st => Wired ids s.drawn st) h fun store hok =>
        h.of_sameShape (finishClaimed_sameShape hok)
    · exact h
  | blockDependents =>
    exact h.of_sameShape (eachUntilThrow_induction (P := SameShape s.store) (SameShape.refl _)
      fun _ _ _ _ hst hok => hst.trans (blockDependent_sameShape hok))
  | recover => exact h.of_sameShape (sameShape_modify (fun _ => rfl) rfl rfl)
  | refresh version => exact h.of_sameShape (refresh_kept version).1

theorem wired_empty : Wired ids System.empty.drawn System.empty.store :=
  ⟨fun a ha => by simp [System.empty, InvestigationStore.empty] at ha,
    fun o ho => by simp [System.empty, InvestigationStore.empty] at ho,
    fun a ha => by simp [System.empty, InvestigationStore.empty] at ha,
    fun a ha => by simp [System.empty, InvestigationStore.empty] at ha⟩

theorem wired_run (ops : List Op) : Wired ids (runOps ids ops).drawn (runOps ids ops).store :=
  Runs.run_invariant (I := fun s : System => Wired ids s.drawn s.store)
    (fun _ op h _ => step_wired h op) ops System.empty wired_empty (Runs.along_true _ _)

/-! ### Steps that leave nothing stranded -/

section

variable {s : System} (hw : Wired ids s.drawn s.store) (h : NoStranded s.store)
include h

theorem note_noStranded (obligation : InvestigationObligation)
    (hnot : obligation.status ≠ .queued) : NoStranded (step ids s (.note obligation hnot)).store := by
  simp only [step]
  split
  · rename_i store stored hput
    refine h.step fun o ho hqueued => ?_
    obtain ⟨-, hactions, hobligations⟩ := putInvestigationObligation_ok hput
    have hmem : o ∈ s.store.obligations.rows := by
      rcases hobligations with hsame | ⟨-, hrows⟩
      · exact hsame ▸ ho
      · rcases List.mem_append.1 (hrows ▸ ho) with ho | ho
        · exact ho
        · rw [List.mem_singleton.1 ho] at hqueued
          exact absurd hqueued hnot
    exact ⟨hmem, fun a ha hlist hlive => ⟨a, hactions ▸ ha, hlist, hlive⟩⟩
  · exact h

theorem claim_noStranded (version : String) (eligible : Option (List String)) :
    NoStranded (step ids s (.claim version eligible)).store := by
  simp only [step]
  split
  · rename_i store result hclaim
    rcases claimNextInvestigationAction_ok hclaim with
      ⟨-, rfl⟩ | ⟨a, ha, -, -, hobligations, hactions⟩
    · exact h
    · refine h.step fun o ho _ => ⟨hobligations ▸ ho, fun b hb hlist hlive => ?_⟩
      by_cases hid : b.actionId = a.actionId
      · obtain rfl := s.store.actions.eq_of_key hb ha hid
        exact ⟨claimed.apply b, hactions ▸ updateAction_self hb, hlist, rfl⟩
      · exact ⟨b, hactions ▸ updateAction_other hb hid, hlist, hlive⟩
  · exact h

theorem finish_noStranded (actionId : String) (outcome : ActionOutcome)
    (hkeeps : KeepsCover s (.finish actionId outcome)) :
    NoStranded (step ids s (.finish actionId outcome)).store := by
  simp only [step]
  cases hfind : s.inFlight.find? fun a => a.actionId = actionId with
  | none => exact h
  | some copy =>
    have hid : copy.actionId = actionId := by simpa using List.find?_some hfind
    refine transact_induction (P := NoStranded) h fun store hok => ?_
    simp only [finishClaimed, bind_ok, pure_ok] at hok
    obtain ⟨mid, hfinish, rfl⟩ := hok
    obtain ⟨a, ha, haid, -, -, hobligations, hactions⟩ := finishInvestigationAction_ok hfinish
    intro o ho hqueued
    obtain ⟨ho, hresolved⟩ := covered_of_resolved ho hqueued
    by_cases hlist : o.obligationId ∈ copy.obligationIds
    · exact hresolved hlist
    -- the copy does not know the obligation: it must have another contributor
    have hother : ∀ b ∈ s.store.actions.rows, b.actionId ≠ actionId →
        o.obligationId ∈ b.obligationIds → b.status.isLive = true →
        Covered mid o.obligationId := fun b hb hne hmem hlive =>
      ⟨b, hactions ▸ updateAction_other hb (hid ▸ hne), hmem, hlive⟩
    rw [hobligations] at ho
    obtain ⟨b, hb, hmem, hlive⟩ := h o ho hqueued
    by_cases hbid : b.actionId = actionId
    · rcases hkeeps copy hfind b hb hbid o ho hqueued hmem with hin | ⟨c, hc, hne, hcmem, hclive⟩
      · exact absurd hin hlist
      · exact hother c hc hne hcmem hclive
    · exact hother b hb hbid hmem hlive

/-- Blocking an action and resolving what it listed when the loop began. -/
theorem blockDependents_noStranded : NoStranded (step ids s .blockDependents).store := by
  have hloop : SameShape s.store (blockDependents s.store) ∧ NoStranded (blockDependents s.store) := by
    refine eachUntilThrow_induction (P := fun st => SameShape s.store st ∧ NoStranded st)
      ⟨SameShape.refl _, h⟩ fun st st' a ha hst hok => ?_
    rw [mem_listInvestigationActions] at ha
    refine ⟨hst.1.trans (blockDependent_sameShape hok), ?_⟩
    unfold blockDependent at hok
    split at hok
    · split at hok
      · cases hok; exact hst.2
      · simp only [bind_ok, pure_ok] at hok
        obtain ⟨mid, hblock, rfl⟩ := hok
        obtain ⟨-, -, -, -, rfl⟩ := blockReadyInvestigationAction_ok hblock
        intro o ho hqueued
        obtain ⟨ho, hresolved⟩ := covered_of_resolved ho hqueued
        by_cases hlist : o.obligationId ∈ a.obligationIds
        · exact hresolved hlist
        obtain ⟨c, hc, hmem, hlive⟩ := hst.2 o ho hqueued
        -- the stored action still lists what it listed when the loop began
        have hne : c.actionId ≠ a.actionId := by
          intro hcid
          obtain ⟨d, hd, hdid, hdlist⟩ := hst.1.actions c hc
          obtain rfl := s.store.actions.eq_of_key hd ha (hdid.symm.trans hcid)
          exact hlist (hdlist ▸ hmem)
        exact ⟨c, updateAction_other hc hne, hmem, hlive⟩
    · cases hok; exact hst.2
  exact hloop.2

theorem recover_noStranded (hkeeps : KeepsCover s .recover) :
    NoStranded (step ids s .recover).store := by
  have hready : ∀ a ∈ s.store.actions.rows,
      a.status = .ready ∨ (a.status = .running ∧ a.replayPolicy = .safeReobserve) →
      ∀ id ∈ a.obligationIds, Covered (step ids s .recover).store id := by
    rintro a ha hkeep id hid
    refine ⟨_, IndexedTable.mem_modify.2 ⟨a, ha, rfl⟩, ?_, ?_⟩ <;>
      rcases hkeep with hready | ⟨hrunning, hsafe⟩ <;> simp_all [recovered, ActionStatus.isLive]
  refine h.step fun o ho hqueued => ⟨ho, fun a ha hlist hlive => ?_⟩
  cases hstatus : a.status with
  | ready => exact hready a ha (Or.inl hstatus) _ hlist
  | running =>
    by_cases hsafe : a.replayPolicy = .safeReobserve
    · exact hready a ha (Or.inr ⟨hstatus, hsafe⟩) _ hlist
    · obtain ⟨b, hb, hblist, hkeep⟩ := hkeeps a ha hstatus hsafe o ho hqueued hlist
      exact hready b hb hkeep _ hblist
  | _ => rw [hstatus] at hlive; cases hlive

theorem refresh_noStranded (version : String) (hkeeps : KeepsCover s (.refresh version)) :
    NoStranded (step ids s (.refresh version)).store := by
  obtain ⟨-, hobligations, hkept⟩ := refresh_kept (s := s.store) version
  refine h.step fun o ho hqueued => ⟨hobligations ▸ ho, fun a ha hlist hlive => ?_⟩
  by_cases hstale : staleReady version a = true
  · obtain ⟨b, hb, hblist, hblive, hfresh⟩ :=
      hkeeps a ha hstale o (hobligations ▸ ho) hqueued hlist
    exact ⟨b, hkept b hb hfresh, hblist, hblive⟩
  · exact ⟨a, hkept a ha (by simpa using hstale), hlist, hlive⟩

include hw

theorem put_op_noStranded (action : InvestigationAction) (hnodup : action.obligationIds.Nodup) :
    NoStranded (step ids s (.put action hnodup)).store := by
  simp only [step, proposal, putProposal]
  split
  · rename_i hput
    exact put_noStranded hw (fun o ho hqueued => Or.inl (h o ho hqueued)) hput
  · exact h

/-- A planner's obligation is queued before its action is proposed, and the proposal is accepted. -/
theorem plan_noStranded (obligation : InvestigationObligation) (action : InvestigationAction) :
    NoStranded (step ids s (.plan obligation action)).store := by
  simp only [step, proposal]
  cases hput : s.store.putInvestigationObligation
      { withObligationId ids s obligation with status := .queued } with
  | error e => exact h
  | ok r =>
    obtain ⟨store, stored⟩ := r
    obtain ⟨hstored, hactions, hobligations⟩ := putInvestigationObligation_ok hput
    have hcover : CoveredBut store (plannedAction ids s action stored.obligationId) := by
      intro o ho hqueued
      have hold : o ∈ s.store.obligations.rows → Covered store o.obligationId := fun ho => by
        obtain ⟨a, ha, hc⟩ := h o ho hqueued
        exact ⟨a, hactions ▸ ha, hc⟩
      rcases hobligations with hsame | ⟨hnew, hrows⟩
      · exact Or.inl (hold (hsame ▸ ho))
      · rcases List.mem_append.1 (hrows ▸ ho) with ho | ho
        · exact Or.inl (hold ho)
        · refine Or.inr ⟨?_, rfl, fun a ha => ?_⟩
          · rw [hnew, List.mem_singleton.1 ho]; exact List.mem_singleton.2 rfl
          · rw [List.mem_singleton.1 ho]
            exact hw.unlisted (hactions ▸ ha)
    have haccepted : ∃ r, store.putInvestigationAction
        (plannedAction ids s action stored.obligationId) = .ok r := by
      refine putInvestigationAction_accepted rfl (fun id hid => ?_) fun a ha hid => ?_
      · exact ⟨stored, hstored, (List.mem_singleton.1 hid).symm⟩
      · obtain ⟨k, hk, hkid⟩ := hw.actionIds a (hactions ▸ ha)
        exact absurd (ids.injective _ (hkid.symm.trans hid)) hk.ne
    obtain ⟨⟨s', merged⟩, haccepted⟩ := haccepted
    simp only [putProposal, haccepted]
    exact put_noStranded (hw.of_obligation rfl hput) hcover haccepted

end

/-! ### Whole runs -/

theorem step_noStranded {s : System} (hw : Wired ids s.drawn s.store) (h : NoStranded s.store)
    (op : Op) (hkeeps : KeepsCover s op) : NoStranded (step ids s op).store := by
  cases op with
  | note obligation hnot => exact note_noStranded h obligation hnot
  | plan obligation action => exact plan_noStranded hw h obligation action
  | put action hnodup => exact put_op_noStranded hw h action hnodup
  | claim version eligible => exact claim_noStranded h version eligible
  | finish actionId outcome => exact finish_noStranded h actionId outcome hkeeps
  | blockDependents => exact blockDependents_noStranded h
  | recover => exact recover_noStranded h hkeeps
  | refresh version => exact refresh_noStranded h version hkeeps

/-- Over every run whose refreshes, recoveries and completions leave no waiting obligation without a
    contributor, each obligation that waits is listed by an action that is READY or RUNNING; so none
    waits once all that list it have ended. -/
theorem no_stranded_obligation (ids : IdSupply) (ops : List Op)
    (h : Runs.Along (step ids) KeepsCover .empty ops) :
    NoStranded (runOps ids ops).store ∧
    ∀ o ∈ (runOps ids ops).store.obligations.rows,
      (∀ a ∈ (runOps ids ops).store.actions.rows, o.obligationId ∈ a.obligationIds →
        a.status.isLive = false) → o.status ≠ .queued := by
  have hsound : Wired ids (runOps ids ops).drawn (runOps ids ops).store ∧
      NoStranded (runOps ids ops).store :=
    Runs.run_invariant (I := fun s : System => Wired ids s.drawn s.store ∧ NoStranded s.store)
      (fun s op hs hc => ⟨step_wired hs.1 op, step_noStranded hs.1 hs.2 op hc⟩)
      ops System.empty ⟨wired_empty, fun o ho => by simp [System.empty, InvestigationStore.empty] at ho⟩ h
  refine ⟨hsound.2, fun o ho hended hqueued => ?_⟩
  obtain ⟨a, ha, hlist, hlive⟩ := hsound.2 o ho hqueued
  rw [hended a ha hlist] at hlive
  cases hlive

/-! ### Runs on concrete input -/

def sampleObligation (dedupeKey : String) : InvestigationObligation where
  obligationId := ""
  dedupeKey
  obligationKind := "SUBJECT_ATTRIBUTES"
  subjectRefs := ["SUBJ-1"]
  required := true
  status := .open_
  resultRefs := []
  gapRefs := []

def sampleAction (idempotencyKey : String) (replayPolicy : ActionReplayPolicy) :
    InvestigationAction where
  actionId := ""
  idempotencyKey
  obligationIds := []
  dependsOn := []
  authorizationVersion := "v1"
  replayPolicy
  priority := 50
  status := .ready
  revision := 0
  resultRefs := none
  error := none
  createdAt := 0

def planned (dedupeKey idempotencyKey : String) (replayPolicy : ActionReplayPolicy) : Op :=
  .plan (sampleObligation dedupeKey) (sampleAction idempotencyKey replayPolicy)

/-- Two obligations served by one action, a second action blocked by the grants, a restart. -/
def coveredRun : List Op :=
  [planned "o1" "read" .safeReobserve, planned "o2" "read" .safeReobserve, .claim "v1" none,
   .recover, .claim "v1" none, .finish "1" (.completed false ["F-1"] none), .refresh "v2"]

theorem no_stranded_obligation_sample :
    NoStranded (runOps tallyIds coveredRun).store ∧
    ∀ o ∈ (runOps tallyIds coveredRun).store.obligations.rows,
      (∀ a ∈ (runOps tallyIds coveredRun).store.actions.rows, o.obligationId ∈ a.obligationIds →
        a.status.isLive = false) → o.status ≠ .queued :=
  no_stranded_obligation tallyIds coveredRun (by
    refine ⟨?_, ?_, ?_, ?_, ?_, ?_, ?_, trivial⟩ <;> decide)

/-- The grants change while a planned action waits. -/
def strandedByRefresh : List Op := [planned "o1" "read" .safeReobserve, .refresh "v2"]

/-- The controller restarts while an action that may not be replayed is under way. -/
def strandedByRecovery : List Op := [planned "o1" "capture" .never, .claim "v1" none, .recover]

/-- A second obligation is merged into an action that is under way. -/
def strandedByMerge : List Op :=
  [planned "o1" "read" .safeReobserve, .claim "v1" none, planned "o2" "read" .safeReobserve,
   .finish "1" (.completed false ["F-1"] none)]

theorem stranded_obligations :
    ¬ NoStranded (runOps tallyIds strandedByRefresh).store ∧
    ¬ NoStranded (runOps tallyIds strandedByRecovery).store ∧
    ¬ NoStranded (runOps tallyIds strandedByMerge).store := by
  refine ⟨?_, ?_, ?_⟩ <;> decide

end HuntWarden.ActionExecutor
