import HuntWarden.Investigation.Stranding

/-! Who may call an obligation SATISFIED. `resolveObligations` asks every contributor;
    the deduplication path of `putInvestigationAction` asks only the ended action it merges into.
    `DedupeFair` says when the second answer is the first one too. Under it no step of a run
    marks an obligation while one of its contributors has not succeeded. -/

namespace HuntWarden.ActionExecutor

open Outcome InvestigationStore

/-- The obligation is SATISFIED after a step and was not before. -/
def Marked (s s' : InvestigationStore) (obligationId : String) : Prop :=
  (∃ o ∈ s'.obligations.rows, o.obligationId = obligationId ∧ o.status = .satisfied) ∧
  ∀ o ∈ s.obligations.rows, o.obligationId = obligationId → o.status ≠ .satisfied

/-- Every action that lists the obligation has succeeded. -/
def AllSucceeded (s : InvestigationStore) (obligationId : String) : Prop :=
  ∀ a ∈ s.actions.rows, obligationId ∈ a.obligationIds → a.status = .succeeded

/-- The stored action a proposal is merged into after it has ended. -/
structure EndedMatch (value old : InvestigationAction) : Prop where
  sameKey : old.idempotencyKey = value.idempotencyKey
  ended : old.status.isLive = false
  gains : ∃ id ∈ value.obligationIds, id ∉ old.obligationIds

instance (value old : InvestigationAction) : Decidable (EndedMatch value old) :=
  decidable_of_iff (old.idempotencyKey = value.idempotencyKey ∧ old.status.isLive = false ∧
      ∃ id ∈ value.obligationIds, id ∉ old.obligationIds)
    ⟨fun ⟨hkey, hended, hgains⟩ => ⟨hkey, hended, hgains⟩,
      fun h => ⟨h.sameKey, h.ended, h.gains⟩⟩

/-- The contributor bears out the end of the action the proposal is merged into. -/
def BearsOut (old a : InvestigationAction) : Prop :=
  if old.status = .succeeded then a.status = .succeeded else a.status.isLive = false

instance (old a : InvestigationAction) : Decidable (BearsOut old a) := by
  unfold BearsOut; infer_instance

/-- When the proposal is merged into an ended action, the other contributors of the obligations it
    lists bear out that end. -/
def FairMerge (store : InvestigationStore) (value : InvestigationAction) : Prop :=
  ∀ old ∈ store.actions.rows, EndedMatch value old →
    ∀ o ∈ store.obligations.rows, o.status.isOpen = true → o.obligationId ∈ value.obligationIds →
      ∀ a ∈ store.actions.rows, o.obligationId ∈ a.obligationIds → BearsOut old a

instance (store : InvestigationStore) (value : InvestigationAction) :
    Decidable (FairMerge store value) := by
  unfold FairMerge; infer_instance

def DedupeFair (ids : IdSupply) (s : System) (op : Op) : Prop :=
  ∀ p ∈ proposal ids s op, FairMerge p.1 p.2

instance (ids : IdSupply) (s : System) (op : Op) : Decidable (DedupeFair ids s op) := by
  unfold DedupeFair; infer_instance

/-- The deduplication path writes on each obligation what `resolveObligations` would have written. -/
def VerdictsAgree (ids : IdSupply) (s : System) (op : Op) : Prop :=
  ∀ p ∈ proposal ids s op, ∀ r, p.1.putInvestigationAction p.2 = .ok r →
    ∀ old ∈ p.1.actions.rows, EndedMatch p.2 old →
      ∀ o ∈ p.1.obligations.rows, o.status.isOpen = true → o.obligationId ∈ p.2.obligationIds →
        sharedVerdict (r.1.contributors o.obligationId) (reuseVerdict old) = some (reuseVerdict old)

/-! ### The two verdicts -/

theorem sharedVerdict_eq_satisfied {contributors : List InvestigationAction} {ended : Verdict} :
    sharedVerdict contributors ended = some .satisfied ↔
      ended = .satisfied ∧ ∀ a ∈ contributors, a.status = .succeeded := by
  unfold sharedVerdict
  by_cases hlive : (contributors.any fun a => a.status.isLive) = true
  · rw [if_pos hlive]
    obtain ⟨a, ha, hal⟩ := List.any_eq_true.1 hlive
    constructor
    · intro h; cases h
    · rintro ⟨-, hall⟩
      rw [hall a ha] at hal; cases hal
  · rw [if_neg hlive]
    have hended : ∀ a ∈ contributors, a.status.isLive = false := by simpa using hlive
    by_cases hlim : ended = .limited ∨ (contributors.any fun a => a.status.isLimiting) = true
    · rw [if_pos hlim]
      constructor
      · intro h; simp at h
      · rintro ⟨hsat, hall⟩
        rcases hlim with hlim | hlim
        · rw [hsat] at hlim; cases hlim
        · obtain ⟨a, ha, hal⟩ := List.any_eq_true.1 hlim
          rw [hall a ha] at hal; cases hal
    · rw [if_neg hlim]
      obtain ⟨hsat, hnone⟩ := not_or.1 hlim
      have hfine : ∀ a ∈ contributors, a.status.isLimiting = false := by simpa using hnone
      refine ⟨fun _ => ⟨?_, fun a ha => ActionStatus.eq_succeeded (hended a ha) (hfine a ha)⟩,
        fun _ => rfl⟩
      cases ended with
      | satisfied => rfl
      | limited => exact absurd rfl hsat

theorem sharedVerdict_limited {contributors : List InvestigationAction} :
    sharedVerdict contributors .limited = some .limited ↔
      ∀ a ∈ contributors, a.status.isLive = false := by
  unfold sharedVerdict
  by_cases hlive : (contributors.any fun a => a.status.isLive) = true
  · rw [if_pos hlive]
    simpa using hlive
  · rw [if_neg hlive, if_pos (Or.inl rfl)]
    simpa using hlive

/-- The two paths agree exactly when every contributor bears out the ended action. -/
theorem sharedVerdict_reuse {contributors : List InvestigationAction} {old : InvestigationAction} :
    sharedVerdict contributors (reuseVerdict old) = some (reuseVerdict old) ↔
      ∀ a ∈ contributors, BearsOut old a := by
  unfold reuseVerdict BearsOut
  by_cases hold : old.status = .succeeded
  · simp only [if_pos hold, sharedVerdict_eq_satisfied, true_and]
  · simp only [if_neg hold, sharedVerdict_limited]

theorem bearsOut_self {old : InvestigationAction} (hended : old.status.isLive = false) :
    BearsOut old old := by
  unfold BearsOut
  split
  · assumption
  · exact hended

/-! ### What a step marks -/

/-- A closing that marks an obligation had selected it and calls it SATISFIED. -/
theorem marked_of_closed {s t : InvestigationStore} {selected : InvestigationObligation → Bool}
    {close : Closing} (hobligations : t.obligations = s.obligations) {id : String}
    (h : Marked s (t.closeObligations selected close) id) :
    ∃ o ∈ s.obligations.rows, o.obligationId = id ∧ o.status.isOpen = true ∧ selected o = true ∧
      close.status o = .satisfied := by
  obtain ⟨⟨o', ho', hid, hsat⟩, hbefore⟩ := h
  obtain ⟨o, ho, rfl⟩ := mem_closeObligations.1 ho'
  rw [hobligations] at ho
  by_cases hsel : (o.status.isOpen && selected o) = true
  · rw [if_pos hsel] at hid hsat
    rw [Bool.and_eq_true] at hsel
    exact ⟨o, ho, hid, hsel.1, hsel.2, hsat⟩
  · rw [if_neg hsel] at hid hsat
    exact absurd hsat (hbefore o ho hid)

theorem not_marked_of_obligations {s s' : InvestigationStore} {id : String}
    (h : s'.obligations = s.obligations) : ¬ Marked s s' id := by
  rintro ⟨⟨o, ho, hid, hsat⟩, hbefore⟩
  exact hbefore o (h ▸ ho) hid hsat

/-- A resolution marks only what all contributors agree on. -/
theorem allSucceeded_of_resolved {s t : InvestigationStore} {action : InvestigationAction}
    {ended : Verdict} {refs : List String} {reason : Option String} {id : String}
    (hobligations : t.obligations = s.obligations)
    (h : Marked s (resolveObligations t action ended refs reason) id) :
    AllSucceeded (resolveObligations t action ended refs reason) id ∧ ended = .satisfied := by
  obtain ⟨o, -, rfl, -, hsel, hstatus⟩ := marked_of_closed hobligations h
  have hsome := (of_decide_eq_true hsel).2
  obtain ⟨verdict, hverdict⟩ := Option.isSome_iff_exists.1 hsome
  simp only [resolveClosing, hverdict] at hstatus
  cases verdict with
  | limited => cases hstatus
  | satisfied =>
    obtain ⟨hended, hall⟩ := sharedVerdict_eq_satisfied.1 hverdict
    exact ⟨fun a ha hlist => hall a (mem_contributors.2 ⟨ha, hlist⟩), hended⟩

/-- What a state in between had not marked is marked after it. -/
theorem Marked.since {s t s' : InvestigationStore} {id : String} (h : Marked s s' id)
    (hbetween : ¬ Marked s t id) : Marked t s' id :=
  ⟨h.1, fun o ho hid hsat => hbetween ⟨⟨o, ho, hid, hsat⟩, h.2⟩⟩

/-- A contributor after a merge is the action merged into, or one from before. -/
theorem mem_contributors_merge {s : InvestigationStore} {old value a' : InvestigationAction}
    {id : String} (hold : old ∈ s.actions.rows)
    (ha' : a' ∈ (s.updateAction old.actionId (mergeInto value)).actions.rows)
    (hlist : id ∈ a'.obligationIds) : a'.status = old.status ∨
      (a' ∈ s.actions.rows ∧ id ∈ a'.obligationIds) := by
  obtain ⟨a, ha, rfl⟩ := mem_updateAction.1 ha'
  by_cases hid : a.actionId = old.actionId
  · obtain rfl := s.actions.eq_of_key ha hold hid
    rw [if_pos rfl]; exact Or.inl rfl
  · rw [if_neg hid] at hlist ⊢
    exact Or.inr ⟨ha, hlist⟩

theorem BearsOut.of_status {old a b : InvestigationAction} (h : BearsOut old a)
    (hstatus : b.status = a.status) : BearsOut old b := by
  unfold BearsOut at h ⊢
  rwa [hstatus]

/-- After a fair merge into an ended action, each contributor of a listed obligation bears it out. -/
theorem bearsOut_merge {store : InvestigationStore} {value old a : InvestigationAction}
    {o : InvestigationObligation} (hold : old ∈ store.actions.rows) (hmatch : EndedMatch value old)
    (hfair : ∀ a ∈ store.actions.rows, o.obligationId ∈ a.obligationIds → BearsOut old a)
    (ha : a ∈ (store.updateAction old.actionId (mergeInto value)).actions.rows)
    (hlist : o.obligationId ∈ a.obligationIds) : BearsOut old a := by
  rcases mem_contributors_merge hold ha hlist with hstatus | ⟨ha, hlist⟩
  · exact (bearsOut_self hmatch.ended).of_status hstatus
  · exact hfair a ha hlist

/-- A proposal marks an obligation only by a merge into an action that has succeeded. -/
theorem put_marks {n : ℕ} {ids : IdSupply} {store s' : InvestigationStore}
    {value stored : InvestigationAction} (hw : Wired ids n store)
    (hput : store.putInvestigationAction value = .ok (s', stored))
    (hfair : FairMerge store value)
    {id : String} (h : Marked store s' id) : AllSucceeded s' id := by
  obtain ⟨-, ⟨-, hobligations⟩ | ⟨-, hobligations⟩ | ⟨old, hold, hkey, rfl⟩⟩ :=
    putInvestigationAction_cases hput
  · exact absurd h (not_marked_of_obligations hobligations)
  · -- refused: the capacity limit calls nothing SATISFIED
    have hclosed : Marked store (store.closeObligations
        (fun o => o.obligationId ∈ value.obligationIds) capacityClosing) id := by
      rw [Marked, ← hobligations]; exact h
    obtain ⟨o, -, -, -, -, hstatus⟩ := marked_of_closed rfl hclosed
    cases hstatus
  · rcases mergeAction_cases (s := store) (hw.nodup old hold) with
      ⟨-, heq⟩ | ⟨-, heq⟩ | ⟨hended, hgains, heq⟩ <;> rw [heq] at h ⊢
    · exact absurd h (not_marked_of_obligations rfl)
    · exact absurd h (not_marked_of_obligations rfl)
    · obtain ⟨o, ho, rfl, hopen, hsel, hstatus⟩ := marked_of_closed rfl h
      have hsucceeded : old.status = .succeeded := by
        rw [reuseClosing_status, reuseVerdict] at hstatus
        by_contra hne
        rw [if_neg hne] at hstatus
        cases hstatus
      have hmatch : EndedMatch value old := ⟨hkey, hended, hgains⟩
      intro a ha hlist
      have hbears := bearsOut_merge hold hmatch
        (hfair old hold hmatch o ho hopen (of_decide_eq_true hsel)) ha hlist
      rwa [BearsOut, if_pos hsucceeded] at hbears

/-- Recording an obligation marks none that an action could list. -/
theorem obligation_marks {s s' : InvestigationStore} {value stored : InvestigationObligation}
    (hput : s.putInvestigationObligation value = .ok (s', stored)) {id : String}
    (h : Marked s s' id) : id = value.obligationId ∧ value.status = .satisfied := by
  obtain ⟨⟨o, ho, rfl, hsat⟩, hbefore⟩ := h
  obtain ⟨-, -, hsame | ⟨-, hrows⟩⟩ := putInvestigationObligation_ok hput
  · exact absurd hsat (hbefore o (hsame ▸ ho) rfl)
  · rcases List.mem_append.1 (hrows ▸ ho) with ho | ho
    · exact absurd hsat (hbefore o ho rfl)
    · rw [List.mem_singleton.1 ho] at hsat ⊢
      exact ⟨rfl, hsat⟩

/-- The store a proposal is made on is wired, and nothing was marked on the way to it. -/
theorem proposal_store {ids : IdSupply} {s : System} (h : Wired ids s.drawn s.store) {op : Op}
    {p : InvestigationStore × InvestigationAction} (hp : proposal ids s op = some p) :
    Wired ids (s.drawn + 1) p.1 ∧ (∀ id, ¬ Marked s.store p.1 id) ∧
      (step ids s op).store = putProposal p.1 p.2 := by
  cases op with
  | put action hnodup =>
    cases hp
    exact ⟨h.mono (Nat.le_succ _), fun id => not_marked_of_obligations rfl, rfl⟩
  | plan obligation action =>
    refine ⟨?_, ?_, by simp only [step, hp]⟩ <;>
      simp only [proposal] at hp <;> split at hp <;> cases hp <;> rename_i store stored hput
    · exact h.of_obligation rfl hput
    · intro id hmarked
      obtain ⟨-, hsat⟩ := obligation_marks hput hmarked
      cases hsat
  | _ => cases hp

theorem proposal_marks {ids : IdSupply} {s : System} (h : Wired ids s.drawn s.store) {op : Op}
    (hfair : DedupeFair ids s op) {p : InvestigationStore × InvestigationAction}
    (hp : proposal ids s op = some p) {id : String}
    (hmarked : Marked s.store (step ids s op).store id) : AllSucceeded (step ids s op).store id := by
  obtain ⟨hw, hbetween, hstep⟩ := proposal_store h hp
  have hsince := hmarked.since (hbetween id)
  rw [hstep, putProposal] at hsince ⊢
  cases hput : p.1.putInvestigationAction p.2 with
  | error e =>
    rw [hput] at hsince
    exact absurd hsince (not_marked_of_obligations rfl)
  | ok r =>
    rw [hput] at hsince
    exact put_marks hw hput (hfair p hp) hsince

theorem note_marks {ids : IdSupply} {s : System} (h : Wired ids s.drawn s.store)
    {obligation : InvestigationObligation} {hnot : obligation.status ≠ .queued} {id : String}
    (hmarked : Marked s.store (step ids s (.note obligation hnot)).store id) :
    AllSucceeded (step ids s (.note obligation hnot)).store id := by
  simp only [step] at hmarked ⊢
  split at hmarked
  · rename_i store stored hput
    obtain ⟨rfl, -⟩ := obligation_marks hput hmarked
    obtain ⟨-, hactions, -⟩ := putInvestigationObligation_ok hput
    intro a ha hlist
    exact absurd hlist (h.unlisted (hactions ▸ ha))
  · exact absurd hmarked (not_marked_of_obligations rfl)

theorem finish_marks {ids : IdSupply} {s : System} {actionId : String} {outcome : ActionOutcome}
    {id : String} (hmarked : Marked s.store (step ids s (.finish actionId outcome)).store id) :
    AllSucceeded (step ids s (.finish actionId outcome)).store id := by
  simp only [step] at hmarked ⊢
  split at hmarked
  · rename_i copy hfind
    cases hbody : finishClaimed s.store copy outcome with
    | error e =>
      simp only [hbody, transact] at hmarked
      exact absurd hmarked (not_marked_of_obligations rfl)
    | ok store =>
      simp only [hbody, transact] at hmarked ⊢
      simp only [finishClaimed, bind_ok, pure_ok] at hbody
      obtain ⟨mid, hfinish, rfl⟩ := hbody
      obtain ⟨-, -, -, -, -, hobligations, -⟩ := finishInvestigationAction_ok hfinish
      exact (allSucceeded_of_resolved hobligations hmarked).1
  · exact absurd hmarked (not_marked_of_obligations rfl)

/-- The loop that closes a run calls nothing SATISFIED. -/
theorem blockDependents_marks {s : InvestigationStore} {id : String} :
    ¬ Marked s (blockDependents s) id := by
  refine eachUntilThrow_induction (P := fun st => ¬ Marked s st id)
    (not_marked_of_obligations rfl) fun st st' a _ hst hok hmarked => ?_
  have hsince := hmarked.since hst
  unfold blockDependent at hok
  split at hok
  · split at hok
    · cases hok; exact not_marked_of_obligations rfl hsince
    · simp only [bind_ok, pure_ok] at hok
      obtain ⟨mid, hblock, rfl⟩ := hok
      obtain ⟨b, -, -, -, rfl⟩ := blockReadyInvestigationAction_ok hblock
      obtain ⟨-, hended⟩ := allSucceeded_of_resolved (by rfl) hsince
      cases hended
  · cases hok; exact not_marked_of_obligations rfl hsince

/-- No fair step marks an obligation that a contributor has not served. -/
theorem step_marks {ids : IdSupply} {s : System} (h : Wired ids s.drawn s.store) (op : Op)
    (hfair : DedupeFair ids s op) {id : String}
    (hmarked : Marked s.store (step ids s op).store id) : AllSucceeded (step ids s op).store id := by
  cases hp : proposal ids s op with
  | some p => exact proposal_marks h hfair hp hmarked
  | none =>
    cases op with
    | note obligation hnot => exact note_marks h hmarked
    | finish actionId outcome => exact finish_marks hmarked
    | blockDependents => exact absurd hmarked blockDependents_marks
    | put action hnodup => cases hp
    | plan obligation action =>
      simp only [step, hp] at hmarked
      exact absurd hmarked (not_marked_of_obligations rfl)
    | claim version eligible =>
      refine absurd hmarked (not_marked_of_obligations ?_)
      simp only [step]
      split
      · rename_i hclaim
        rcases claimNextInvestigationAction_ok hclaim with
          ⟨-, rfl⟩ | ⟨-, -, -, -, hobligations, -⟩
        · rfl
        · exact hobligations
      · rfl
    | recover => exact absurd hmarked (not_marked_of_obligations rfl)
    | refresh version =>
      exact absurd hmarked (not_marked_of_obligations (refresh_kept version).2.1)

/-- Merging into a known ended action neither queues the proposal nor refuses it. -/
theorem put_endedMatch {n : ℕ} {ids : IdSupply} {store s' : InvestigationStore}
    {value stored old : InvestigationAction} (hw : Wired ids n store)
    (hput : store.putInvestigationAction value = .ok (s', stored))
    (hold : old ∈ store.actions.rows) (hmatch : EndedMatch value old) :
    s'.actions = (store.updateAction old.actionId (mergeInto value)).actions := by
  have htaken : ∀ added : InvestigationAction, added.idempotencyKey = value.idempotencyKey →
      s'.actions.rows ≠ store.actions.rows ++ [added] := by
    intro added hkey hrows
    have hdistinct := s'.actions.distinct
    rw [hrows, List.map_append, List.nodup_append] at hdistinct
    exact hdistinct.2.2 _ (List.mem_map_of_mem hold) _ (List.mem_singleton.2 rfl)
      (hmatch.sameKey.trans hkey.symm)
  obtain ⟨-, ⟨hactions, -⟩ | ⟨hactions, -⟩ | ⟨old', hold', hkey, rfl⟩⟩ :=
    putInvestigationAction_cases hput
  · exact absurd hactions (htaken value rfl)
  · exact absurd hactions (htaken (capacityBlocked value) rfl)
  · obtain rfl := store.actions.eq_of_alt hold' hold (hkey.trans hmatch.sameKey.symm)
    rcases mergeAction_cases (s := store) (hw.nodup old' hold') with
      ⟨hall, -⟩ | ⟨hlive, -⟩ | ⟨-, -, heq⟩
    · obtain ⟨id, hid, hnew⟩ := hmatch.gains
      exact absurd (hall id hid) hnew
    · rw [hmatch.ended] at hlive; cases hlive
    · rw [heq]; rfl

/-- A fair merge into an ended action writes the verdict of all contributors. -/
theorem step_agrees {ids : IdSupply} {s : System} (h : Wired ids s.drawn s.store) (op : Op)
    (hfair : DedupeFair ids s op) : VerdictsAgree ids s op := by
  intro p hp r hput old hold hmatch o ho hopen hlist
  obtain ⟨hw, -, -⟩ := proposal_store h hp
  have hactions := put_endedMatch hw hput hold hmatch
  rw [sharedVerdict_reuse]
  intro a ha
  rw [mem_contributors, hactions] at ha
  exact bearsOut_merge hold hmatch (hfair p hp old hold hmatch o ho hopen hlist) ha.1 ha.2

/-! ### Success is final -/

/-- The action is on record and has succeeded. -/
def Succeeded (s : InvestigationStore) (actionId : String) : Prop :=
  ∃ a ∈ s.actions.rows, a.actionId = actionId ∧ a.status = .succeeded

/-- A rewriting of one action that leaves it alone, or succeeded, if it has succeeded. -/
theorem Succeeded.of_update {s s' : InvestigationStore} {id actionId : String} {f : ActionRewrite}
    (h : Succeeded s id) (hactions : s'.actions = (s.updateAction actionId f).actions)
    (hf : ∀ a ∈ s.actions.rows, a.actionId = actionId → a.status = .succeeded →
      (f.apply a).status = .succeeded) : Succeeded s' id := by
  obtain ⟨a, ha, rfl, hstatus⟩ := h
  by_cases hid : a.actionId = actionId
  · subst hid
    exact ⟨f.apply a, hactions ▸ updateAction_self ha, f.key_apply a, hf a ha rfl hstatus⟩
  · exact ⟨a, hactions ▸ updateAction_other ha hid, rfl, hstatus⟩

/-- The rewritten action had not succeeded. -/
theorem Succeeded.of_update_other {s s' : InvestigationStore} {id : String}
    {b : InvestigationAction} {f : ActionRewrite} (h : Succeeded s id) (hb : b ∈ s.actions.rows)
    (hstatus : b.status ≠ .succeeded)
    (hactions : s'.actions = (s.updateAction b.actionId f).actions) : Succeeded s' id := by
  refine h.of_update hactions fun a ha hid hsucceeded => ?_
  obtain rfl := s.actions.eq_of_key ha hb hid
  exact absurd hsucceeded hstatus

theorem Succeeded.of_put {s s' : InvestigationStore} {value stored : InvestigationAction}
    {id : String} (h : Succeeded s id)
    (hput : s.putInvestigationAction value = .ok (s', stored)) : Succeeded s' id := by
  obtain ⟨-, ⟨hactions, -⟩ | ⟨hactions, -⟩ | ⟨old, hold, -, rfl⟩⟩ := putInvestigationAction_cases hput
  · obtain ⟨a, ha, hrest⟩ := h
    exact ⟨a, by rw [hactions]; exact List.mem_append_left _ ha, hrest⟩
  · obtain ⟨a, ha, hrest⟩ := h
    exact ⟨a, by rw [hactions]; exact List.mem_append_left _ ha, hrest⟩
  · unfold mergeAction
    simp only
    split
    · exact h
    · split <;> exact h.of_update rfl fun a _ _ hsucceeded => hsucceeded

theorem Succeeded.of_block {s s' : InvestigationStore} {actionId reason id : String}
    (h : Succeeded s id) (hblock : s.blockReadyInvestigationAction actionId reason = .ok s') :
    Succeeded s' id := by
  obtain ⟨b, hb, rfl, hready, rfl⟩ := blockReadyInvestigationAction_ok hblock
  exact h.of_update_other hb (by rw [hready]; simp) rfl

theorem Succeeded.of_obligation {s s' : InvestigationStore} {value stored : InvestigationObligation}
    {id : String} (h : Succeeded s id)
    (hput : s.putInvestigationObligation value = .ok (s', stored)) : Succeeded s' id := by
  obtain ⟨-, hactions, -⟩ := putInvestigationObligation_ok hput
  rwa [Succeeded, hactions]

theorem Succeeded.of_putProposal {s : InvestigationStore} {value : InvestigationAction} {id : String}
    (h : Succeeded s id) : Succeeded (putProposal s value) id := by
  unfold putProposal
  split
  · rename_i hput; exact h.of_put hput
  · exact h

/-- No operation takes a success back. -/
theorem step_succeeded {ids : IdSupply} {s : System} {id : String} (h : Succeeded s.store id)
    (op : Op) : Succeeded (step ids s op).store id := by
  cases op with
  | note obligation hnot =>
    simp only [step]
    split
    · rename_i hput; exact h.of_obligation hput
    · exact h
  | plan obligation action =>
    simp only [step, proposal]
    split
    · rename_i hp
      split at hp
      · rename_i hput
        cases hp
        exact (h.of_obligation hput).of_putProposal
      · cases hp
    · exact h
  | put action hnodup => exact h.of_putProposal
  | claim version eligible =>
    simp only [step]
    split
    · rename_i hclaim
      rcases claimNextInvestigationAction_ok hclaim with ⟨-, rfl⟩ | ⟨a, ha, hready, -, -, hactions⟩
      · exact h
      · exact h.of_update_other ha (by rw [hready]; simp) hactions
    · exact h
  | finish actionId outcome =>
    simp only [step]
    split
    · refine transact_induction (P := fun st => Succeeded st id) h fun store hok => ?_
      simp only [finishClaimed, bind_ok, pure_ok] at hok
      obtain ⟨mid, hfinish, rfl⟩ := hok
      obtain ⟨a, ha, haid, hrunning, -, -, hactions⟩ := finishInvestigationAction_ok hfinish
      rw [← haid] at hactions
      exact h.of_update_other ha (by rw [hrunning]; simp) hactions
    · exact h
  | blockDependents =>
    refine eachUntilThrow_induction (P := fun st => Succeeded st id) h fun st st' a _ hst hok => ?_
    unfold blockDependent at hok
    split at hok
    · split at hok
      · cases hok; exact hst
      · simp only [bind_ok, pure_ok] at hok
        obtain ⟨mid, hblock, rfl⟩ := hok
        have hmid : Succeeded mid id := hst.of_block hblock
        exact hmid
    · cases hok; exact hst
  | recover =>
    obtain ⟨a, ha, hid, hstatus⟩ := h
    refine ⟨a, IndexedTable.mem_modify.2 ⟨a, ha, if_neg ?_⟩, hid, hstatus⟩
    simp [hstatus]
  | refresh version =>
    refine eachUntilThrow_induction (P := fun st => Succeeded st id) h fun st st' a _ hst hok => ?_
    split at hok
    · exact hst.of_block hok
    · cases hok; exact hst

/-! ### Whole runs -/

/-- Over every run whose merges into ended actions are fair: a step calls an obligation SATISFIED only
    when every action that lists it has succeeded, those actions stay succeeded, and both paths to a
    verdict agree on the same contributors. -/
theorem satisfied_by_contributors (ids : IdSupply) (ops : List Op)
    (h : Runs.Along (step ids) (DedupeFair ids) .empty ops) :
    ∀ before op later, ops = before ++ op :: later →
      (∀ id, Marked (runOps ids before).store (runOps ids (before ++ [op])).store id →
        AllSucceeded (runOps ids (before ++ [op])).store id ∧
        ∀ a ∈ (runOps ids (before ++ [op])).store.actions.rows, id ∈ a.obligationIds →
          Succeeded (runOps ids ops).store a.actionId) ∧
      VerdictsAgree ids (runOps ids before) op := by
  rintro before op later rfl
  have hw : Wired ids (runOps ids before).drawn (runOps ids before).store := wired_run before
  have hfair : DedupeFair ids (runOps ids before) op := (Runs.along_append.1 h).2.1
  have hlast : runOps ids (before ++ [op]) = step ids (runOps ids before) op := by
    rw [runOps, Runs.run_append]; rfl
  have hrest : runOps ids (before ++ op :: later) =
      Runs.run (step ids) (step ids (runOps ids before) op) later := by
    rw [runOps, Runs.run_append]; rfl
  rw [hlast, hrest]
  refine ⟨fun id hmarked => ?_, step_agrees hw op hfair⟩
  have hall := step_marks hw op hfair hmarked
  refine ⟨hall, fun a ha hlist => ?_⟩
  exact Runs.run_invariant (I := fun s : System => Succeeded s.store a.actionId)
    (fun _ op h _ => step_succeeded h op) later _ ⟨a, ha, rfl, hall a ha hlist⟩
    (Runs.along_true _ _)

/-! ### Runs on concrete input -/

/-- One obligation, and the action that satisfied it. -/
def endedRun : List Op :=
  [planned "o1" "read" .safeReobserve, .claim "v1" none,
   .finish "1" (.completed false ["F-1"] none)]

/-- A second obligation is hung on the action that has succeeded, as its only contributor. -/
def fairRun : List Op := endedRun ++ [planned "o2" "read" .safeReobserve]

theorem satisfied_by_contributors_sample :
    (∀ id, Marked (runOps tallyIds endedRun).store (runOps tallyIds fairRun).store id →
      AllSucceeded (runOps tallyIds fairRun).store id ∧
      ∀ a ∈ (runOps tallyIds fairRun).store.actions.rows, id ∈ a.obligationIds →
        Succeeded (runOps tallyIds fairRun).store a.actionId) ∧
    VerdictsAgree tallyIds (runOps tallyIds endedRun) (planned "o2" "read" .safeReobserve) :=
  satisfied_by_contributors tallyIds fairRun (by
    refine ⟨?_, ?_, ?_, ?_, trivial⟩ <;> decide) endedRun _ [] rfl

/-- An obligation of a hypothesis waits for a new action … -/
def waitingRun : List Op :=
  [planned "o1" "read" .safeReobserve, .claim "v1" none,
   .finish "1" (.completed false ["F-1"] none), planned "o2" "list" .safeReobserve]

/-- … and is also listed by a proposal that repeats an action that has succeeded. -/
def repeatedRead : Op :=
  .put { sampleAction "read" .safeReobserve with obligationIds := ["111"] } (List.nodup_singleton _)

theorem marked_before_contributors :
    Marked (runOps tallyIds waitingRun).store (runOps tallyIds (waitingRun ++ [repeatedRead])).store
      "111" ∧
    ¬ AllSucceeded (runOps tallyIds (waitingRun ++ [repeatedRead])).store "111" ∧
    sharedVerdict ((runOps tallyIds (waitingRun ++ [repeatedRead])).store.contributors "111")
      .satisfied = none := by
  unfold Marked AllSucceeded
  decide

end HuntWarden.ActionExecutor
