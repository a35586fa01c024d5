import HuntWarden.Playbooks.Planner

/-! What a call of the planner adds to the store. It never throws; what it reads stays as it was; and the
    hypotheses and obligations that are there afterwards are those that were there, those of the selected
    facts, and those of the categories. -/

namespace HuntWarden.Playbooks

open Outcome InvestigationStore

/-- What is planned from. -/
def PlannerStore.inputs (s : PlannerStore) := (s.facts, s.assessments, s.relations, s.edges, s.checks)

/-- The playbook has this hypothesis about the subject. -/
def HasHypothesis (s : PlannerStore) (subjectRef claim : String) : Prop :=
  ∃ h ∈ s.hypotheses.rows, h.proposedBy = .playbook ∧ h.subjectRef = subjectRef ∧ h.claim = claim

def HasObligation (s : PlannerStore) (key : String) : Prop :=
  ∃ o ∈ s.investigation.obligations.rows, o.dedupeKey = key

/-- Hypotheses and obligations have been added, and the inputs and checkpoints left alone. -/
structure Grown (claims : List (String × String)) (keys : List String) (s s' : PlannerStore) :
    Prop where
  inputs : s'.inputs = s.inputs
  references : s'.references = s.references
  checkpoints : s'.checkpoints = s.checkpoints
  hypothesis : ∀ subjectRef claim, HasHypothesis s' subjectRef claim ↔
    HasHypothesis s subjectRef claim ∨ (subjectRef, claim) ∈ claims
  obligation : ∀ key, HasObligation s' key ↔ HasObligation s key ∨ key ∈ keys

variable {r : PlanRuntime} {initial s s' s'' : PlannerStore} {claims claims' : List (String × String)}
  {keys keys' : List String}

/-! ### Inputs -/

section

variable (h : s'.inputs = s.inputs)

include h

theorem inputs_facts : s'.facts = s.facts := congrArg Prod.fst h

theorem inputs_assessments : s'.assessments = s.assessments := congrArg (·.2.1) h

theorem inputs_relations : s'.relations = s.relations := congrArg (·.2.2.1) h

theorem inputs_edges : s'.edges = s.edges := congrArg (·.2.2.2.1) h

theorem inputs_checks : s'.checks = s.checks := congrArg (·.2.2.2.2) h

theorem riskAssessments_congr : riskAssessments r s' = riskAssessments r s := by
  rw [riskAssessments, riskAssessments, effectiveRiskIds, effectiveRiskIds, inputs_assessments h,
    inputs_relations h]

theorem hasRisk_congr (subjectRef : String) : hasRisk r s' subjectRef = hasRisk r s subjectRef := by
  rw [hasRisk, hasRisk, riskAssessments_congr h]

theorem riskCategories_congr (subjectRef : String) :
    riskCategories r s' subjectRef = riskCategories r s subjectRef := by
  rw [riskCategories, riskCategories, riskAssessments_congr h]

theorem categoriesOf_congr (fact : FactRecord) : categoriesOf r s' fact = categoriesOf r s fact := by
  rw [categoriesOf, categoriesOf, riskCategories_congr h, inputs_checks h, inputs_edges h]

end

/-! ### Growing -/

theorem Grown.refl : Grown [] [] s s :=
  ⟨rfl, rfl, rfl, fun _ _ => by simp, fun _ => by simp⟩

theorem Grown.trans (h : Grown claims keys s s') (h' : Grown claims' keys' s' s'') :
    Grown (claims ++ claims') (keys ++ keys') s s'' where
  inputs := h'.inputs.trans h.inputs
  references := h'.references.trans h.references
  checkpoints := h'.checkpoints.trans h.checkpoints
  hypothesis subjectRef claim := by
    rw [h'.hypothesis, h.hypothesis, List.mem_append, or_assoc]
  obligation key := by
    rw [h'.obligation, h.obligation, List.mem_append, or_assoc]

/-- The program returns, and has added these hypotheses and obligations. -/
@[irreducible]
def Grows {α : Type} (p : PlannerProgram α) (claims : List (String × String)) (keys : List String)
    (s : PlannerStore) : Prop :=
  Program.Ensures p s (fun _ s' => Grown claims keys s s') fun _ _ => False

theorem Grows.returned {α : Type} {p : PlannerProgram α} (h : Grows p claims keys s) :
    ∃ a s', p.run s = (.ok a, s') ∧ Grown claims keys s s' := by
  rw [Grows, Program.Ensures] at h
  split at h
  · rename_i a s' hrun
    exact ⟨a, s', hrun, h⟩
  · exact h.elim

theorem Grows.bind {α β : Type} {p : PlannerProgram α} {f : α → PlannerProgram β}
    (h : Grows p claims keys s)
    (hf : ∀ a s', p.run s = (.ok a, s') → Grown claims keys s s' → Grows (f a) claims' keys' s') :
    Grows (p >>= f) (claims ++ claims') (keys ++ keys') s := by
  obtain ⟨a, s', hrun, hgrown⟩ := h.returned
  have hrest := hf a s' hrun hgrown
  rw [Grows] at hrest ⊢
  rw [Program.Ensures, Program.bind_returned hrun]
  exact hrest.mono (fun _ _ hgrown' => hgrown.trans hgrown') fun _ _ he => he

theorem grows_pure {α : Type} {a : α} : Grows (pure a) [] [] s := by
  rw [Grows]
  exact Grown.refl

theorem Grows.map {α β : Type} {p : PlannerProgram α} {f : α → β} (h : Grows p claims keys s) :
    Grows (do let a ← p; return f a) claims keys s := by
  have hbind := h.bind (f := fun a => pure (f a)) fun _ _ _ _ => grows_pure
  rwa [List.append_nil, List.append_nil] at hbind

/-- A loop adds what its turns add. -/
theorem grows_gather {α β : Type} {body : α → PlannerProgram β} {claimsOf : α → List (String × String)}
    {keysOf : α → List String} {l : List α}
    (hbody : ∀ a ∈ l, ∀ s', s'.references = s.references → Grows (body a) (claimsOf a) (keysOf a) s') :
    Grows (Program.gather body l) (l.flatMap claimsOf) (l.flatMap keysOf) s := by
  have hnone : Grown (([] : List α).flatMap claimsOf) (([] : List α).flatMap keysOf) s s := Grown.refl
  rw [Grows]
  refine Program.ensures_gather
    (I := fun (done : List α) (s' : PlannerStore) =>
      Grown (done.flatMap claimsOf) (done.flatMap keysOf) s s')
    hnone fun done s' a ha hgrown => ?_
  have hturn := hbody a ha s' hgrown.references
  rw [Grows] at hturn
  refine hturn.mono (fun _ s'' hgrown' => ?_) fun _ _ he => he
  rw [List.flatMap_append, List.flatMap_append, List.flatMap_singleton, List.flatMap_singleton]
  exact hgrown.trans hgrown'

/-! ### Obligations and actions -/

section

variable {store : InvestigationStore}

theorem putInvestigationObligation_total (value : InvestigationObligation)
    (hfresh : ∀ o ∈ store.obligations.rows, o.obligationId ≠ value.obligationId) :
    ∃ store' stored, store.putInvestigationObligation value = .ok (store', stored) ∧
      ∀ key, (∃ o ∈ store'.obligations.rows, o.dedupeKey = key) ↔
        (∃ o ∈ store.obligations.rows, o.dedupeKey = key) ∨ key = value.dedupeKey := by
  have hrows : ∀ key, (∃ o ∈ (store.obligations.insertOrIgnore value).rows, o.dedupeKey = key) ↔
      (∃ o ∈ store.obligations.rows, o.dedupeKey = key) ∨ key = value.dedupeKey := by
    intro key
    by_cases htaken : ∃ o ∈ store.obligations.rows, o.dedupeKey = value.dedupeKey
    · have hsame : store.obligations.insertOrIgnore value = store.obligations := by
        refine IndexedTable.insertOrIgnore_taken fun hall => ?_
        obtain ⟨o, ho, hkey⟩ := htaken
        exact (hall o ho).2 hkey
      rw [hsame]
      refine ⟨Or.inl, fun h => ?_⟩
      rcases h with h | rfl
      · exact h
      · exact htaken
    · have hnew : (store.obligations.insertOrIgnore value).rows = store.obligations.rows ++ [value] :=
        IndexedTable.insertOrIgnore_fresh fun o ho => ⟨hfresh o ho, fun hkey => htaken ⟨o, ho, hkey⟩⟩
      rw [hnew]
      constructor
      · rintro ⟨o, ho, rfl⟩
        rcases List.mem_append.1 ho with ho | ho
        · exact Or.inl ⟨o, ho, rfl⟩
        · exact Or.inr (congrArg _ (List.mem_singleton.1 ho))
      · rintro (⟨o, ho, hkey⟩ | rfl)
        · exact ⟨o, List.mem_append_left _ ho, hkey⟩
        · exact ⟨value, List.mem_append_right _ (List.mem_singleton_self _), rfl⟩
  obtain ⟨o, ho, hkey⟩ := (hrows value.dedupeKey).2 (Or.inr rfl)
  cases hfind : (store.obligations.insertOrIgnore value).rows.find?
      fun o => o.dedupeKey = value.dedupeKey with
  | none => exact absurd hkey (by simpa using List.find?_eq_none.1 hfind o ho)
  | some stored =>
    refine ⟨{ store with obligations := store.obligations.insertOrIgnore value }, stored, ?_, hrows⟩
    rw [putInvestigationObligation, hfind]
    rfl

theorem mergeAction_keys {stored value : InvestigationAction} {key : String} :
    (∃ o ∈ (store.mergeAction stored value).1.obligations.rows, o.dedupeKey = key) ↔
      ∃ o ∈ store.obligations.rows, o.dedupeKey = key := by
  rw [mergeAction]
  dsimp only
  split
  · exact Iff.rfl
  · split
    · exact Iff.rfl
    · exact IndexedTable.exists_alt_modify

theorem insertAction_total {value : InvestigationAction}
    (hfresh : ∀ a ∈ store.actions.rows, a.actionId ≠ value.actionId)
    (hkey : store.actions.rows.find? (fun a => a.idempotencyKey = value.idempotencyKey) = none) :
    ∃ store' stored, store.insertAction value = .ok (store', stored) ∧
      ∀ key, (∃ o ∈ store'.obligations.rows, o.dedupeKey = key) ↔
        ∃ o ∈ store.obligations.rows, o.dedupeKey = key := by
  have hnew : ∀ candidate : InvestigationAction, candidate.actionId = value.actionId →
      candidate.idempotencyKey = value.idempotencyKey →
      (store.actions.insertOrIgnore candidate).rows.find?
        (fun a => a.idempotencyKey = value.idempotencyKey) = some candidate := by
    intro candidate hid hidem
    have hrows := IndexedTable.insertOrIgnore_fresh (t := store.actions) (r := candidate) fun a ha => by
      rw [hid, hidem]
      exact ⟨hfresh a ha, by simpa using List.find?_eq_none.1 hkey a ha⟩
    rw [hrows, List.find?_append, hkey]
    simp [hidem]
  by_cases hcap : store.capacityExceeded value = true
  · let inserted := { store with actions := store.actions.insertOrIgnore (capacityBlocked value) }
    refine ⟨inserted.closeObligations (fun o => o.obligationId ∈ value.obligationIds) capacityClosing,
      capacityBlocked value, ?_, fun key => IndexedTable.exists_alt_modify⟩
    rw [insertAction, if_pos hcap]
    dsimp only
    rw [hnew (capacityBlocked value) rfl rfl]
    exact if_pos hcap
  · refine ⟨{ store with actions := store.actions.insertOrIgnore value }, value, ?_, fun key => Iff.rfl⟩
    rw [insertAction, if_neg hcap]
    dsimp only
    rw [hnew value rfl rfl]
    exact if_neg hcap

theorem putInvestigationAction_total (value : InvestigationAction) (hdepends : value.dependsOn = [])
    (hfresh : ∀ a ∈ store.actions.rows, a.actionId ≠ value.actionId)
    (hserves : ∀ id ∈ value.obligationIds, ∃ o ∈ store.obligations.rows, o.obligationId = id) :
    ∃ store' stored, store.putInvestigationAction value = .ok (store', stored) ∧
      ∀ key, (∃ o ∈ store'.obligations.rows, o.dedupeKey = key) ↔
        ∃ o ∈ store.obligations.rows, o.dedupeKey = key := by
  have hknown : (value.obligationIds.all fun id =>
      store.obligations.rows.any fun o => o.obligationId = id) = true := by
    simpa using hserves
  rw [putInvestigationAction, hdepends, hknown]
  cases hfind : store.actions.rows.find? fun a => a.idempotencyKey = value.idempotencyKey with
  | none => exact insertAction_total hfresh hfind
  | some stored =>
    exact ⟨_, _, rfl, fun key => mergeAction_keys⟩

end

/-! ### The parts of a call -/

/-- An update that returns adds what its body adds. -/
theorem grows_update {α : Type} {body : PlannerStore → Except Thrown (α × PlannerStore)} {a : α}
    (h : body s = .ok (a, s')) (hgrown : Grown claims keys s s') :
    Grows (Program.update body) claims keys s := by
  rw [Grows, Program.Ensures, Program.update_returned h]
  exact hgrown

theorem update_inj {α : Type} {body : PlannerStore → Except Thrown (α × PlannerStore)} {a a' : α}
    (h : body s = .ok (a, s')) (hrun : (Program.update body).run s = (.ok a', s'')) : a = a' ∧ s' = s'' := by
  rw [Program.update_returned h] at hrun
  simpa using hrun

theorem putInvestigationHypothesis_total (hypothesis : InvestigationHypothesis)
    (hsubject : hypothesis.subjectRef ∈ s.references)
    (hfresh : ∀ h ∈ s.hypotheses.rows, h.hypothesisId ≠ hypothesis.hypothesisId) :
    ∃ hypotheses, putInvestigationHypothesis hypothesis s = .ok { s with hypotheses } ∧
      hypotheses.rows = s.hypotheses.rows ++ [hypothesis] := by
  cases hinsert : s.hypotheses.insert? hypothesis with
  | none =>
    obtain ⟨h, hh, hid⟩ := Table.insert?_eq_none.1 hinsert
    exact absurd hid (hfresh h hh)
  | some hypotheses =>
    refine ⟨hypotheses, ?_, (Table.insert?_eq_some hinsert).2⟩
    rw [putInvestigationHypothesis, hinsert, decide_eq_true hsubject]
    rfl

theorem draw_fresh {ρ : Type} {rows : List ρ} {key : ρ → String} (kind : String) :
    ∀ x ∈ rows, key x ≠ r.ids.draw kind (rows.map key) := by
  intro x hx hkey
  have hused := List.mem_map_of_mem (f := key) hx
  rw [hkey] at hused
  exact r.ids.fresh kind _ hused

theorem ensureHypothesis_grows {fact : FactRecord} (category : CheckCategory)
    (hsubject : fact.subjectRef ∈ s.references) :
    Grows (ensureHypothesis r fact category) [(fact.subjectRef, claimFor category fact.namespace_)]
      [] s := by
  have hsame : ∀ {s' : PlannerStore}, s'.investigation = s.investigation → ∀ key,
      HasObligation s' key ↔ HasObligation s key ∨ key ∈ [] := fun h key => by
    rw [HasObligation, HasObligation, h]
    simp
  cases hfind : existingHypothesis fact.subjectRef (claimFor category fact.namespace_) s with
  | some existing =>
    have hexists : HasHypothesis s fact.subjectRef (claimFor category fact.namespace_) := by
      have hmatch := List.find?_some hfind
      simp only [Bool.and_eq_true, decide_eq_true_eq] at hmatch
      exact ⟨existing, List.mem_of_find?_eq_some hfind, hmatch.2, hmatch.1.1, hmatch.1.2⟩
    refine grows_update (by rw [hfind]) (⟨rfl, rfl, rfl, ?_, hsame rfl⟩ : Grown _ _ s s)
    intro subjectRef claim
    rw [List.mem_singleton, Prod.mk.injEq]
    refine ⟨Or.inl, fun h => ?_⟩
    rcases h with h | ⟨rfl, rfl⟩
    · exact h
    · exact hexists
  | none =>
    obtain ⟨hypotheses, hput, hrows⟩ := putInvestigationHypothesis_total
      (newHypothesis r fact category s) hsubject (draw_fresh "HYP-")
    refine grows_update (by rw [hfind]; dsimp only; rw [hput]; rfl)
      (⟨rfl, rfl, rfl, ?_, hsame rfl⟩ : Grown _ _ s { s with hypotheses })
    intro subjectRef claim
    rw [List.mem_singleton, Prod.mk.injEq, HasHypothesis]
    dsimp only
    rw [hrows]
    constructor
    · rintro ⟨h, hh, hplaybook, rfl, rfl⟩
      rcases List.mem_append.1 hh with hh | hh
      · exact Or.inl ⟨h, hh, hplaybook, rfl, rfl⟩
      · rw [List.mem_singleton.1 hh]
        exact Or.inr ⟨rfl, rfl⟩
    · rintro (⟨h, hh, hrest⟩ | ⟨rfl, rfl⟩)
      · exact ⟨h, List.mem_append_left _ hh, hrest⟩
      · exact ⟨_, List.mem_append_right _ (List.mem_singleton_self _), rfl, rfl, rfl⟩

theorem putObligation_returned (value : InvestigationObligation)
    (hid : value.obligationId =
      r.ids.draw "OBL-" (s.investigation.obligations.rows.map (·.obligationId))) :
    ∃ stored s', putObligation value s = .ok (stored, s') ∧ Grown [] [value.dedupeKey] s s' ∧
      stored ∈ s'.investigation.obligations.rows := by
  obtain ⟨investigation, stored, hput, hkeys⟩ := putInvestigationObligation_total value
    fun o ho => hid ▸ draw_fresh "OBL-" o ho
  refine ⟨stored, { s with investigation }, by rw [putObligation, hput]; rfl,
    ⟨rfl, rfl, rfl, fun _ _ => by simp; rfl, fun key => ?_⟩, (putInvestigationObligation_ok hput).1⟩
  rw [List.mem_singleton]
  exact hkeys key

theorem putAction_returned (value : InvestigationAction) (hdepends : value.dependsOn = [])
    (hid : value.actionId = r.ids.draw "IACT-" (s.investigation.actions.rows.map (·.actionId)))
    (hserves : ∀ id ∈ value.obligationIds,
      ∃ o ∈ s.investigation.obligations.rows, o.obligationId = id) :
    ∃ stored s', putAction value s = .ok (stored, s') ∧ Grown [] [] s s' := by
  obtain ⟨investigation, stored, hput, hkeys⟩ := putInvestigationAction_total value hdepends
    (fun a ha => hid ▸ draw_fresh "IACT-" a ha) hserves
  refine ⟨stored, { s with investigation }, by rw [putAction, hput]; rfl,
    ⟨rfl, rfl, rfl, fun _ _ => by simp; rfl, fun key => ?_⟩⟩
  rw [HasObligation, HasObligation]
  simpa using hkeys key

theorem putOperation_grows (fact : FactRecord) (operation : PlannedOperation) :
    Grows (putOperation r fact operation) [] [dedupeKey operation fact.subjectRef] s := by
  obtain ⟨obligation, s', hput, hgrown, hstored⟩ := putObligation_returned
    (newObligation r operation fact.subjectRef s) rfl
  have hobligation : Grows
      (Program.update fun s => putObligation (newObligation r operation fact.subjectRef s) s)
      [] [dedupeKey operation fact.subjectRef] s := grows_update hput hgrown
  rw [putOperation]
  refine hobligation.bind fun a s'' hrun _ => ?_
  obtain ⟨rfl, rfl⟩ := update_inj hput hrun
  obtain ⟨action, s'', haction, hgrown'⟩ := putAction_returned
    (newAction r operation fact obligation.obligationId s') rfl rfl fun id hid =>
      ⟨obligation, hstored, (List.mem_singleton.1 hid).symm⟩
  have hstep : Grows
      (Program.update fun s => putAction (newAction r operation fact obligation.obligationId s) s)
      [] [] s' := grows_update haction hgrown'
  exact hstep.map

/-- The hypothesis of a fact in a category, if anything is planned for it. -/
def claimsOf (r : PlanRuntime) (edges : List EdgeRecord) (fact : FactRecord)
    (category : CheckCategory) : List (String × String) :=
  if operationsForFact r.texts fact category edges = [] then []
  else [(fact.subjectRef, claimFor category fact.namespace_)]

/-- The keys of the obligations of a fact in a category. -/
def keysOf (r : PlanRuntime) (edges : List EdgeRecord) (fact : FactRecord)
    (category : CheckCategory) : List String :=
  (operationsForFact r.texts fact category edges).map (dedupeKey · fact.subjectRef)

theorem planCategory_grows {fact : FactRecord} (category : CheckCategory)
    (hsubject : fact.subjectRef ∈ s.references) :
    Grows (planCategory r initial.edges fact category) (claimsOf r initial.edges fact category)
      (keysOf r initial.edges fact category) s := by
  rw [planCategory, claimsOf, keysOf]
  cases operationsForFact r.texts fact category initial.edges with
  | nil => exact grows_pure
  | cons operation rest =>
    rw [if_neg (by simp)]
    dsimp only
    refine (ensureHypothesis_grows category hsubject).bind fun hypothesis s' _ _ => ?_
    have hnone : (operation :: rest).flatMap (fun _ => ([] : List (String × String))) = [] :=
      List.flatMap_eq_nil_iff.2 fun _ _ => rfl
    rw [List.map_eq_flatMap, ← hnone]
    exact (grows_gather fun operation _ s' _ => putOperation_grows fact operation).map

theorem planFact_grows {fact : FactRecord} (hsubject : fact.subjectRef ∈ s.references) :
    Grows (planFact r initial fact)
      ((categoriesOf r initial fact).flatMap (claimsOf r initial.edges fact))
      ((categoriesOf r initial fact).flatMap (keysOf r initial.edges fact)) s := by
  rw [planFact]
  refine (grows_gather fun category _ s' hreferences => ?_).map
  exact planCategory_grows category (by rwa [hreferences])

theorem settleCategory_returned (category : CheckCategory) {obligation : InvestigationObligation}
    (hstored : obligation ∈ s.investigation.obligations.rows) :
    ∃ s', settleCategory category obligation s = .ok s' ∧ Grown [] [] s s' := by
  rw [settleCategory]
  split
  · obtain ⟨obligations, hupdate, hrows⟩ := updateInvestigationObligation_ok hstored
      (coverageClosing s (coverageOf s category))
    let settled := { s with investigation := { s.investigation with obligations } }
    refine ⟨settled, by rw [hupdate]; rfl, ⟨rfl, rfl, rfl, fun _ _ => by simp; rfl, fun key => ?_⟩⟩
    rw [List.mem_nil_iff, or_false, HasObligation, HasObligation]
    dsimp only [settled]
    rw [hrows]
    have hkey : ∀ o : InvestigationObligation, (if o = obligation then
        (coverageClosing s (coverageOf s category)).rewrite.apply o else o).dedupeKey = o.dedupeKey := by
      intro o
      split <;> rfl
    simp [hkey]
  · exact ⟨s, rfl, Grown.refl⟩

theorem planCategoryScope_grows (category : CheckCategory) :
    Grows (planCategoryScope r category) [] ["CATEGORY_SCOPE:" ++ category.name] s := by
  obtain ⟨obligation, s', hput, hgrown, hstored⟩ := putObligation_returned
    (categoryObligation r category s) rfl
  have hobligation : Grows (Program.update fun s => putObligation (categoryObligation r category s) s)
      [] ["CATEGORY_SCOPE:" ++ category.name] s := grows_update hput hgrown
  rw [planCategoryScope]
  refine hobligation.bind fun a s'' hrun _ => ?_
  obtain ⟨rfl, rfl⟩ := update_inj hput hrun
  obtain ⟨s'', hsettle, hgrown'⟩ := settleCategory_returned category hstored
  rw [Grows, Program.Ensures, Program.bind_returned (Program.write_returned hsettle)]
  exact hgrown'

/-! ### The latest facts -/

/-- A map from subjects to facts of theirs. -/
structure Latest (facts : List FactRecord) (latest : List (String × FactRecord)) : Prop where
  keyed : (latest.map Prod.fst).Nodup
  known : ∀ e ∈ latest, e.2 ∈ facts ∧ e.2.subjectRef = e.1

theorem latest_step {facts : List FactRecord} {latest : List (String × FactRecord)} {fact : FactRecord}
    (hfact : fact ∈ facts) (h : Latest facts latest) :
    Latest facts (OrderedMap.upsert fact.subjectRef (later fact) latest) := by
  refine ⟨OrderedMap.nodup_keys_upsert h.keyed, fun e he => ?_⟩
  rcases OrderedMap.mem_upsert he with he | rfl | ⟨v, hv, rfl⟩
  · exact h.known e he
  · exact ⟨hfact, rfl⟩
  · rw [later]
    split
    · exact ⟨hfact, rfl⟩
    · exact h.known _ hv

theorem latest_foldl {facts rest : List FactRecord} {latest : List (String × FactRecord)}
    (hrest : rest ⊆ facts) (h : Latest facts latest) : Latest facts
      (rest.foldl (fun latest fact => OrderedMap.upsert fact.subjectRef (later fact) latest)
        latest) := by
  induction rest generalizing latest with
  | nil => exact h
  | cons fact rest ih =>
    exact ih (fun _ hf => hrest (List.mem_cons_of_mem _ hf)) (latest_step (hrest List.mem_cons_self) h)

theorem latestBySubject_subset {facts : List FactRecord} : latestBySubject facts ⊆ facts := by
  intro fact hfact
  obtain ⟨e, he, rfl⟩ := List.mem_map.1 hfact
  exact ((latest_foldl (List.Subset.refl facts) ⟨by simp, by simp⟩).known e he).1

/-- No two of the latest facts are about the same subject. -/
theorem latestBySubject_keyed {facts : List FactRecord} :
    ((latestBySubject facts).map (·.subjectRef)).Nodup := by
  have hlatest := latest_foldl (List.Subset.refl facts) (⟨by simp, by simp⟩ : Latest facts [])
  rw [latestBySubject, List.map_map]
  refine (List.map_congr_left fun e he => ?_).symm ▸ hlatest.keyed
  exact (hlatest.known e he).2

theorem mem_candidates {fact : FactRecord} :
    fact ∈ candidates r s ↔ fact ∈ latestBySubject s.facts ∧ isCandidate r s fact = true := by
  rw [candidates, (List.perm_insertionSort _ _).mem_iff, List.mem_filter]

theorem mem_selected_facts {fact : FactRecord} (h : fact ∈ selected r s) : fact ∈ s.facts :=
  latestBySubject_subset (mem_candidates.1 (List.mem_of_mem_take h)).1

/-! ### A call -/

/-- What a call leaves behind. -/
structure Planned (r : PlanRuntime) (s s' : PlannerStore) : Prop where
  inputs : s'.inputs = s.inputs
  checkpoints : s'.checkpoints = s.checkpoints.put (nextCheckpoint r s s)
  hypothesis : ∀ subjectRef claim, HasHypothesis s' subjectRef claim ↔
    HasHypothesis s subjectRef claim ∨
      ∃ fact ∈ selected r s, ∃ category ∈ categoriesOf r s fact,
        operationsForFact r.texts fact category s.edges ≠ [] ∧
          fact.subjectRef = subjectRef ∧ claimFor category fact.namespace_ = claim
  obligation : ∀ key, HasObligation s' key ↔
    HasObligation s key ∨
      (∃ fact ∈ selected r s, ∃ category ∈ categoriesOf r s fact,
        ∃ operation ∈ operationsForFact r.texts fact category s.edges,
          dedupeKey operation fact.subjectRef = key) ∨
      ∃ category ∈ s.checks, "CATEGORY_SCOPE:" ++ category.name = key

theorem mem_claimsOf {edges : List EdgeRecord} {fact : FactRecord} {category : CheckCategory}
    {subjectRef claim : String} : (subjectRef, claim) ∈ claimsOf r edges fact category ↔
      operationsForFact r.texts fact category edges ≠ [] ∧ fact.subjectRef = subjectRef ∧
        claimFor category fact.namespace_ = claim := by
  rw [claimsOf]
  split
  · simp_all
  · rw [List.mem_singleton, Prod.mk.injEq]
    tauto

theorem plan_planned (r : PlanRuntime) (s : PlannerStore) :
    ∃ result s', (plan r).run s = (.ok result, s') ∧ Planned r s s' := by
  have hfacts : Grows (Program.gather (planFact r s) (selected r s))
      ((selected r s).flatMap fun fact => (categoriesOf r s fact).flatMap (claimsOf r s.edges fact))
      ((selected r s).flatMap fun fact => (categoriesOf r s fact).flatMap (keysOf r s.edges fact))
      s := by
    refine grows_gather fun fact hfact s' hreferences => ?_
    refine planFact_grows ?_
    rw [hreferences]
    exact s.referenced fact (mem_selected_facts hfact)
  obtain ⟨planned, s₁, hplanned, hgrown⟩ := hfacts.returned
  let s₂ := { s₁ with checkpoints := s₁.checkpoints.put (nextCheckpoint r s s₁) }
  have hscopes : Grows (Program.gather (planCategoryScope r) s.checks) (s.checks.flatMap fun _ => [])
      (s.checks.flatMap fun category => ["CATEGORY_SCOPE:" ++ category.name]) s₂ :=
    grows_gather fun category _ s' _ => planCategoryScope_grows category
  obtain ⟨scopes, s₃, hscoped, hgrown'⟩ := hscopes.returned
  let all := PlaybookPlanResult.join planned
  have hrun : (plan r).run s = (.ok ⟨Js.distinct all.hypothesisIds,
      Js.distinct (all.obligationIds ++ scopes), Js.distinct all.actionIds⟩, s₃) := by
    rw [plan, Program.gets_bind, id_eq, Program.bind_returned hplanned]
    exact Program.bind_returned hscoped
  refine ⟨_, s₃, hrun, hgrown'.inputs.trans hgrown.inputs, ?_, fun subjectRef claim => ?_,
    fun key => ?_⟩
  · have hnext : nextCheckpoint r s s₁ = nextCheckpoint r s s := by
      rw [nextCheckpoint, nextCheckpoint, hgrown.checkpoints]
    rw [hgrown'.checkpoints]
    dsimp only [s₂]
    rw [hnext, hgrown.checkpoints]
  · have hsame : HasHypothesis s₂ subjectRef claim ↔ HasHypothesis s₁ subjectRef claim := Iff.rfl
    rw [hgrown'.hypothesis, hsame, hgrown.hypothesis]
    simp [List.mem_flatMap, mem_claimsOf]
  · have hsame : HasObligation s₂ key ↔ HasObligation s₁ key := Iff.rfl
    rw [hgrown'.obligation, hsame, hgrown.obligation, or_assoc]
    simp [List.mem_flatMap, keysOf, eq_comm]

theorem checkpoint_planned (h : Planned r s s') : checkpoint s' = some (nextCheckpoint r s s) := by
  rw [checkpoint, h.checkpoints]
  exact Table.get?_put_self s.checkpoints (nextCheckpoint r s s)

/-- The checkpoint says that nothing is left to be planned. -/
def Complete (s : PlannerStore) : Prop := (checkpoint s).map (·.status) = some .complete

instance (s : PlannerStore) : Decidable (Complete s) := inferInstanceAs (Decidable (_ = _))

/-- The checkpoint is complete exactly when the call has taken all the candidates. -/
theorem status_planned (h : Planned r s s') :
    Complete s' ↔ (candidates r s).length ≤ playbookCandidateBatchSize := by
  have hremaining : 0 < remaining r s ↔ ¬ (candidates r s).length ≤ playbookCandidateBatchSize := by
    rw [remaining, selected, List.length_take]
    omega
  rw [Complete, checkpoint_planned h, Option.map_some, Option.some_inj, nextCheckpoint]
  dsimp only
  by_cases hle : (candidates r s).length ≤ playbookCandidateBatchSize
  · rw [if_neg (fun hpos => hremaining.1 hpos hle)]
    exact iff_of_true rfl hle
  · rw [if_pos (hremaining.2 hle)]
    exact iff_of_false (fun h => nomatch h) hle

/-! ### A small store -/

def sampleRuntime : PlanRuntime where
  texts := ⟨Js.plainCoercions, id⟩
  projection := CompletionValidator.sampleRuntime
  digestObject _ := ""
  ids := strokeIds
  taskId := "TASK-1"
  epochId := "EPOCH-1"
  authorizationVersion := "v1"
  now := 0

def sampleFact (factSeq : ℕ) (namespace_ : NamespaceName) (subjectRef : String) : FactRecord where
  factId := "FACT-" ++ subjectRef
  factSeq := factSeq
  taskId := "TASK-1"
  epochId := "EPOCH-1"
  namespace_ := namespace_
  subjectRef := subjectRef
  observedAt := ""
  sourceRunId := "RUN-1"
  source := { kind := .model }
  collector := ⟨"helper", "2"⟩
  consistency := .objectStable
  completeness := .complete
  gaps := []
  privatePayload := []
  modelPayload := []
  redactedFields := []
  unavailableFields := []
  payloadDigest := ""
  provenance := ⟨"", "", "", ""⟩

def sampleRisk (assessmentId : String) (category : CheckCategory) (subjectRef : String) : Assessment :=
  ⟨assessmentId, "TASK-1", "EPOCH-1", .rule, category, some subjectRef, .subject, .suspicious, ""⟩

def sampleCheckpoint (scannedCount : ℕ) : DiscoveryCheckpoint where
  checkpointId := "DCHK-1"
  namespace_ := checkpointKey.1
  requestDigest := checkpointKey.2
  status := .complete
  scannedCount := scannedCount
  matchedCount := 0
  returnedCount := 0

/-- A store in which the planner has come to a watermark. -/
def sampleStore (facts : List FactRecord) (numbered : facts.Pairwise fun a b => a.factSeq < b.factSeq)
    (checks : List CheckCategory) (assessments : List Assessment) (scannedCount : ℕ) :
    PlannerStore where
  checks := checks
  facts := facts
  references := facts.map (·.subjectRef)
  assessments := assessments
  relations := []
  edges := []
  coverage := []
  missingCriteria _ := []
  hypotheses := .empty
  investigation := .empty
  checkpoints := Table.empty.put (sampleCheckpoint scannedCount)
  numbered := numbered
  referenced _ h := List.mem_map_of_mem h

end HuntWarden.Playbooks
