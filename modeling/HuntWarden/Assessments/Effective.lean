import HuntWarden.Assessments.Projection
import HuntWarden.Lib.Digraph
import HuntWarden.Lib.Paging

/-! What the effective assessments of an epoch rest on. The relations that take effect close no circle
    and never lead to a higher authority, so each group keeps an assessment that nothing replaces; what
    is concluded is the worst of the risks that are left, and none of it depends on the order in which
    assessments and relations are listed. -/

namespace HuntWarden.Projection

open OrderedMap HuntWarden.Digraph Relation Paging

variable (r : Runtime)

/-! ### The relations that take effect -/

/-- What the relations do, each in its turn. -/
def adjudicationOf (assessments : List Assessment) (relations : List AssessmentRelation) :
    Adjudication :=
  (relations.insertionSort fun a b =>
    earlier r a.createdAt a.relationId b.createdAt b.relationId).foldl (adjudicate r assessments) .none

/-- A relation from the one assessment to the other has taken effect. -/
def Replaces (assessments : List Assessment) (relations : List AssessmentRelation) :
    String → String → Prop :=
  Edge (adjudicationOf r assessments relations).replacements

def Superseded (assessments : List Assessment) (relations : List AssessmentRelation)
    (assessmentId : String) : Prop :=
  assessmentId ∈ (adjudicationOf r assessments relations).superseded

instance (assessments : List Assessment) (relations : List AssessmentRelation) (assessmentId : String) :
    Decidable (Superseded r assessments relations assessmentId) :=
  inferInstanceAs (Decidable (assessmentId ∈ (adjudicationOf r assessments relations).superseded))

/-- An assessment that may replace another: the same task, epoch and key, and no lower an authority. -/
structure Outranks (source target : Assessment) : Prop where
  key : keyOf source = keyOf target
  task : source.taskId = target.taskId
  epoch : source.epochId = target.epochId
  authority : authorAuthority target.authorType ≤ authorAuthority source.authorType

theorem Outranks.trans {a b c : Assessment} (h : Outranks a b) (h' : Outranks b c) : Outranks a c :=
  ⟨h.key.trans h'.key, h.task.trans h'.task, h.epoch.trans h'.epoch, h'.authority.trans h.authority⟩

/-- Two assessments that some relation joins. -/
structure Joined (assessments : List Assessment) (relations : List AssessmentRelation)
    (sourceId targetId : String) : Prop where
  related : ∃ relation ∈ relations, (relation.kind = .adjudicates ∨ relation.kind = .supersedes) ∧
    relation.fromAssessmentId = sourceId ∧ relation.toAssessmentId = targetId
  outranks : ∃ source ∈ assessments, ∃ target ∈ assessments,
    source.assessmentId = sourceId ∧ target.assessmentId = targetId ∧ Outranks source target

/-- What the relations have done so far keeps its order. -/
structure Ordered (assessments : List Assessment) (relations : List AssessmentRelation)
    (adjudication : Adjudication) : Prop where
  joined : ∀ a b, Edge adjudication.replacements a b → Joined assessments relations a b
  superseded : ∀ b, b ∈ adjudication.superseded ↔ ∃ a, Edge adjudication.replacements a b
  acyclic : Acyclic (Edge adjudication.replacements)
  rooted : Rooted (Edge adjudication.replacements)

theorem ordered_none (assessments : List Assessment) (relations : List AssessmentRelation) :
    Ordered assessments relations .none := by
  have hnone : ∀ a b, ¬ Edge Adjudication.none.replacements a b := fun _ _ h => List.not_mem_nil h
  refine ⟨fun a b h => absurd h (hnone a b), fun b => ?_, fun node h => ?_, fun node => ?_⟩
  · exact ⟨fun h => absurd h List.not_mem_nil, fun ⟨a, h⟩ => absurd h (hnone a b)⟩
  · obtain ⟨next, hedge, -⟩ := TransGen.head'_iff.1 h
    exact hnone _ _ hedge
  · exact ⟨node, fun other => hnone other node, .refl⟩

variable {r} {assessments : List Assessment} {relations : List AssessmentRelation}

theorem byId_eq_some {id : String} {a : Assessment} (h : byId assessments id = some a) :
    a ∈ assessments ∧ a.assessmentId = id := by
  rw [byId] at h
  have hfound := List.find?_some h
  exact ⟨List.mem_reverse.1 (List.mem_of_find?_eq_some h), of_decide_eq_true hfound⟩

theorem admissible_iff {adjudication : Adjudication} {relation : AssessmentRelation}
    {source target : Assessment} (h : admissible r adjudication relation source target = true) :
    Outranks source target ∧
      reaches adjudication.replacements target.assessmentId source.assessmentId = false := by
  rw [admissible] at h
  split at h
  · simp only [Bool.and_eq_true, decide_eq_true_eq, sameProjection, Bool.not_eq_true'] at h
    obtain ⟨⟨⟨⟨⟨⟨⟨-, ⟨hkey, htask⟩, hepoch⟩, -⟩, -⟩, -⟩, -⟩, hauthority⟩, hreaches⟩ := h
    exact ⟨⟨hkey, htask, hepoch, hauthority⟩, hreaches⟩
  · cases h

/-- A relation takes effect only where it keeps the order; otherwise it is noted as ignored. -/
theorem Ordered.adjudicate {adjudication : Adjudication} (h : Ordered assessments relations adjudication)
    {relation : AssessmentRelation} (hmem : relation ∈ relations) :
    Ordered assessments relations (Projection.adjudicate r assessments adjudication relation) := by
  have hignore : ∀ items, Ordered assessments relations
      (ignore relation.relationId items adjudication) :=
    fun items => ⟨h.joined, h.superseded, h.acyclic, h.rooted⟩
  rw [Projection.adjudicate]
  split
  · exact h
  · next hkind =>
    dsimp only
    cases hsource : byId assessments relation.fromAssessmentId with
    | none => exact hignore _
    | some source =>
      cases htarget : byId assessments relation.toAssessmentId with
      | none => exact hignore _
      | some target =>
        dsimp only
        split
        · next hadmissible =>
          obtain ⟨houtranks, hreaches⟩ := admissible_iff hadmissible
          obtain ⟨hsourceMem, hsourceId⟩ := byId_eq_some hsource
          obtain ⟨htargetMem, htargetId⟩ := byId_eq_some htarget
          have hback := not_reachable hreaches
          refine ⟨?_, ?_, ?_, ?_⟩
          · intro a b hedge
            rw [edge_addTo] at hedge
            rcases hedge with hold | ⟨rfl, rfl⟩
            · exact h.joined a b hold
            · refine ⟨⟨relation, hmem, ?_, hsourceId.symm, htargetId.symm⟩,
                ⟨source, hsourceMem, target, htargetMem, rfl, rfl, houtranks⟩⟩
              by_contra hneither
              exact hkind (not_or.1 hneither)
          · intro b
            dsimp only
            rw [Js.mem_addAll, List.mem_singleton, h.superseded, edge_addTo]
            constructor
            · rintro (⟨a, hold⟩ | rfl)
              · exact ⟨a, Or.inl hold⟩
              · exact ⟨source.assessmentId, Or.inr ⟨rfl, rfl⟩⟩
            · rintro ⟨a, hold | ⟨-, hb⟩⟩
              · exact Or.inl ⟨a, hold⟩
              · exact Or.inr hb
          · dsimp only
            rw [edge_addTo]
            exact h.acyclic.extended hback
          · dsimp only
            rw [edge_addTo]
            exact h.rooted.extended hback
        · exact hignore _

variable (r assessments relations) in
theorem ordered_adjudicationOf : Ordered assessments relations (adjudicationOf r assessments relations) := by
  have hrun : ∀ (rest : List AssessmentRelation) (adjudication : Adjudication),
      (∀ relation ∈ rest, relation ∈ relations) → Ordered assessments relations adjudication →
      Ordered assessments relations (rest.foldl (Projection.adjudicate r assessments) adjudication) := by
    intro rest
    induction rest with
    | nil => exact fun _ _ h => h
    | cons relation rest ih =>
      intro adjudication hmem h
      exact ih _ (fun other hother => hmem other (List.mem_cons_of_mem _ hother))
        (h.adjudicate (hmem relation List.mem_cons_self))
  exact hrun _ _ (fun relation hmem => (List.perm_insertionSort _ _).mem_iff.1 hmem)
    (ordered_none assessments relations)

/-! ### What is left of a group -/

section Unique

variable (hids : (assessments.map (·.assessmentId)).Nodup)

include hids

theorem eq_of_assessmentId {a b : Assessment} (ha : a ∈ assessments) (hb : b ∈ assessments)
    (h : a.assessmentId = b.assessmentId) : a = b :=
  List.inj_on_of_nodup_map hids ha hb h

theorem Joined.of_mem {a b : Assessment} (ha : a ∈ assessments) (hb : b ∈ assessments)
    (h : Joined assessments relations a.assessmentId b.assessmentId) : Outranks a b := by
  obtain ⟨source, hsource, target, htarget, hsourceId, htargetId, houtranks⟩ := h.outranks
  obtain rfl := eq_of_assessmentId hids hsource ha hsourceId
  obtain rfl := eq_of_assessmentId hids htarget hb htargetId
  exact houtranks

/-- Along a path of replacements the authority does not fall. -/
theorem outranks_of_path {sourceId : String} {target : Assessment} (htarget : target ∈ assessments)
    (h : TransGen (Replaces r assessments relations) sourceId target.assessmentId) :
    ∃ source ∈ assessments, source.assessmentId = sourceId ∧ Outranks source target := by
  have hordered := ordered_adjudicationOf r assessments relations
  induction h using TransGen.head_induction_on with
  | single hedge =>
    obtain ⟨source, hsource, target', htarget', hid, htargetId, houtranks⟩ :=
      (hordered.joined _ _ hedge).outranks
    obtain rfl := eq_of_assessmentId hids htarget' htarget htargetId
    exact ⟨source, hsource, hid, houtranks⟩
  | head hedge _ ih =>
    obtain ⟨middle, hmiddle, hmiddleId, hrest⟩ := ih
    obtain ⟨source, hsource, target', htarget', hid, htargetId, houtranks⟩ :=
      (hordered.joined _ _ hedge).outranks
    obtain rfl := eq_of_assessmentId hids htarget' hmiddle (htargetId.trans hmiddleId.symm)
    exact ⟨source, hsource, hid, houtranks.trans hrest⟩

/-- A superseded assessment gives way to one that nothing replaces. -/
theorem exists_unsuperseded {a : Assessment} (ha : a ∈ assessments)
    (h : Superseded r assessments relations a.assessmentId) :
    ∃ b ∈ assessments, ¬ Superseded r assessments relations b.assessmentId ∧
      TransGen (Replaces r assessments relations) b.assessmentId a.assessmentId ∧ Outranks b a := by
  have hordered := ordered_adjudicationOf r assessments relations
  obtain ⟨root, hroot, hpath⟩ := hordered.rooted a.assessmentId
  rcases reflTransGen_iff_eq_or_transGen.1 hpath with heq | hpath
  · obtain ⟨source, hedge⟩ := (hordered.superseded _).1 h
    exact absurd (heq ▸ hedge) (hroot source)
  · obtain ⟨b, hb, rfl, houtranks⟩ := outranks_of_path hids ha hpath
    refine ⟨b, hb, fun hsuperseded => ?_, hpath, houtranks⟩
    obtain ⟨source, hedge⟩ := (hordered.superseded _).1 hsuperseded
    exact hroot source hedge

variable (r relations) in
/-- Every group keeps an assessment. -/
theorem exists_active {a : Assessment} (ha : a ∈ assessments) :
    ∃ b ∈ assessments, keyOf b = keyOf a ∧ ¬ Superseded r assessments relations b.assessmentId := by
  by_cases h : Superseded r assessments relations a.assessmentId
  · obtain ⟨b, hb, hactive, -, houtranks⟩ := exists_unsuperseded hids ha h
    exact ⟨b, hb, houtranks.key, hactive⟩
  · exact ⟨a, ha, rfl, h⟩

end Unique

/-! ### The conclusion of a group -/

/-- How bad a verdict is; what is no risk counts nothing. -/
def risk (v : AssessmentVerdict) : ℕ := (riskRank v).getD 0

theorem risk_foldl_worse (best : AssessmentVerdict) (risks : List Assessment) :
    (∀ a ∈ risks, risk a.verdict ≤ risk (risks.foldl (fun best a => worse best a.verdict) best)) ∧
    risk best ≤ risk (risks.foldl (fun best a => worse best a.verdict) best) ∧
    (risks.foldl (fun best a => worse best a.verdict) best = best ∨
      ∃ a ∈ risks, a.verdict = risks.foldl (fun best a => worse best a.verdict) best) := by
  induction risks generalizing best with
  | nil => exact ⟨fun _ h => absurd h List.not_mem_nil, le_refl _, Or.inl rfl⟩
  | cons first risks ih =>
    rw [List.foldl_cons]
    obtain ⟨hall, hbest, hfrom⟩ := ih (worse best first.verdict)
    have hworse : risk best ≤ risk (worse best first.verdict) ∧
        risk first.verdict ≤ risk (worse best first.verdict) := by
      rw [worse]
      split
      · next hlt => exact ⟨hlt.le, le_refl _⟩
      · next hle => exact ⟨le_refl _, not_lt.1 hle⟩
    refine ⟨fun a ha => ?_, hworse.1.trans hbest, ?_⟩
    · rcases List.mem_cons.1 ha with rfl | ha
      · exact hworse.2.trans hbest
      · exact hall a ha
    · rcases hfrom with heq | ⟨a, ha, heq⟩
      · rw [heq, worse]
        split
        · exact Or.inr ⟨first, List.mem_cons_self, rfl⟩
        · exact Or.inl rfl
      · exact Or.inr ⟨a, List.mem_cons_of_mem _ ha, heq⟩

/-- An active assessment of some risk. -/
def IsRisk (a : Assessment) : Prop := (riskRank a.verdict).isSome = true

/-- A risk beside a clearance is a conflict. -/
theorem resolveConclusion_conflict {active : List Assessment} {a b : Assessment} (ha : a ∈ active)
    (hrisk : IsRisk a) (hb : b ∈ active) (hclear : isClearance b.verdict = true) :
    (resolveConclusion active).1 = .conflict := by
  have hrisks : a ∈ active.filter fun a => (riskRank a.verdict).isSome := List.mem_filter.2 ⟨ha, hrisk⟩
  have hclearances : (active.filter fun a => isClearance a.verdict) ≠ [] :=
    List.ne_nil_of_mem (List.mem_filter.2 ⟨hb, hclear⟩)
  rw [resolveConclusion]
  cases hcases : active.filter fun a => (riskRank a.verdict).isSome with
  | nil => rw [hcases] at hrisks; cases hrisks
  | cons first rest =>
    dsimp only
    rw [if_pos hclearances]

/-- Risks without a clearance are concluded as the worst of them. -/
theorem resolveConclusion_risk {active : List Assessment} {a : Assessment} (ha : a ∈ active)
    (hrisk : IsRisk a) (hclear : ∀ b ∈ active, isClearance b.verdict = false) :
    ∃ worst ∈ active, IsRisk worst ∧ (resolveConclusion active).1 = .verdict worst.verdict ∧
      ∀ b ∈ active, risk b.verdict ≤ risk worst.verdict := by
  have hrisks : a ∈ active.filter fun a => (riskRank a.verdict).isSome := List.mem_filter.2 ⟨ha, hrisk⟩
  have hclearances : (active.filter fun a => isClearance a.verdict) = [] :=
    List.filter_eq_nil_iff.2 fun b hb => by rw [hclear b hb]; exact Bool.false_ne_true
  have hmem : ∀ b ∈ active.filter (fun a => (riskRank a.verdict).isSome), b ∈ active ∧ IsRisk b :=
    fun b hb => List.mem_filter.1 hb
  have hsafe : ∀ b ∈ active, b ∉ active.filter (fun a => (riskRank a.verdict).isSome) →
      risk b.verdict = 0 := by
    intro b hb hnot
    rw [List.mem_filter, not_and] at hnot
    rw [risk, Option.not_isSome_iff_eq_none.1 (hnot hb), Option.getD_none]
  rw [resolveConclusion]
  cases hcases : active.filter fun a => (riskRank a.verdict).isSome with
  | nil => rw [hcases] at hrisks; cases hrisks
  | cons first rest =>
    rw [hcases] at hmem hsafe
    dsimp only
    rw [if_neg (not_not.2 hclearances)]
    obtain ⟨hall, -, hfrom⟩ := risk_foldl_worse first.verdict (first :: rest)
    have hworst : ∃ worst ∈ first :: rest, worst.verdict =
        (first :: rest).foldl (fun best a => worse best a.verdict) first.verdict := by
      rcases hfrom with heq | ⟨worst, hworst, heq⟩
      · exact ⟨first, List.mem_cons_self, heq.symm⟩
      · exact ⟨worst, hworst, heq⟩
    obtain ⟨worst, hworst, heq⟩ := hworst
    refine ⟨worst, (hmem worst hworst).1, (hmem worst hworst).2, by rw [heq], fun b hb => ?_⟩
    by_cases hb' : b ∈ first :: rest
    · rw [heq]
      exact hall b hb'
    · rw [hsafe b hb hb']
      exact Nat.zero_le _

/-! ### The groups of a projection -/

/-- The assessments of a key. -/
def groupOf (assessments : List Assessment) (key : String) : List Assessment :=
  assessments.filter fun a => keyOf a = key

theorem mem_projectEffectiveAssessments {p : EffectiveAssessmentProjection} :
    p ∈ projectEffectiveAssessments r assessments relations ↔
      ∃ key first, (groupOf assessments key).head? = some first ∧
        p = project r (adjudicationOf r assessments relations) key first (groupOf assessments key) := by
  rw [projectEffectiveAssessments, (List.perm_insertionSort _ _).mem_iff, List.mem_filterMap]
  constructor
  · rintro ⟨⟨key, items⟩, hgroup, hp⟩
    obtain ⟨first, hfirst, rfl⟩ := Option.map_eq_some_iff.1 hp
    obtain ⟨-, rfl⟩ := mem_groupBy.1 hgroup
    exact ⟨key, first, hfirst, rfl⟩
  · rintro ⟨key, first, hfirst, rfl⟩
    refine ⟨(key, groupOf assessments key), mem_groupBy.2 ⟨?_, rfl⟩, ?_⟩
    · intro hnil
      rw [hnil] at hfirst
      cases hfirst
    · exact Option.map_eq_some_iff.2 ⟨first, hfirst, rfl⟩

/-- The assessments of a summary that nothing replaces. -/
def Active (r : Runtime) (assessments : List Assessment) (relations : List AssessmentRelation)
    (p : EffectiveAssessmentProjection) (a : Assessment) : Prop :=
  a ∈ assessments ∧ keyOf a = p.projectionKey ∧ ¬ Superseded r assessments relations a.assessmentId

/-- A summary is made of the assessments that nothing replaces; it never falls back on another one. -/
theorem exists_effective (hids : (assessments.map (·.assessmentId)).Nodup)
    {p : EffectiveAssessmentProjection} (h : p ∈ projectEffectiveAssessments r assessments relations) :
    ∃ effective, (∀ a, a ∈ effective ↔ Active r assessments relations p a) ∧
      p.effectiveAssessmentIds = effective.map (·.assessmentId) ∧
      p.conclusion = (resolveConclusion effective).1 := by
  obtain ⟨key, first, hfirst, rfl⟩ := mem_projectEffectiveAssessments.1 h
  have hmem : ∀ a, a ∈ ((groupOf assessments key).insertionSort fun a b =>
      earlier r a.createdAt a.assessmentId b.createdAt b.assessmentId).filter
        (fun a => a.assessmentId ∉ (adjudicationOf r assessments relations).superseded) ↔
      a ∈ assessments ∧ keyOf a = key ∧ ¬ Superseded r assessments relations a.assessmentId := by
    intro a
    rw [List.mem_filter, (List.perm_insertionSort _ _).mem_iff, groupOf, List.mem_filter,
      decide_eq_true_eq, decide_eq_true_eq, and_assoc]
    rfl
  refine ⟨_, hmem, ?_⟩
  obtain ⟨hfirstMem, hfirstKey⟩ := List.mem_filter.1 (List.mem_of_mem_head? hfirst)
  obtain ⟨b, hb, hkey, hactive⟩ := exists_active r relations hids hfirstMem
  have hne := List.ne_nil_of_mem ((hmem b).2 ⟨hb, hkey.trans (of_decide_eq_true hfirstKey), hactive⟩)
  rw [project]
  dsimp only
  rw [if_pos hne]
  exact ⟨rfl, rfl⟩

/-! ### The order of the lists -/

/-- The comparison of texts tells these apart. -/
def TellsApart (c : Collation) (texts : List String) : Prop :=
  ∀ a ∈ texts, ∀ b ∈ texts, c.localeCompare a b = .eq → a = b

instance (c : Collation) (texts : List String) : Decidable (TellsApart c texts) :=
  inferInstanceAs (Decidable (∀ a ∈ texts, ∀ b ∈ texts, c.localeCompare a b = .eq → a = b))

variable (r) in
/-- By the time of creation, then by the name. -/
def creationOrder {α : Type} (createdAt id : α → String) (a b : α) : Ordering :=
  (r.collation.localeCompare (createdAt a) (createdAt b)).then
    (r.collation.localeCompare (id a) (id b))

instance transCmp_creationOrder {α : Type} (createdAt id : α → String) :
    Std.TransCmp (creationOrder r createdAt id) :=
  have := Js.transCmp_on (Js.transCmp_localeCompare r.collation) createdAt
  have := Js.transCmp_on (Js.transCmp_localeCompare r.collation) id
  inferInstanceAs (Std.TransCmp (compareLex
    (fun a b => r.collation.localeCompare (createdAt a) (createdAt b))
    fun a b => r.collation.localeCompare (id a) (id b)))

theorem separates_creationOrder {α : Type} {createdAt id : α → String} {rows : List α}
    (hnodup : (rows.map id).Nodup) (hapart : TellsApart r.collation (rows.map id)) :
    Separates (creationOrder r createdAt id) rows := by
  intro a ha b hb heq
  have hid := hapart _ (List.mem_map_of_mem ha) _ (List.mem_map_of_mem hb) (Ordering.then_eq_eq.1 heq).2
  exact List.inj_on_of_nodup_map hnodup ha hb hid

theorem byId_congr {assessments' : List Assessment} (hids : (assessments.map (·.assessmentId)).Nodup)
    (hperm : assessments.Perm assessments') (id : String) :
    byId assessments' id = byId assessments id := by
  have hids' : (assessments'.map (·.assessmentId)).Nodup := (hperm.map _).nodup_iff.1 hids
  cases h : byId assessments id with
  | some a =>
    obtain ⟨ha, hid⟩ := byId_eq_some h
    cases h' : byId assessments' id with
    | some b =>
      obtain ⟨hb, hid'⟩ := byId_eq_some h'
      rw [eq_of_assessmentId hids' (hperm.mem_iff.1 ha) hb (hid.trans hid'.symm)]
    | none =>
      rw [byId, List.find?_eq_none] at h'
      exact absurd (decide_eq_true hid) (h' a (List.mem_reverse.2 (hperm.mem_iff.1 ha)))
  | none =>
    cases h' : byId assessments' id with
    | none => rfl
    | some b =>
      obtain ⟨hb, hid⟩ := byId_eq_some h'
      rw [byId, List.find?_eq_none] at h
      exact absurd (decide_eq_true hid) (h b (List.mem_reverse.2 (hperm.mem_iff.2 hb)))

/-- What the names of an epoch must be for its summaries not to depend on the order of the lists. -/
structure Named (r : Runtime) (assessments : List Assessment) (relations : List AssessmentRelation) :
    Prop where
  uniqueAssessments : (assessments.map (·.assessmentId)).Nodup
  uniqueRelations : (relations.map (·.relationId)).Nodup
  assessmentsApart : TellsApart r.collation (assessments.map (·.assessmentId))
  relationsApart : TellsApart r.collation (relations.map (·.relationId))
  keysApart : TellsApart r.collation (assessments.map keyOf)

variable {assessments' : List Assessment} {relations' : List AssessmentRelation}

theorem adjudicationOf_congr (h : Named r assessments relations) (hassessments : assessments.Perm assessments')
    (hrelations : relations.Perm relations') :
    adjudicationOf r assessments' relations' = adjudicationOf r assessments relations := by
  have hsorted : sortBy (creationOrder r AssessmentRelation.createdAt AssessmentRelation.relationId) relations =
      sortBy (creationOrder r AssessmentRelation.createdAt AssessmentRelation.relationId) relations' :=
    sortBy_congr (separates_creationOrder h.uniqueRelations h.relationsApart) hrelations
  have hstep : adjudicate r assessments' = adjudicate r assessments := by
    funext adjudication relation
    rw [adjudicate, adjudicate, byId_congr h.uniqueAssessments hassessments,
      byId_congr h.uniqueAssessments hassessments]
  have hfold : ∀ assessments relations, adjudicationOf r assessments relations =
      (sortBy (creationOrder r AssessmentRelation.createdAt AssessmentRelation.relationId)
        relations).foldl (adjudicate r assessments) .none := fun _ _ => rfl
  rw [hfold, hfold, hstep, hsorted]

/-- The summary of a group depends on its members alone. -/
theorem project_congr (h : Named r assessments relations) (hperm : assessments.Perm assessments')
    (adjudication : Adjudication) {key : String} {first first' : Assessment}
    (hfirst : (groupOf assessments key).head? = some first) :
    project r adjudication key first' (groupOf assessments' key) =
      project r adjudication key first (groupOf assessments key) := by
  have hsub : (groupOf assessments key).Sublist assessments := List.filter_sublist
  have hsorted : sortBy (creationOrder r Assessment.createdAt Assessment.assessmentId)
      (groupOf assessments key) = sortBy (creationOrder r Assessment.createdAt Assessment.assessmentId)
      (groupOf assessments' key) :=
    sortBy_congr ((separates_creationOrder h.uniqueAssessments h.assessmentsApart).subset hsub.subset)
      (hperm.filter _)
  have hne : sortBy (creationOrder r Assessment.createdAt Assessment.assessmentId)
      (groupOf assessments key) ≠ [] := by
    intro hnil
    have hmem := mem_sortBy (c := creationOrder r Assessment.createdAt Assessment.assessmentId).2
      (List.mem_of_mem_head? hfirst)
    rw [hnil] at hmem
    cases hmem
  obtain ⟨head, rest, hcons⟩ := List.exists_cons_of_ne_nil hne
  rw [project, project, show ((groupOf assessments' key).insertionSort fun a b =>
      earlier r a.createdAt a.assessmentId b.createdAt b.assessmentId) = head :: rest from
    hsorted.symm.trans hcons, show ((groupOf assessments key).insertionSort fun a b =>
      earlier r a.createdAt a.assessmentId b.createdAt b.assessmentId) = head :: rest from hcons]
  rfl

theorem keyOf_of_head {key : String} {first : Assessment}
    (h : (groupOf assessments key).head? = some first) : first ∈ assessments ∧ keyOf first = key := by
  obtain ⟨hmem, hkey⟩ := List.mem_filter.1 (List.mem_of_mem_head? h)
  exact ⟨hmem, of_decide_eq_true hkey⟩

theorem exists_head (hperm : assessments.Perm assessments') {key : String} {first : Assessment}
    (h : (groupOf assessments key).head? = some first) :
    ∃ first', (groupOf assessments' key).head? = some first' := by
  have hmem := (hperm.filter _).mem_iff.1 (List.mem_of_mem_head? h)
  cases hgroup : groupOf assessments' key with
  | nil =>
    rw [groupOf] at hgroup
    rw [hgroup] at hmem
    cases hmem
  | cons first' rest => exact ⟨first', rfl⟩

/-- There is one summary for each key. -/
theorem eq_of_projectionKey {p q : EffectiveAssessmentProjection}
    (hp : p ∈ projectEffectiveAssessments r assessments relations)
    (hq : q ∈ projectEffectiveAssessments r assessments relations)
    (h : p.projectionKey = q.projectionKey) : p = q := by
  obtain ⟨key, first, hfirst, rfl⟩ := mem_projectEffectiveAssessments.1 hp
  obtain ⟨key', first', hfirst', rfl⟩ := mem_projectEffectiveAssessments.1 hq
  obtain rfl : key = key' := h
  rw [Option.some.inj (hfirst.symm.trans hfirst')]

theorem nodup_projectEffectiveAssessments :
    (projectEffectiveAssessments r assessments relations).Nodup := by
  rw [projectEffectiveAssessments, (List.perm_insertionSort _ _).nodup_iff]
  have hkeys := List.pairwise_map.1 (lookup_groupBy keyOf assessments).1
  refine hkeys.filterMap _ fun group group' hne p hp p' hp' heq => ?_
  obtain ⟨first, -, rfl⟩ := Option.map_eq_some_iff.1 hp
  obtain ⟨first', -, rfl⟩ := Option.map_eq_some_iff.1 hp'
  exact hne (congrArg EffectiveAssessmentProjection.projectionKey heq)

/-- The summaries come in the order of their keys. -/
def keyOrder (r : Runtime) (p q : EffectiveAssessmentProjection) : Ordering :=
  r.collation.localeCompare p.projectionKey q.projectionKey

instance transCmp_keyOrder : Std.TransCmp (keyOrder r) :=
  Js.transCmp_on (Js.transCmp_localeCompare r.collation) EffectiveAssessmentProjection.projectionKey

/-- The summaries do not depend on the order in which assessments and relations are listed. -/
theorem projectEffectiveAssessments_congr (h : Named r assessments relations)
    (hassessments : assessments.Perm assessments') (hrelations : relations.Perm relations') :
    projectEffectiveAssessments r assessments' relations' =
      projectEffectiveAssessments r assessments relations := by
  have hmem : ∀ p, p ∈ projectEffectiveAssessments r assessments relations ↔
      p ∈ projectEffectiveAssessments r assessments' relations' := by
    intro p
    rw [mem_projectEffectiveAssessments, mem_projectEffectiveAssessments,
      adjudicationOf_congr h hassessments hrelations]
    constructor
    · rintro ⟨key, first, hfirst, rfl⟩
      obtain ⟨first', hfirst'⟩ := exists_head hassessments hfirst
      exact ⟨key, first', hfirst', (project_congr h hassessments _ hfirst).symm⟩
    · rintro ⟨key, first', hfirst', rfl⟩
      obtain ⟨first, hfirst⟩ := exists_head hassessments.symm hfirst'
      exact ⟨key, first, hfirst, project_congr h hassessments _ hfirst⟩
  have hperm := (List.perm_ext_iff_of_nodup (nodup_projectEffectiveAssessments (r := r))
    nodup_projectEffectiveAssessments).2 hmem
  have hsorted : ∀ assessments relations, ∃ projected,
      projectEffectiveAssessments r assessments relations = sortBy (keyOrder r) projected :=
    fun _ _ => ⟨_, rfl⟩
  obtain ⟨projected, hprojected⟩ := hsorted assessments relations
  obtain ⟨projected', hprojected'⟩ := hsorted assessments' relations'
  have hsep : Separates (keyOrder r) projected := by
    intro p hp q hq heq
    have hp' : p ∈ projectEffectiveAssessments r assessments relations :=
      hprojected ▸ mem_sortBy.2 hp
    have hq' : q ∈ projectEffectiveAssessments r assessments relations :=
      hprojected ▸ mem_sortBy.2 hq
    have hkey : ∀ s ∈ projectEffectiveAssessments r assessments relations,
        s.projectionKey ∈ assessments.map keyOf := by
      intro s hs
      obtain ⟨key, first, hfirst, rfl⟩ := mem_projectEffectiveAssessments.1 hs
      obtain ⟨hfirstMem, hfirstKey⟩ := keyOf_of_head hfirst
      exact List.mem_map.2 ⟨first, hfirstMem, hfirstKey⟩
    exact eq_of_projectionKey hp' hq' (h.keysApart _ (hkey p hp') _ (hkey q hq') heq)
  rw [hprojected, hprojected'] at hperm
  rw [hprojected, hprojected']
  exact (sortBy_eq hsep (perm_sortBy.symm.trans hperm) pairwise_sortBy).symm

/-! ### The effective assessments -/

/-- What the effective assessments of an epoch are to be. -/
structure Effective (r : Runtime) (assessments : List Assessment)
    (relations : List AssessmentRelation) : Prop where
  -- the relations that take effect are among those given, and close no circle
  related : ∀ a b, Replaces r assessments relations a b → Joined assessments relations a b
  acyclic : Acyclic (Replaces r assessments relations)
  -- a superseded assessment has been replaced along a path of authority that does not fall
  replaced : ∀ a ∈ assessments, Superseded r assessments relations a.assessmentId →
    ∃ b ∈ assessments, ¬ Superseded r assessments relations b.assessmentId ∧
      TransGen (Replaces r assessments relations) b.assessmentId a.assessmentId ∧ Outranks b a
  stepwise : ∀ a ∈ assessments, ∀ b ∈ assessments,
    Replaces r assessments relations b.assessmentId a.assessmentId → Outranks b a
  human : ∀ a ∈ assessments, ∀ b ∈ assessments,
    TransGen (Replaces r assessments relations) b.assessmentId a.assessmentId →
      a.authorType = .human → b.authorType = .human
  -- there is one summary for each key, of the assessments that nothing replaces
  summarized : ∀ a ∈ assessments, ∃! p, p ∈ projectEffectiveAssessments r assessments relations ∧
    p.projectionKey = keyOf a
  active : ∀ p ∈ projectEffectiveAssessments r assessments relations,
    (∃ a, Active r assessments relations p a) ∧ ∀ id, id ∈ p.effectiveAssessmentIds ↔
      ∃ a, Active r assessments relations p a ∧ a.assessmentId = id
  conflict : ∀ p ∈ projectEffectiveAssessments r assessments relations,
    ∀ a b, Active r assessments relations p a → IsRisk a →
      Active r assessments relations p b → isClearance b.verdict = true → p.conclusion = .conflict
  worst : ∀ p ∈ projectEffectiveAssessments r assessments relations,
    (∃ a, Active r assessments relations p a ∧ IsRisk a) →
      (∀ b, Active r assessments relations p b → isClearance b.verdict = false) →
      ∃ a, Active r assessments relations p a ∧ IsRisk a ∧ p.conclusion = .verdict a.verdict ∧
        ∀ b, Active r assessments relations p b → risk b.verdict ≤ risk a.verdict

theorem authority_human {a b : Assessment} (h : Outranks b a) (ha : a.authorType = .human) :
    b.authorType = .human := by
  have hauthority := h.authority
  rw [ha] at hauthority
  revert hauthority
  cases b.authorType <;> decide

/-- The effective assessments of an epoch are what they are to be, in whatever order its assessments
    and relations are listed. -/
theorem effective_of_named (r : Runtime) (assessments : List Assessment)
    (relations : List AssessmentRelation) (h : Named r assessments relations) :
    Effective r assessments relations ∧
    ∀ assessments' relations', assessments.Perm assessments' → relations.Perm relations' →
      projectEffectiveAssessments r assessments' relations' =
        projectEffectiveAssessments r assessments relations := by
  have hordered := ordered_adjudicationOf r assessments relations
  have hids := h.uniqueAssessments
  refine ⟨⟨hordered.joined, hordered.acyclic, fun a ha => exists_unsuperseded hids ha, ?_, ?_, ?_, ?_,
    ?_, ?_⟩, fun _ _ => projectEffectiveAssessments_congr h⟩
  · intro a ha b hb hedge
    exact (hordered.joined _ _ hedge).of_mem hids hb ha
  · intro a ha b hb hpath hhuman
    obtain ⟨source, hsource, hid, houtranks⟩ := outranks_of_path hids ha hpath
    obtain rfl := eq_of_assessmentId hids hsource hb hid
    exact authority_human houtranks hhuman
  · intro a ha
    have hgroup : a ∈ groupOf assessments (keyOf a) := List.mem_filter.2 ⟨ha, decide_eq_true rfl⟩
    cases hcases : groupOf assessments (keyOf a) with
    | nil => rw [hcases] at hgroup; cases hgroup
    | cons first rest =>
      have hmem : project r (adjudicationOf r assessments relations) (keyOf a) first
          (groupOf assessments (keyOf a)) ∈ projectEffectiveAssessments r assessments relations :=
        mem_projectEffectiveAssessments.2 ⟨keyOf a, first, by rw [hcases]; rfl, rfl⟩
      exact ⟨_, ⟨hmem, rfl⟩, fun p hp => eq_of_projectionKey hp.1 hmem hp.2⟩
  · intro p hp
    obtain ⟨effective, hmem, hidsOf, -⟩ := exists_effective hids hp
    obtain ⟨key, first, hfirst, rfl⟩ := mem_projectEffectiveAssessments.1 hp
    obtain ⟨hfirstMem, hfirstKey⟩ := keyOf_of_head hfirst
    obtain ⟨b, hb, hkey, hactive⟩ := exists_active r relations hids hfirstMem
    refine ⟨⟨b, hb, hkey.trans hfirstKey, hactive⟩, fun id => ?_⟩
    rw [hidsOf, List.mem_map]
    exact exists_congr fun a => and_congr_left fun _ => hmem a
  · intro p hp a b ha hrisk hb hclear
    obtain ⟨effective, hmem, -, hconclusion⟩ := exists_effective hids hp
    rw [hconclusion]
    exact resolveConclusion_conflict ((hmem a).2 ha) hrisk ((hmem b).2 hb) hclear
  · rintro p hp ⟨a, ha, hrisk⟩ hclear
    obtain ⟨effective, hmem, -, hconclusion⟩ := exists_effective hids hp
    obtain ⟨worst, hworst, hworstRisk, heq, hall⟩ := resolveConclusion_risk ((hmem a).2 ha) hrisk
      fun b hb => hclear b ((hmem b).1 hb)
    exact ⟨worst, (hmem worst).1 hworst, hworstRisk, hconclusion.trans heq,
      fun b hb => hall b ((hmem b).2 hb)⟩

/-! A rule finds a file suspicious, and a person clears it. -/

def ruleRisk : Assessment :=
  ⟨"ASM-RISK", "TASK-1", "EPOCH-1", .rule, .webshell, some "REF-file-1", .subject, .suspicious, "1"⟩

def humanClearance : Assessment :=
  ⟨"ASM-HUMAN", "TASK-1", "EPOCH-1", .human, .webshell, some "REF-file-1", .subject, .benign, "2"⟩

def clearing : AssessmentRelation :=
  ⟨"AREL-1", "TASK-1", "EPOCH-1", .adjudicates, "ASM-HUMAN", "ASM-RISK", "3"⟩

def plainRuntime : Runtime := ⟨Js.codeUnitCollation, fun _ => some 0⟩

theorem effective_clearing :
    Superseded plainRuntime [ruleRisk, humanClearance] [clearing] "ASM-RISK" ∧
    (projectEffectiveAssessments plainRuntime [ruleRisk, humanClearance] [clearing]).map
      (·.conclusion) = [.verdict .benign] ∧
    Effective plainRuntime [ruleRisk, humanClearance] [clearing] ∧
    ∀ assessments' relations', [ruleRisk, humanClearance].Perm assessments' →
      [clearing].Perm relations' →
      projectEffectiveAssessments plainRuntime assessments' relations' =
        projectEffectiveAssessments plainRuntime [ruleRisk, humanClearance] [clearing] :=
  ⟨by decide +kernel, by decide +kernel,
    effective_of_named _ _ _ ⟨by decide +kernel, by decide +kernel, by decide +kernel,
      by decide, by decide⟩⟩

end HuntWarden.Projection
